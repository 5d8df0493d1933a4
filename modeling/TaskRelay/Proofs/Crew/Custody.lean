import TaskRelay.Proofs.Collection
import TaskRelay.Proofs.Crew.Basic
import TaskRelay.Proofs.Engine.Iteration

/-!
# No unit of work is lost

A unit of work that has come onto a topic is on the topic, in a message that is due or held back, or
in the hands of a worker, from then on (`Crew.Has`), until a step is done with it, gives up on it or
fails on a batch that it is in (`Site.Dispatch.Settles`).

What carries this is that the tasks in a worker's hands are always of distinct units of work
(`Hands.IsSound`): merging drops nothing but what is there already, and a task that is put back
is never refused.  `Turn.keeps_key` is the step, for a single move of a worker.
-/

namespace TaskRelay

variable {σ : Type}

/-! ## On the topic -/

namespace Channel

def Offers (c : Channel) (topic : String) (key : TaskKey) : Prop :=
  ∃ h ∈ c.held, h.topic = topic ∧ key ∈ h.message.keys

variable {c c' : Channel} {topic : String} {key : TaskKey}

theorem offers_publish_self {m : Message} (h : key ∈ m.keys) (c : Channel) (topic : String)
    (due : Nat) : (c.publish topic m due).Offers topic key :=
  ⟨{ topic, message := m, due }, List.mem_append_right _ List.mem_cons_self, rfl, h⟩

theorem Offers.publish (h : c.Offers topic key) (other : String) (m : Message) (due : Nat) :
    (c.publish other m due).Offers topic key := by
  obtain ⟨held, hmem, htopic, hkey⟩ := h
  exact ⟨held, List.mem_append_left _ hmem, htopic, hkey⟩

theorem Offers.take? {other : String} {now : Nat} {m : Message} (h : c.Offers topic key)
    (htake : c.take? other now = some (m, c')) :
    c'.Offers topic key ∨ (topic = other ∧ key ∈ m.keys) := by
  obtain ⟨held, hmem, htopic, hkey⟩ := h
  obtain ⟨before, taken, after, hsplit, rfl, hdeliverable, -, rfl⟩ := take?_eq_some htake
  rw [hsplit, List.mem_append, List.mem_cons] at hmem
  rcases hmem with hbefore | rfl | hafter
  · exact .inl ⟨held, List.mem_append_left _ hbefore, htopic, hkey⟩
  · exact .inr ⟨htopic.symm.trans (Held.isDeliverable_iff.1 hdeliverable).1, hkey⟩
  · exact .inl ⟨held, List.mem_append_right _ hafter, htopic, hkey⟩

end Channel

/-! ## In the hands of a worker -/

namespace Batch

/-- The units of work are distinct, and there are none unless some message held a task list. -/
def IsSound (b : Batch) : Prop :=
  b.tasks.Distinct ∧ b.Counts

theorem isSound_empty : IsSound ∅ :=
  ⟨TaskList.distinct_empty, fun _ => rfl⟩

theorem IsSound.absorb {b : Batch} (h : b.IsSound) (m : Message) : (b.absorb m).IsSound :=
  ⟨distinct_absorb h.1 m, counts_absorb h.2 m⟩

end Batch

namespace Hands

def keys : Hands → List TaskKey
  | .nothing => []
  | .collecting c => (c.batch.getD ∅).tasks.keys
  | .working d => d.context.task.key :: d.rest.keys

/-- The units of work in the hands of the worker at a post are distinct, and they will come back to
its topic. -/
def IsSound (p : Post) : Hands → Prop
  | .nothing => True
  | .collecting c => (c.batch.getD ∅).IsSound
  | .working d =>
    d.context.task.key ∉ d.rest.keys ∧ d.rest.Distinct ∧ d.pipeline.topic = p.topic ∧
      d.attempt.reply ≠ .panic

theorem IsFresh.isSound {p : Post} {now : Nat} {h : Hands} (hfresh : h.IsFresh now) :
    h.IsSound p := by
  cases hfresh with
  | nothing => trivial
  | collecting wait => exact Batch.isSound_empty

end Hands

/-! ## How a unit of work is settled -/

namespace Site.Dispatch

/-- With the end of a call a unit of work is done, given up, or lost with its batch because the step
has failed. -/
inductive Settles (d : Dispatch) (key : TaskKey) : Prop
  | done (hreply : d.attempt.reply = .outcome .done) (hkey : key = d.context.task.key)
  | timedOut (hreply : d.attempt.reply = .outcome .reschedule)
      (hexhausted :
        d.pipeline.retry.isExhausted (RetryPolicy.succCounter d.context.loopCounter) = true)
      (hkey : key = d.context.task.key)
  | aborted (e : StepError) (hreply : d.attempt.reply = .error e)
      (hkey : key = d.context.task.key ∨ key ∈ d.rest.keys)

/-- With the end of a call a unit of work is published again, or scheduled by a step that is
done. -/
inductive Entrusts (d : Dispatch) (key : TaskKey) : Prop
  | requeued (c : Conclusion) (m : Message) (delay : Nat)
      (hconclude : d.pipeline.conclude? d.rest (d.context.editAll d.attempt.edits)
        d.attempt.reply = some c)
      (hrequeue : c.requeue = some (m, delay)) (hkey : key ∈ m.keys)
  | followUp (next : Task) (hreply : d.attempt.reply = .outcome .done)
      (hnext : (d.context.editAll d.attempt.edits).followUp = some next) (hkey : key = next.key)

variable {d : Dispatch} {key : TaskKey}

/-- A task that is put back is not refused. -/
theorem add_retryTask (h : d.context.task.key ∉ d.rest.keys) (loopCounter : UInt32) :
    d.rest.add ((d.context.editAll d.attempt.edits).retryTask loopCounter) =
      ⟨d.rest.tasks ++ [(d.context.editAll d.attempt.edits).retryTask loopCounter]⟩ := by
  refine TaskList.add_of_not_mem ?_
  rwa [Context.key_retryTask, Context.editAll_task]

/-- What is in the hands of a worker when a call ends is settled or published. -/
theorem settles_or_requeued (hpanic : d.attempt.reply ≠ .panic)
    (hkey : key ∈ d.context.task.key :: d.rest.keys) :
    d.Settles key ∨ ∃ c m delay, d.pipeline.conclude? d.rest (d.context.editAll d.attempt.edits)
      d.attempt.reply = some c ∧ c.requeue = some (m, delay) ∧ key ∈ m.keys := by
  rw [List.mem_cons] at hkey
  cases hreply : d.attempt.reply with
  | panic => exact absurd hreply hpanic
  | error e => exact .inl (.aborted e hreply hkey)
  | outcome outcome =>
    rcases hkey with htask | hrest
    · cases outcome with
      | done => exact .inl (.done hreply htask)
      | reschedule =>
        by_cases hexhausted :
            d.pipeline.retry.isExhausted (RetryPolicy.succCounter d.context.loopCounter) = true
        · exact .inl (.timedOut hreply hexhausted htask)
        · refine .inr (Pipeline.requeue_conclude? ?_)
          rw [Pipeline.tasksAfter, Context.editAll_loopCounter, RetryPolicy.decide,
            if_neg hexhausted]
          refine TaskList.mem_keys_add.2 (.inr ?_)
          rw [Context.key_retryTask, Context.editAll_task, htask]
    · exact .inr (Pipeline.requeue_conclude? (Pipeline.mem_keys_tasksAfter_of_mem hrest))

/-- What a call entrusts to the topic is in the message that continues the run. -/
theorem Entrusts.exists_requeue (h : d.Entrusts key) :
    ∃ c m delay, d.pipeline.conclude? d.rest (d.context.editAll d.attempt.edits)
      d.attempt.reply = some c ∧ c.requeue = some (m, delay) ∧ key ∈ m.keys := by
  cases h with
  | requeued c m delay hconclude hrequeue hkey =>
    exact ⟨c, m, delay, hconclude, hrequeue, hkey⟩
  | followUp next hreply hnext hkey =>
    obtain ⟨prepared, hprepared, hpkey⟩ := Context.key_of_preparedFollowUp hnext
    rw [hreply]
    refine Pipeline.requeue_conclude? ?_
    rw [Pipeline.tasksAfter, RetryPolicy.decide]
    exact Pipeline.mem_keys_withFollowUp.2 (.inr ⟨prepared, hprepared, hkey.trans hpkey.symm⟩)

end Site.Dispatch

/-! ## One move -/

namespace Site

/-- Nothing gets in the way: calls of the channel do not fail, and every step answers. -/
structure Flows (s : Site σ) : Prop where
  canPublish : s.CanPublish
  canReceive : s.faults .receive = 0
  answers : ∀ role ∈ s.roles, ∀ context state, (role.2.invoke context state).1.reply ≠ .panic

end Site

namespace Post

variable {p : Post} {b : Batch} {s t : Site σ}

/-- A batch that is worked on goes into the hands of the worker as it is. -/
theorem work_dispatched {d : Site.Dispatch} (hs : s.Flows) (hemploys : s.employs p = true)
    (hb : b.IsSound) (h : p.work b s = (.dispatched d, t)) :
    t.channel = s.channel ∧ (Hands.working d).IsSound p ∧
      ∀ key, key ∈ b.tasks.keys ↔ key ∈ (Hands.working d).keys := by
  obtain ⟨e, he, htopic, hrole⟩ := Site.engine_of_employs hemploys
  rw [work] at h
  split at h
  · cases h
  · rw [he] at h
    simp only [Site.beginIteration_eq, Pipeline.choose] at h
    cases hpop : b.tasks.popNext? e.pipeline.order with
    | none =>
      rw [hpop] at h
      cases h
    | some popped =>
      obtain ⟨task, rest⟩ := popped
      rw [hpop] at h
      cases h
      have hkeys : ∀ key, key ∈ b.tasks.keys ↔ key = task.key ∨ key ∈ rest.keys := fun key =>
        TaskList.mem_keys_popNext? hpop
      obtain ⟨hnew, hdistinct⟩ := TaskList.distinct_popNext? hpop hb.1
      refine ⟨?_, ⟨hnew, hdistinct, htopic, hs.answers _ hrole _ _⟩, fun key => ?_⟩
      · rw [Site.channel_calling, Site.channel_idFor]
      · rw [hkeys key]
        exact List.mem_cons.symm

/-- Work that has ended at once has left nothing undone. -/
theorem work_ended {result : Except ChannelError (Option Continuation)} (hs : s.Flows)
    (hemploys : s.employs p = true) (hb : b.IsSound) (h : p.work b s = (.ended result, t)) :
    t.channel = s.channel ∧ b.tasks.keys = [] := by
  obtain ⟨e, he, -, -⟩ := Site.engine_of_employs hemploys
  rw [work] at h
  split at h
  · next hrejected =>
    cases h
    rw [hb.2 hrejected]
    exact ⟨rfl, rfl⟩
  · rw [he] at h
    simp only [Site.beginIteration_eq, Pipeline.choose] at h
    cases hpop : b.tasks.popNext? e.pipeline.order with
    | none =>
      have hnil := TaskList.popNext?_eq_none_iff.1 hpop
      rw [hpop] at h
      cases h
      have hid := Site.keeps_idFor s (b.correlationOf? e.pipeline.order)
      rw [Site.channel_carryOut (hid.canPublish hs.canPublish), Pipeline.advance_of_eq_empty hnil,
        Site.channel_idFor, TaskList.keys, hnil]
      exact ⟨rfl, rfl⟩
    | some popped =>
      rw [hpop] at h
      cases h

end Post

namespace Collection

variable {c next : Collection} {b : Batch} {settings : CollectionSettings} {topic : String}
  {now : Nat} {channel channel' : Channel}

theorem isSound_of_poll_more (hc : (c.batch.getD ∅).IsSound)
    (h : c.poll settings topic now channel = (.more next, channel')) :
    (next.batch.getD ∅).IsSound := by
  obtain ⟨m, -, rfl, -⟩ := poll_more h
  exact hc.absorb m

theorem isSound_of_poll_closed (hc : (c.batch.getD ∅).IsSound)
    (h : c.poll settings topic now channel = (.closed (some b), channel')) : b.IsSound := by
  rcases poll_closed h with ⟨m, -, hb⟩ | ⟨-, -, hb, -⟩
  · cases hb
    exact hc.absorb m
  · rw [← hb] at hc
    exact hc

theorem offers_of_poll_more {key : TaskKey} {topic' : String}
    (h : c.poll settings topic now channel = (.more next, channel'))
    (hoffers : channel.Offers topic' key) :
    channel'.Offers topic' key ∨ (topic' = topic ∧ key ∈ (next.batch.getD ∅).tasks.keys) := by
  obtain ⟨m, htake, rfl, -⟩ := poll_more h
  exact (hoffers.take? htake).imp_right fun hm =>
    ⟨hm.1, (Batch.mem_keys_absorb _ m).2 (.inr hm.2)⟩

theorem offers_of_poll_closed {b : Option Batch} {key : TaskKey} {topic' : String}
    (h : c.poll settings topic now channel = (.closed b, channel'))
    (hoffers : channel.Offers topic' key) :
    channel'.Offers topic' key ∨ (topic' = topic ∧ key ∈ (b.getD ∅).tasks.keys) := by
  rcases poll_closed h with ⟨m, htake, rfl⟩ | ⟨-, rfl, rfl, -⟩
  · exact (hoffers.take? htake).imp_right fun hm =>
      ⟨hm.1, (Batch.mem_keys_absorb _ m).2 (.inr hm.2)⟩
  · exact .inl hoffers

theorem keys_of_poll_more {key : TaskKey}
    (h : c.poll settings topic now channel = (.more next, channel'))
    (hkey : key ∈ (c.batch.getD ∅).tasks.keys) : key ∈ (next.batch.getD ∅).tasks.keys := by
  obtain ⟨m, -, rfl, -⟩ := poll_more h
  exact (Batch.mem_keys_absorb _ m).2 (.inl hkey)

theorem keys_of_poll_closed {b : Option Batch} {key : TaskKey}
    (h : c.poll settings topic now channel = (.closed b, channel'))
    (hkey : key ∈ (c.batch.getD ∅).tasks.keys) : key ∈ (b.getD ∅).tasks.keys := by
  rcases poll_closed h with ⟨m, -, rfl⟩ | ⟨-, -, rfl, -⟩
  · exact (Batch.mem_keys_absorb _ m).2 (.inl hkey)
  · exact hkey

end Collection

namespace Site

theorem channel_endIteration {s : Site σ} {d : Dispatch} {c : Conclusion} (hs : s.CanPublish)
    (h : d.pipeline.conclude? d.rest (d.context.editAll d.attempt.edits) d.attempt.reply =
      some c) :
    (s.endIteration d).2.channel =
      match c.requeue with
      | none => s.channel
      | some (m, delay) => s.channel.publish d.pipeline.topic m (s.now + delay) := by
  have hkeeps := keeps_noted s d
  have hcarry := channel_carryOut (hkeeps.canPublish hs) d.engine d.pipeline
    d.context.correlationId c
  rw [channel_noted, hkeeps.now_eq] at hcarry
  rw [endIteration_eq, h]
  exact hcarry

/-- Unless its step breaks off, the end of a call takes nothing off a topic. -/
theorem offers_endIteration {s : Site σ} {d : Dispatch} {topic : String} {key : TaskKey}
    (hs : s.CanPublish) (hpanic : d.attempt.reply ≠ .panic)
    (hoffers : s.channel.Offers topic key) : (s.endIteration d).2.channel.Offers topic key := by
  obtain ⟨c, hc⟩ := Pipeline.exists_conclude? d.pipeline d.rest
    (d.context.editAll d.attempt.edits) hpanic
  rw [channel_endIteration hs hc]
  cases c.requeue with
  | none => exact hoffers
  | some requeue => exact hoffers.publish _ _ _

/-- What is published with the end of a call is on the topic of the pipeline. -/
theorem offers_of_requeue {s : Site σ} {d : Dispatch} {key : TaskKey} {c : Conclusion}
    {m : Message} {delay : Nat} (hs : s.CanPublish)
    (hc : d.pipeline.conclude? d.rest (d.context.editAll d.attempt.edits) d.attempt.reply = some c)
    (hrequeue : c.requeue = some (m, delay)) (hkey : key ∈ m.keys) :
    (s.endIteration d).2.channel.Offers d.pipeline.topic key := by
  rw [channel_endIteration hs hc, hrequeue]
  exact Channel.offers_publish_self hkey _ _ _

end Site

namespace Turn

variable {p : Post} {s t : Site σ} {before after : Hands}

theorem isSound (h : Turn p s before after t) (hs : s.Flows) (hemploys : s.employs p = true)
    (hbefore : before.IsSound p) : after.IsSound p := by
  cases h with
  | stay hquiet hbusy => exact hbefore
  | begin hquiet hfresh => exact hfresh.isSound
  | take hpoll hquiet => exact Collection.isSound_of_poll_more hbefore hpoll
  | drop hpoll hfault hquiet => trivial
  | giveUp hpoll hquiet => trivial
  | @start c b channel d t hpoll hwork =>
    have hflows : Site.Flows { s with channel } := ⟨hs.canPublish, hs.canReceive, hs.answers⟩
    have hb := Collection.isSound_of_poll_closed hbefore hpoll
    exact (Post.work_dispatched hflows hemploys hb hwork).2.1
  | pass hpoll hwork hquiet hfresh => exact hfresh.isSound
  | finish hends hend hquiet hfresh => exact hfresh.isSound

/-- What is on a topic stays there unless a worker of the topic takes it in its hands. -/
theorem offers {topic : String} {key : TaskKey} (h : Turn p s before after t) (hs : s.Flows)
    (hemploys : s.employs p = true) (hbefore : before.IsSound p)
    (hoffers : s.channel.Offers topic key) :
    t.channel.Offers topic key ∨ (topic = p.topic ∧ key ∈ after.keys) := by
  cases h with
  | stay hquiet hbusy => exact .inl (hquiet.channel_eq ▸ hoffers)
  | begin hquiet hfresh => exact .inl (hquiet.channel_eq ▸ hoffers)
  | take hpoll hquiet =>
    rw [hquiet.channel_eq]
    exact Collection.offers_of_poll_more hpoll hoffers
  | drop hpoll hfault hquiet => exact absurd hs.canReceive hfault
  | giveUp hpoll hquiet =>
    rw [hquiet.channel_eq]
    exact Collection.offers_of_poll_closed hpoll hoffers
  | @start c b channel d t hpoll hwork =>
    have hflows : Site.Flows { s with channel } := ⟨hs.canPublish, hs.canReceive, hs.answers⟩
    have hb := Collection.isSound_of_poll_closed hbefore hpoll
    obtain ⟨hchannel, -, hkeys⟩ := Post.work_dispatched hflows hemploys hb hwork
    rw [hchannel]
    exact (Collection.offers_of_poll_closed hpoll hoffers).imp_right
      fun hm => ⟨hm.1, (hkeys key).1 hm.2⟩
  | @pass c b channel h t u result hpoll hwork hquiet hfresh =>
    have hflows : Site.Flows { s with channel } := ⟨hs.canPublish, hs.canReceive, hs.answers⟩
    have hb := Collection.isSound_of_poll_closed hbefore hpoll
    obtain ⟨hchannel, hnil⟩ := Post.work_ended hflows hemploys hb hwork
    rw [hquiet.channel_eq, hchannel]
    refine (Collection.offers_of_poll_closed hpoll hoffers).imp_right fun hm => ?_
    have hkey : key ∈ b.tasks.keys := hm.2
    rw [hnil] at hkey
    cases hkey
  | @finish d h t u result hends hend hquiet hfresh =>
    have hend' := Site.offers_endIteration hs.canPublish hbefore.2.2.2 hoffers
    rw [hend] at hend'
    rw [hquiet.channel_eq]
    exact .inl hend'

/-- What is in the hands of a worker stays there or comes back to its topic, unless it is settled
with the end of a call. -/
theorem keeps_key {key : TaskKey} (h : Turn p s before after t) (hs : s.Flows)
    (hemploys : s.employs p = true) (hbefore : before.IsSound p) (hkey : key ∈ before.keys) :
    t.channel.Offers p.topic key ∨ key ∈ after.keys ∨
      ∃ d, before = .working d ∧ d.ends ≤ s.now ∧ d.Settles key := by
  cases h with
  | stay hquiet hbusy => exact .inr (.inl hkey)
  | begin hquiet hfresh => cases hkey
  | take hpoll hquiet => exact .inr (.inl (Collection.keys_of_poll_more hpoll hkey))
  | drop hpoll hfault hquiet => exact absurd hs.canReceive hfault
  | giveUp hpoll hquiet => exact .inr (.inl (Collection.keys_of_poll_closed hpoll hkey))
  | @start c b channel d t hpoll hwork =>
    have hflows : Site.Flows { s with channel } := ⟨hs.canPublish, hs.canReceive, hs.answers⟩
    have hb := Collection.isSound_of_poll_closed hbefore hpoll
    obtain ⟨-, -, hkeys⟩ := Post.work_dispatched hflows hemploys hb hwork
    exact .inr (.inl ((hkeys key).1 (Collection.keys_of_poll_closed hpoll hkey)))
  | @pass c b channel h t u result hpoll hwork hquiet hfresh =>
    have hflows : Site.Flows { s with channel } := ⟨hs.canPublish, hs.canReceive, hs.answers⟩
    have hb := Collection.isSound_of_poll_closed hbefore hpoll
    obtain ⟨-, hnil⟩ := Post.work_ended hflows hemploys hb hwork
    have hkey' : key ∈ b.tasks.keys := Collection.keys_of_poll_closed hpoll hkey
    rw [hnil] at hkey'
    cases hkey'
  | @finish d h t u result hends hend hquiet hfresh =>
    obtain ⟨-, -, htopic, hpanic⟩ := hbefore
    rcases Site.Dispatch.settles_or_requeued hpanic hkey with
      hsettles | ⟨c, m, delay, hc, hrequeue, hm⟩
    · exact .inr (.inr ⟨d, rfl, hends, hsettles⟩)
    · have hoffers := Site.offers_of_requeue hs.canPublish hc hrequeue hm
      rw [hend, htopic] at hoffers
      rw [hquiet.channel_eq]
      exact .inl hoffers

end Turn

/-! ## Errands -/

namespace Errand

variable {s : Site σ} {topic : String} {key : TaskKey}

theorem offers_perform (e : Errand) (hs : s.CanPublish) (hoffers : s.channel.Offers topic key) :
    (e.perform s).2.channel.Offers topic key := by
  cases e with
  | trigger engine tasks attributes =>
    rw [perform]
    split
    · exact hoffers
    · next e he =>
      show (s.trigger e.pipeline tasks attributes).2.channel.Offers topic key
      rw [Site.channel_trigger hs]
      exact hoffers.publish _ _ _
  | publish topic' m delay =>
    show (s.publish topic' m delay).2.channel.Offers topic key
    rw [Site.channel_publish hs]
    exact hoffers.publish _ _ _
  | lease call queue holder =>
    rw [(quiet_perform_lease call queue holder s).channel_eq]
    exact hoffers
  | fail o n => exact hoffers

end Errand

/-! ## Runs of a crew -/

namespace Deed

def sparesChannel (d : Deed) : Bool :=
  !(d.fails .publish || d.fails .publishDelayed || d.fails .receive)

end Deed

namespace Crew

variable {c c' : Crew σ} {d : Deed} {topic : String} {key : TaskKey}

/-- Nothing gets in the way, and what the workers have in their hands is in order. -/
structure IsSound (c : Crew σ) : Prop where
  flows : c.site.Flows
  employs (j : Nat) (w : Worker) : c.workers[j]? = some w → c.site.employs w.post = true
  hands (j : Nat) (w : Worker) : c.workers[j]? = some w → w.hands.IsSound w.post

theorem employs_of_perform? (h : c.perform? d = some c') (p : Post) :
    c'.site.employs p = c.site.employs p := by
  rw [Site.employs, Site.employs, roles_of_perform? h]

theorem flows_of_perform? (h : c.perform? d = some c') (hd : d.sparesChannel = true)
    (hflows : c.site.Flows) : c'.site.Flows := by
  rw [Deed.sparesChannel, Bool.not_eq_true', Bool.or_eq_false_iff, Bool.or_eq_false_iff] at hd
  obtain ⟨⟨hpublish, hdelayed⟩, hreceive⟩ := hd
  refine ⟨⟨?_, ?_⟩, ?_, ?_⟩
  · exact faults_of_perform? h hflows.canPublish.1 hpublish
  · exact faults_of_perform? h hflows.canPublish.2 hdelayed
  · exact faults_of_perform? h hflows.canReceive hreceive
  · rw [roles_of_perform? h]
    exact hflows.answers

theorem isSound_of_perform? (h : c.perform? d = some c') (hd : d.sparesChannel = true)
    (hsound : c.IsSound) : c'.IsSound := by
  refine ⟨flows_of_perform? h hd hsound.flows, fun j w' hw' => ?_, fun j w' hw' => ?_⟩
  · rw [employs_of_perform? h]
    rcases origin_of_worker h hw' with ⟨w, hw, ⟨-, hmove⟩ | ⟨-, rfl | rfl⟩⟩ | ⟨rfl, -⟩
    · rw [(Worker.turn hmove).1]
      exact hsound.employs j w hw
    · exact hsound.employs j w' hw
    · rw [Worker.post_tellToStop]
      exact hsound.employs j w hw
    · exact (perform?_join h).2.2
  · rcases origin_of_worker h hw' with ⟨w, hw, ⟨-, hmove⟩ | ⟨-, rfl | rfl⟩⟩ | ⟨rfl, -⟩
    · obtain ⟨hpost, -, hturn⟩ := Worker.turn hmove
      rw [hpost]
      exact hturn.isSound hsound.flows (hsound.employs j w hw) (hsound.hands j w hw)
    · exact hsound.hands j w' hw
    · rw [Worker.hands_tellToStop, Worker.post_tellToStop]
      exact hsound.hands j w hw
    · rw [Worker.hands_eq_nothing_of_isNew (perform?_join h).2.1]
      trivial

/-- A unit of work is on a topic, or in the hands of a worker who consumes it. -/
def Has (c : Crew σ) (topic : String) (key : TaskKey) : Prop :=
  c.site.channel.Offers topic key ∨ ∃ j w, c.Consumes topic j w ∧ key ∈ w.hands.keys

/-- A deed settles a unit of work. -/
def Settles (c : Crew σ) (topic : String) (d : Deed) (key : TaskKey) : Prop :=
  ∃ j w dispatch, d = .move j ∧ c.Consumes topic j w ∧ w.hands = .working dispatch ∧
    dispatch.ends ≤ c.site.now ∧ dispatch.Settles key

/-- A deed brings a unit of work onto a topic: a trigger, somebody who publishes, or the end of a
call. -/
def Entrusts (c : Crew σ) (topic : String) (key : TaskKey) : Deed → Prop
  | .errand (.trigger engine tasks _) =>
    ∃ e, c.site.engines[engine]? = some e ∧ e.pipeline.topic = topic ∧ key ∈ tasks.keys
  | .errand (.publish topic' m _) => topic' = topic ∧ key ∈ m.keys
  | .move j =>
    ∃ w dispatch, c.Consumes topic j w ∧ w.hands = .working dispatch ∧
      dispatch.ends ≤ c.site.now ∧ dispatch.Entrusts key
  | .errand (.lease _ _ _) | .errand (.fail _ _) | .pass _ | .join _ | .tellToStop _ => False

/-- Only a deed that settles a unit of work makes it disappear. -/
theorem has_of_perform? (h : c.perform? d = some c') (hsound : c.IsSound) (hhas : c.Has topic key) :
    c'.Has topic key ∨ c.Settles topic d key := by
  cases d with
  | move i =>
    obtain ⟨w, w', hw, hmove, hworkers⟩ := perform?_move h
    obtain ⟨hpost, -, hturn⟩ := Worker.turn hmove
    have hemploys := hsound.employs i w hw
    have hhands := hsound.hands i w hw
    obtain ⟨hilt, -⟩ := List.getElem?_eq_some_iff.1 hw
    have hw' : c'.workers[i]? = some w' := by
      rw [hworkers, List.getElem?_set_self hilt]
    rcases hhas with hoffers | ⟨j, v, hv, hkey⟩
    · rcases hturn.offers hsound.flows hemploys hhands hoffers with hoffers' | ⟨htopic, hkey⟩
      · exact .inl (.inl hoffers')
      · exact .inl (.inr ⟨i, w', ⟨hw', hpost ▸ htopic.symm⟩, hkey⟩)
    · -- the key is in somebody's hands: those of the worker who moves, or of another one
      by_cases hij : i = j
      · subst hij
        cases hw.symm.trans hv.1
        rcases hturn.keeps_key hsound.flows hemploys hhands hkey with
          hoffers | hkey' | ⟨dispatch, hdispatch, hends, hsettles⟩
        · exact .inl (.inl (hv.2 ▸ hoffers))
        · exact .inl (.inr ⟨i, w', ⟨hw', hpost ▸ hv.2⟩, hkey'⟩)
        · exact .inr ⟨i, w, dispatch, rfl, hv, hdispatch, hends, hsettles⟩
      · refine .inl (.inr ⟨j, v, ⟨?_, hv.2⟩, hkey⟩)
        rw [hworkers, List.getElem?_set_ne hij]
        exact hv.1
  | errand e =>
    cases h
    exact .inl (hhas.imp_left (e.offers_perform hsound.flows.canPublish))
  | pass instant =>
    obtain ⟨rfl, -⟩ := perform?_pass h
    exact .inl hhas
  | join w =>
    obtain ⟨rfl, -⟩ := perform?_join h
    refine .inl (hhas.imp_right ?_)
    rintro ⟨j, v, hv, hkey⟩
    obtain ⟨hlt, -⟩ := List.getElem?_eq_some_iff.1 hv.1
    exact ⟨j, v, ⟨by rw [List.getElem?_append_left hlt, hv.1], hv.2⟩, hkey⟩
  | tellToStop i =>
    cases h
    refine .inl (hhas.imp_right ?_)
    rintro ⟨j, v, hv, hkey⟩
    by_cases hij : i = j
    · refine ⟨j, v.tellToStop, ⟨by simp [hij, hv.1], ?_⟩, ?_⟩
      · rw [v.post_tellToStop]
        exact hv.2
      · rw [v.hands_tellToStop]
        exact hkey
    · exact ⟨j, v, ⟨by simp [hij, hv.1], hv.2⟩, hkey⟩

/-- What a deed brings onto a topic is there afterwards. -/
theorem has_of_entrusts (h : c.perform? d = some c') (hsound : c.IsSound)
    (hentrusts : c.Entrusts topic key d) : c'.Has topic key := by
  have hcan := hsound.flows.canPublish
  cases d with
  | move j =>
    obtain ⟨w, dispatch, hw, hhands, hends, hentrusts⟩ := hentrusts
    obtain ⟨v, v', hv, hmove, hworkers⟩ := perform?_move h
    cases hv.symm.trans hw.1
    obtain ⟨-, -, hturn⟩ := Worker.turn hmove
    have hsoundHands := hsound.hands j w hw.1
    rw [hhands] at hturn hsoundHands
    obtain ⟨-, -, htopic, -⟩ := hsoundHands
    obtain ⟨c, m, delay, hc, hrequeue, hkey⟩ := hentrusts.exists_requeue
    have hoffers := Site.offers_of_requeue hcan hc hrequeue hkey
    rw [htopic, hw.2] at hoffers
    generalize v'.hands = after at hturn
    -- a worker whose call is over can only end it
    cases hturn with
    | stay hquiet hbusy => exact absurd hends (Nat.not_le.2 (hbusy dispatch rfl))
    | finish hends hend hquiet hfresh =>
      rw [hend] at hoffers
      exact .inl (hquiet.channel_eq ▸ hoffers)
  | errand e =>
    cases h
    cases e with
    | trigger engine tasks attributes =>
      obtain ⟨e, he, rfl, hkey⟩ := hentrusts
      refine .inl ?_
      show (Errand.perform (.trigger engine tasks attributes) c.site).2.channel.Offers _ key
      rw [Errand.perform, he]
      show (c.site.trigger e.pipeline tasks attributes).2.channel.Offers _ key
      rw [Site.channel_trigger hcan]
      exact Channel.offers_publish_self (Message.mem_keys_encode.2 hkey) _ _ _
    | publish topic' m delay =>
      obtain ⟨rfl, hkey⟩ := hentrusts
      refine .inl ?_
      show (c.site.publish topic' m delay).2.channel.Offers topic' key
      rw [Site.channel_publish hcan]
      exact Channel.offers_publish_self hkey _ _ _
    | lease call queue holder => cases hentrusts
    | fail o n => cases hentrusts
  | pass instant => cases hentrusts
  | join w => cases hentrusts
  | tellToStop i => cases hentrusts

theorem isSound_of_flows {site : Site σ} (h : site.Flows) : ({ site } : Crew σ).IsSound := by
  refine ⟨h, fun j w hw => ?_, fun j w hw => ?_⟩
  · simp at hw
  · simp at hw

theorem isSound_of_replay? {deeds : List Deed} (h : c.replay? deeds = some c')
    (hdeeds : ∀ d ∈ deeds, d.sparesChannel = true) (hsound : c.IsSound) : c'.IsSound :=
  replay?_induction (P := IsSound) h
    (fun _ d _ hd hperform _ => isSound_of_perform? hperform (hdeeds d hd)) hsound

theorem has_of_replay? {deeds : List Deed} (h : c.replay? deeds = some c')
    (hdeeds : ∀ d ∈ deeds, d.sparesChannel = true) (hsound : c.IsSound) (hhas : c.Has topic key) :
    c'.Has topic key ∨ ∃ before d after mid, deeds = before ++ d :: after ∧
      c.replay? before = some mid ∧ mid.Settles topic d key := by
  induction deeds generalizing c with
  | nil =>
    cases h
    exact .inl hhas
  | cons d deeds ih =>
    obtain ⟨next, hnext, hrest⟩ := Option.bind_eq_some_iff.1 h
    rcases has_of_perform? hnext hsound hhas with hhas' | hsettles
    · have hsound' := isSound_of_perform? hnext (hdeeds d List.mem_cons_self) hsound
      rcases ih hrest (fun d' hd' => hdeeds d' (List.mem_cons_of_mem _ hd')) hsound' hhas' with
        hfinal | ⟨before, d', after, mid, hsplit, hmid, hsettles⟩
      · exact .inl hfinal
      · refine .inr ⟨d :: before, d', after, mid, by rw [hsplit]; rfl, ?_, hsettles⟩
        rw [replay?, hnext]
        exact hmid
    · exact .inr ⟨[], d, deeds, c, rfl, rfl, hsettles⟩

/-- **No unit of work is lost.**  Whatever has come onto a topic is there or in the hands of a
worker ever after, unless it has been settled since; and a task that is put back is never refused. -/
theorem nothing_lost {site : Site σ} {c₁ c₂ c₃ : Crew σ} {before after : List Deed}
    (hflows : site.Flows) (hbefore : ({ site } : Crew σ).replay? before = some c₁)
    (hd : c₁.perform? d = some c₂) (hafter : c₂.replay? after = some c₃)
    (hdeeds : ∀ d' ∈ before ++ d :: after, d'.sparesChannel = true)
    (hentrusts : c₁.Entrusts topic key d) :
    (c₃.Has topic key ∨ ∃ earlier d' later mid, after = earlier ++ d' :: later ∧
      c₂.replay? earlier = some mid ∧ mid.Settles topic d' key) ∧
    ∀ (j : Nat) (w : Worker) (dispatch : Site.Dispatch), c₃.workers[j]? = some w →
      w.hands = .working dispatch → ∀ loopCounter,
        dispatch.rest.add ((dispatch.context.editAll dispatch.attempt.edits).retryTask
          loopCounter) =
        ⟨dispatch.rest.tasks ++
          [(dispatch.context.editAll dispatch.attempt.edits).retryTask loopCounter]⟩ := by
  have hopen := isSound_of_flows hflows
  have hsound₁ := isSound_of_replay? hbefore
    (fun d' hd' => hdeeds d' (List.mem_append_left _ hd')) hopen
  have hsound₂ := isSound_of_perform? hd
    (hdeeds d (List.mem_append_right _ List.mem_cons_self)) hsound₁
  have hdeeds' : ∀ d' ∈ after, d'.sparesChannel = true := fun d' hd' =>
    hdeeds d' (List.mem_append_right _ (List.mem_cons_of_mem _ hd'))
  refine ⟨has_of_replay? hafter hdeeds' hsound₂ (has_of_entrusts hd hsound₁ hentrusts), ?_⟩
  intro j w dispatch hw hhands loopCounter
  have hhandsSound := (isSound_of_replay? hafter hdeeds' hsound₂).hands j w hw
  rw [hhands] at hhandsSound
  exact Site.Dispatch.add_retryTask hhandsSound.1 loopCounter

theorem flows_sample (ttl : Nat) {attempt : Attempt} (h : attempt.reply ≠ .panic) :
    (Sample.site ttl attempt).Flows := by
  refine ⟨⟨rfl, rfl⟩, rfl, fun role hrole context state => ?_⟩
  rw [Sample.site, Site.roles, List.map_singleton, List.mem_singleton] at hrole
  rw [hrole]
  exact h

/-- A site whose step wants to see its task again. -/
def reschedulingSite : Site Unit :=
  Sample.site 10 { duration := 5, reply := .outcome .reschedule }

/-- A server takes a message, works on it, and puts its task back. -/
def reschedulingShift : List Deed :=
  [.move 0, .move 0, .pass 2, .move 0, .pass 6, .move 0, .pass 7, .move 0]

theorem nothing_lost_reschedulingShift :
    ∃ c₁ c₂ c₃ : Crew Unit,
      ({ site := reschedulingSite } : Crew Unit).replay?
        [.join (Sample.server "a" { window := 2 })] = some c₁ ∧
      c₁.perform? (.errand (.publish "t" Sample.message none)) = some c₂ ∧
      c₂.replay? reschedulingShift = some c₃ ∧
      (c₃.Has "t" ⟨"load", "d"⟩ ∨ ∃ earlier d' later mid,
        reschedulingShift = earlier ++ d' :: later ∧ c₂.replay? earlier = some mid ∧
          mid.Settles "t" d' ⟨"load", "d"⟩) := by
  have hflows : reschedulingSite.Flows := flows_sample 10 nofun
  have hbefore : (({ site := reschedulingSite } : Crew Unit).replay?
      [.join (Sample.server "a" { window := 2 })]).isSome = true := by decide +kernel
  have hd : ((Option.get _ hbefore).perform?
      (.errand (.publish "t" Sample.message none))).isSome = true := rfl
  have hafter : ((Option.get _ hd).replay? reschedulingShift).isSome = true := by
    decide +kernel +revert
  have hentrusts : ((({ site := reschedulingSite } : Crew Unit).replay?
      [.join (Sample.server "a" { window := 2 })]).get hbefore).Entrusts "t" ⟨"load", "d"⟩
        (.errand (.publish "t" Sample.message none)) := ⟨rfl, by decide +kernel⟩
  have hlost := nothing_lost hflows (Option.some_get hbefore).symm (Option.some_get hd).symm
    (Option.some_get hafter).symm (by decide +kernel) hentrusts
  exact ⟨_, _, _, (Option.some_get hbefore).symm, (Option.some_get hd).symm,
    (Option.some_get hafter).symm, hlost.1⟩

end Crew

end TaskRelay
