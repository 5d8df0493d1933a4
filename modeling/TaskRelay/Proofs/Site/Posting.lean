import TaskRelay.Proofs.Collection
import TaskRelay.Proofs.Engine.Iteration
import TaskRelay.Worker.Basic

/-!
# What comes onto a topic

A message comes onto a topic by being published, and every message that is published is counted:
`Channel.Gains` ties the two together, and triggers and iterations have it whether or not their
calls fail.  A receive takes a message off its topic and counts nothing.

What an iteration publishes is due after the delay that its continuation names
(`Site.onTopic_of_endIteration`), and no delay is longer than the one of the retry policy
(`RetryPolicy.longestDelay`).
-/

namespace TaskRelay

variable {σ : Type}

namespace Channel

/-- A topic has got new messages, each of which has been counted as published. -/
def Gains (topic : String) (c c' : Channel) : Prop :=
  ∃ new, c'.onTopic topic = c.onTopic topic ++ new ∧
    c'.published topic = c.published topic + new.length

variable {c c' c'' : Channel} {topic : String}

theorem Gains.refl (topic : String) (c : Channel) : c.Gains topic c :=
  ⟨[], (List.append_nil _).symm, rfl⟩

theorem Gains.trans (h₁ : c.Gains topic c') (h₂ : c'.Gains topic c'') : c.Gains topic c'' := by
  obtain ⟨new₁, honTopic₁, hpublished₁⟩ := h₁
  obtain ⟨new₂, honTopic₂, hpublished₂⟩ := h₂
  refine ⟨new₁ ++ new₂, ?_, ?_⟩
  · rw [honTopic₂, honTopic₁, List.append_assoc]
  · rw [hpublished₂, hpublished₁, List.length_append, Nat.add_assoc]

/-- Where nothing has been counted as published, the messages are those of before. -/
theorem Gains.onTopic_eq (h : c.Gains topic c') (hpublished : c'.published topic = c.published topic) :
    c'.onTopic topic = c.onTopic topic := by
  obtain ⟨new, honTopic, hcount⟩ := h
  have hnew : new = [] := List.eq_nil_of_length_eq_zero (by omega)
  rw [honTopic, hnew, List.append_nil]

theorem onTopic_publish (c : Channel) (other topic : String) (m : Message) (due : Nat) :
    (c.publish other m due).onTopic topic =
      c.onTopic topic ++ if other = topic then [{ topic := other, message := m, due }] else [] := by
  by_cases h : other = topic <;> simp [onTopic, publish, h]

theorem gains_publish (c : Channel) (other topic : String) (m : Message) (due : Nat) :
    c.Gains topic (c.publish other m due) := by
  refine ⟨_, onTopic_publish c other topic m due, ?_⟩
  rw [published, publish, published, List.count_cons]
  by_cases h : other = topic <;> simp [h]

theorem published_of_take? {now : Nat} {m : Message} {other : String}
    (h : c.take? other now = some (m, c')) (topic : String) :
    c'.published topic = c.published topic := by
  obtain ⟨before, held, after, -, -, -, -, rfl⟩ := take?_eq_some h
  rfl

/-- A receive leaves what it does not take. -/
theorem sublist_of_take? {now : Nat} {m : Message} {other : String}
    (h : c.take? other now = some (m, c')) (topic : String) :
    (c'.onTopic topic).Sublist (c.onTopic topic) := by
  obtain ⟨before, held, after, hsplit, -, -, -, rfl⟩ := take?_eq_some h
  rw [onTopic, onTopic, hsplit]
  exact ((List.sublist_cons_self held after).append_left before).filter _

theorem length_of_take? {now : Nat} {m : Message} (h : c.take? topic now = some (m, c')) :
    (c.onTopic topic).length = (c'.onTopic topic).length + 1 := by
  obtain ⟨before, held, after, hsplit, -, hdeliverable, -, rfl⟩ := take?_eq_some h
  have htopic : (held.topic == topic) = true :=
    beq_iff_eq.2 (Held.isDeliverable_iff.1 hdeliverable).1
  simp only [onTopic, hsplit, List.filter_append, List.filter_cons, htopic, if_true,
    List.length_append, List.length_cons, Nat.add_assoc]

end Channel

namespace Collection

variable {c : Collection} {settings : CollectionSettings} {topic : String} {now : Nat}
  {channel : Channel}

/-- A receive takes a message off its topic, or it leaves the channel as it is. -/
theorem channel_of_poll (c : Collection) (settings : CollectionSettings) (topic : String) (now : Nat)
    (channel : Channel) :
    (∃ m, channel.take? topic now = some (m, (c.poll settings topic now channel).2)) ∨
      (c.poll settings topic now channel).2 = channel := by
  rw [poll]
  cases channel.take? topic now with
  | none => exact .inr rfl
  | some taken => exact .inl ⟨taken.1, rfl⟩

section Polled

variable {progress : Progress} {after : Channel} {other : String}

theorem sublist_of_poll (h : c.poll settings other now channel = (progress, after))
    (topic : String) : (after.onTopic topic).Sublist (channel.onTopic topic) := by
  have hchannel := c.channel_of_poll settings other now channel
  rw [h] at hchannel
  rcases hchannel with ⟨m, htake⟩ | rfl
  · exact Channel.sublist_of_take? htake topic
  · exact List.Sublist.refl _

theorem published_of_poll (h : c.poll settings other now channel = (progress, after))
    (topic : String) : after.published topic = channel.published topic := by
  have hchannel := c.channel_of_poll settings other now channel
  rw [h] at hchannel
  rcases hchannel with ⟨m, htake⟩ | rfl
  · exact Channel.published_of_take? htake topic
  · rfl

end Polled

end Collection

/-! ## How long a task is held back -/

namespace RetryPolicy

/-- How long a task may be held back: where it is never put back, not at all. -/
def longestDelay (p : RetryPolicy) : Nat :=
  if p.maxRetries = 0 then 0 else p.delay

theorem delay_of_decide {p : RetryPolicy} {outcome : Outcome} {loopCounter next : UInt32}
    {delay : Nat} (h : p.decide outcome loopCounter = .retry next delay) :
    delay = p.longestDelay := by
  cases outcome with
  | done => cases h
  | reschedule =>
    obtain ⟨hexhausted, -, rfl⟩ := decide_reschedule_eq_retry_iff.1 h
    have hretries : p.maxRetries ≠ 0 := by
      intro hzero
      rw [isExhausted_succCounter_iff.2] at hexhausted
      · cases hexhausted
      · rw [hzero, UInt32.toNat_zero]
        omega
    rw [longestDelay, if_neg hretries]

end RetryPolicy

namespace Pipeline

variable {p : Pipeline} {rest : TaskList} {context : Context}

theorem delayAfter_le (p : Pipeline) (context : Context) (outcome : Outcome) :
    p.delayAfter context outcome ≤ p.retry.longestDelay := by
  rw [delayAfter]
  split
  · next next delay hdecide => exact Nat.le_of_eq (RetryPolicy.delay_of_decide hdecide)
  · exact Nat.zero_le _
  · exact Nat.zero_le _

/-- What a run goes on with is published, after the delay that the continuation names. -/
theorem requeue_of_conclude? {reply : Reply} {c : Conclusion}
    (h : p.conclude? rest context reply = some c) :
    c.requeue = none ∨ ∃ m remaining delay, c.requeue = some (m, delay) ∧
      c.continuation = .requeued remaining delay ∧ delay ≤ p.retry.longestDelay := by
  cases reply with
  | panic => cases h
  | error e =>
    cases h
    exact .inl rfl
  | outcome outcome =>
    cases h
    rw [concludeOutcome_eq]
    by_cases hempty : (p.tasksAfter rest context outcome).tasks = []
    · rw [advance_of_eq_empty hempty]
      exact .inl rfl
    · rw [advance_of_ne_empty hempty]
      exact .inr ⟨_, _, _, rfl, rfl, delayAfter_le p context outcome⟩

end Pipeline

/-! ## Calls of a site -/

namespace Site

variable {s t : Site σ}

theorem publish_cases (s : Site σ) (topic : String) (m : Message) (delay : Option Nat) :
    ((s.publish topic m delay).1 = .ok () ∧ (s.publish topic m delay).2.channel =
        s.channel.publish topic m (s.now + delay.getD 0)) ∨
      ((∃ e, (s.publish topic m delay).1 = .error e) ∧
        (s.publish topic m delay).2.channel = s.channel) := by
  by_cases hfault : s.faults (publishing delay) = 0
  · rw [publish_eq s topic m delay hfault]
    exact .inl ⟨rfl, rfl⟩
  · obtain ⟨count, hcount⟩ := Nat.exists_eq_succ_of_ne_zero hfault
    refine .inr ?_
    cases delay with
    | none =>
      have hcall : s.call .publish = (true, s.failNext .publish count) := by
        rw [call, show s.faults .publish = count + 1 from hcount]
      rw [publish, hcall]
      exact ⟨⟨_, rfl⟩, rfl⟩
    | some delay =>
      have hcall : s.call .publishDelayed = (true, s.failNext .publishDelayed count) := by
        rw [call, show s.faults .publishDelayed = count + 1 from hcount]
      rw [publish, hcall]
      exact ⟨⟨_, rfl⟩, rfl⟩

theorem gains_publish (s : Site σ) (other : String) (m : Message) (delay : Option Nat)
    (topic : String) : s.channel.Gains topic (s.publish other m delay).2.channel := by
  rcases s.publish_cases other m delay with ⟨-, hchannel⟩ | ⟨-, hchannel⟩
  · rw [hchannel]
    exact Channel.gains_publish _ _ _ _ _
  · rw [hchannel]
    exact .refl topic s.channel

theorem gains_trigger (s : Site σ) (p : Pipeline) (tasks : TaskList) (attributes : Headers)
    (topic : String) : s.channel.Gains topic (s.trigger p tasks attributes).2.channel := by
  have hid := channel_idFor s (attributes.get? correlationHeader)
  rw [trigger]
  generalize s.idFor (attributes.get? correlationHeader) = given at hid ⊢
  obtain ⟨id, given⟩ := given
  have hgains := gains_publish given p.topic
    { attributes := attributes.insert correlationHeader id, payload := tasks.encode } none topic
  simp only
  rw [← hid]
  generalize given.publish p.topic
    { attributes := attributes.insert correlationHeader id, payload := tasks.encode } none =
      published at hgains ⊢
  obtain ⟨_ | _, t⟩ := published
  · exact hgains
  · simp only [channel_report]
    exact hgains

/-- A conclusion is carried out, and the channel is as it says, or what is to be published could
not be. -/
theorem carryOut_cases (s : Site σ) (engine : Nat) (p : Pipeline) (id : String) (c : Conclusion) :
    ((s.carryOut engine p id c).1 = .ok c.continuation ∧
        (s.carryOut engine p id c).2.channel =
          match c.requeue with
          | none => s.channel
          | some (m, delay) => s.channel.publish p.topic m (s.now + delay)) ∨
      ((∃ e, (s.carryOut engine p id c).1 = .error e) ∧
        (s.carryOut engine p id c).2.channel = s.channel) := by
  have hchannel := channel_reportAll s id p.domain c.notices
  have hnow := (keeps_reportAll s id p.domain c.notices).now_eq
  rw [carryOut]
  generalize s.reportAll id p.domain c.notices = reported at hchannel hnow ⊢
  cases c.requeue with
  | none => exact .inl ⟨rfl, hchannel⟩
  | some requeue =>
    obtain ⟨m, delay⟩ := requeue
    have hdelay : (if delay = 0 then none else some delay).getD 0 = delay := by
      split
      · next h => exact h.symm
      · rfl
    have hcases := reported.publish_cases p.topic m (if delay = 0 then none else some delay)
    rw [hdelay, hchannel, hnow] at hcases
    simp only
    generalize reported.publish p.topic m (if delay = 0 then none else some delay) = published
      at hcases ⊢
    rcases hcases with ⟨hok, hafter⟩ | ⟨⟨e, herror⟩, hafter⟩
    · obtain ⟨_, t⟩ := published
      cases hok
      exact .inl ⟨rfl, hafter⟩
    · obtain ⟨_, t⟩ := published
      cases herror
      exact .inr ⟨⟨e, rfl⟩, hafter⟩

theorem gains_carryOut (s : Site σ) (engine : Nat) (p : Pipeline) (id : String) (c : Conclusion)
    (topic : String) : s.channel.Gains topic (s.carryOut engine p id c).2.channel := by
  rcases s.carryOut_cases engine p id c with ⟨-, hchannel⟩ | ⟨-, hchannel⟩
  · rw [hchannel]
    cases c.requeue with
    | none => exact .refl topic s.channel
    | some requeue => exact Channel.gains_publish _ _ _ _ _
  · rw [hchannel]
    exact .refl topic s.channel

theorem gains_beginIteration (s : Site σ) (i : Nat) (e : Engine σ) (b : Batch) (topic : String) :
    s.channel.Gains topic (s.beginIteration i e b).2.channel := by
  rw [beginIteration_eq, ← channel_idFor s (b.correlationOf? e.pipeline.order)]
  split
  · exact gains_carryOut _ _ _ _ _ topic
  · rw [channel_calling]
    exact .refl topic _

theorem gains_endIteration (s : Site σ) (d : Dispatch) (topic : String) :
    s.channel.Gains topic (s.endIteration d).2.channel := by
  rw [endIteration_eq, ← channel_noted s d]
  split
  · exact .refl topic _
  · exact gains_carryOut _ _ _ _ _ topic

/-- With the end of a call a message may come onto a topic, due after the delay that the continuation
names. -/
theorem onTopic_of_endIteration {d : Dispatch} {c : Continuation}
    (h : s.endIteration d = (some (.ok c), t)) (topic : String) :
    t.channel.onTopic topic = s.channel.onTopic topic ∨
      ∃ m remaining delay, c = .requeued remaining delay ∧
        delay ≤ d.pipeline.retry.longestDelay ∧ t.channel.onTopic topic =
          s.channel.onTopic topic ++ [{ topic, message := m, due := s.now + delay }] := by
  rw [endIteration_eq] at h
  split at h
  · cases h
  · next conclusion hconclude =>
    obtain ⟨hresult, rfl⟩ := Prod.mk.inj h
    have hresult := Option.some.inj hresult
    rcases (s.noted d).carryOut_cases d.engine d.pipeline d.context.correlationId conclusion with
      ⟨hok, hchannel⟩ | ⟨⟨e, herror⟩, -⟩
    · cases hok.symm.trans hresult
      rw [hchannel, channel_noted, (keeps_noted s d).now_eq]
      rcases Pipeline.requeue_of_conclude? hconclude with
        hnone | ⟨m, remaining, delay, hsome, hcontinuation, hdelay⟩
      · rw [hnone]
        exact .inl rfl
      · rw [hsome]
        by_cases htopic : d.pipeline.topic = topic
        · refine .inr ⟨m, remaining, delay, hcontinuation, hdelay, ?_⟩
          rw [Channel.onTopic_publish, if_pos htopic, htopic]
        · refine .inl ?_
          rw [Channel.onTopic_publish, if_neg htopic, List.append_nil]
    · cases herror.symm.trans hresult

end Site

/-! ## Work on a batch -/

namespace Post

variable {p : Post} {b : Batch} {s t : Site σ}

theorem gains_work (p : Post) (b : Batch) (s : Site σ) (topic : String) :
    s.channel.Gains topic (p.work b s).2.channel := by
  rw [work]
  split
  · exact .refl topic _
  · split
    · exact .refl topic _
    · next e he =>
      have hgains := s.gains_beginIteration p.engine e b topic
      split
      · next d t heq => rw [heq] at hgains; exact hgains
      · next result t heq => rw [heq] at hgains; exact hgains

/-- A step is called by the engine of the post, and nothing is published before it has replied. -/
theorem pipeline_of_work {d : Site.Dispatch} (h : p.work b s = (.dispatched d, t)) :
    t.channel = s.channel ∧ ∃ service, s.roles[p.engine]? = some (d.pipeline, service) := by
  rw [work] at h
  split at h
  · cases h
  · split at h
    · cases h
    · next e he =>
      have hrole : s.roles[p.engine]? = some (e.pipeline, e.service) := by
        rw [Site.roles, List.getElem?_map, he]
        rfl
      rw [Site.beginIteration_eq] at h
      split at h
      · next d' u heq =>
        cases h
        split at heq
        · cases heq
        · cases heq
          rw [Site.channel_calling, Site.channel_idFor]
          exact ⟨rfl, e.service, hrole⟩
      · cases h

/-- Work that has ended at once has found no task, and publishes nothing. -/
theorem channel_of_work_ended {result : Except ChannelError (Option Continuation)}
    (h : p.work b s = (.ended result, t)) : t.channel = s.channel := by
  rw [work] at h
  split at h
  · cases h
    rfl
  · split at h
    · cases h
      rfl
    · next e he =>
      rw [Site.beginIteration_eq] at h
      split at h
      · cases h
      · next result' u heq =>
        cases h
        split at heq
        · next hchoose =>
          cases heq
          have hempty : b.tasks.tasks = [] := by
            rw [Pipeline.choose] at hchoose
            split at hchoose
            · next hpop => exact TaskList.popNext?_eq_none_iff.1 hpop
            · cases hchoose
          rw [Pipeline.advance_of_eq_empty hempty]
          have hcases := Site.carryOut_cases (s.idFor (b.correlationOf? e.pipeline.order)).2
            p.engine e.pipeline (s.idFor (b.correlationOf? e.pipeline.order)).1
            { notices := [{ action := e.pipeline.action, state := .ok }], continuation := .complete }
          rw [Site.channel_idFor] at hcases
          rcases hcases with ⟨-, hchannel⟩ | ⟨-, hchannel⟩
          · exact hchannel
          · exact hchannel
        · cases heq

end Post

end TaskRelay
