import TaskRelay.Proofs.Crew.Lapse
import TaskRelay.Proofs.Site.Posting

/-!
# What a drain leaves behind

A drain stops when no message has come in the time for which it waits, and that time follows from
its last continuation alone.  If it has a batch in its hands while the messages on its topic are all
due within an idle poll (`Drain.CanWait`), the collection after the batch finds them all
(`Drain.Step.foresees`), and in the end the topic is empty.  So it is where no task is held back for
longer than an idle poll (`Drain.Lags`), and where there is never more than one message
(`Drain.IsSole`).
-/

namespace TaskRelay

variable {σ : Type}

namespace Drain

variable {v w : Drain} {s t : Site σ} {result : Except ChannelError (Option Continuation)}

/-! ## Waiting for what is held back -/

/-- While a drain waits for the first message of a batch, everything on its topic will be due by
then; when it has ended well there is nothing. -/
def Foresees (v : Drain) (s : Site σ) : Prop :=
  match v.stage with
  | .ready => ∀ h ∈ s.channel.onTopic v.post.topic, h.due ≤ s.now
  | .collecting c _ => c.batch = none → ∀ h ∈ s.channel.onTopic v.post.topic, h.due ≤ c.deadline
  | .ended (.ok _) => s.channel.onTopic v.post.topic = []
  | .working _ _ _ | .ended (.error _) | .broken => True

/-- With a batch in its hands the drain could wait in an idle poll for what else is on its topic. -/
def CanWait (v : Drain) (s : Site σ) : Prop :=
  match v.stage with
  | .collecting c _ => ∀ b channel,
      c.poll v.post.settings v.post.topic s.now s.channel = (.closed (some b), channel) →
        ∀ h ∈ channel.onTopic v.post.topic, h.due ≤ s.now + v.post.settings.idlePoll
  | .working _ _ _ =>
    ∀ h ∈ s.channel.onTopic v.post.topic, h.due ≤ s.now + v.post.settings.idlePoll
  | .ready | .ended _ | .broken => True

theorem GoesOn.foresees (h : GoesOn v s result w t)
    (hdue : ∀ c, result = .ok c → ∀ held ∈ s.channel.onTopic v.post.topic,
      held.due ≤ s.now + v.waitAfter c) : w.Foresees t := by
  cases h with
  | giveUp report e faults => trivial
  | @collect c report faults => exact fun _ => hdue c rfl

theorem exists_of_map_eq_ok {result : Except ChannelError Continuation} {c : Option Continuation}
    (h : result.map some = .ok c) : ∃ continuation, result = .ok continuation ∧
      c = some continuation := by
  cases result with
  | error e => cases h
  | ok continuation => exact ⟨continuation, rfl, (Except.ok.inj h).symm⟩

/-- A collection that has found no message in its time leaves nothing on its topic that is due by
then. -/
theorem onTopic_eq_nil_of_stop {c : Collection} {ticker : Ticker} {channel : Channel}
    (hstage : v.stage = .collecting c ticker) (hforesees : v.Foresees s)
    (hpoll : c.poll v.post.settings v.post.topic s.now s.channel = (.closed none, channel)) :
    channel.onTopic v.post.topic = [] := by
  simp only [Foresees, hstage] at hforesees
  rcases Collection.poll_closed hpoll with ⟨m, -, hm⟩ | ⟨htake, rfl, hbatch, hover⟩
  · cases hm
  · refine List.eq_nil_iff_forall_not_mem.2 fun held hheld => ?_
    have hearly := hforesees hbatch.symm held hheld
    have hlate := Channel.lt_due_of_take?_eq_none htake hheld
    omega

theorem Step.foresees (h : Step v s w t) (hforesees : v.Foresees s) (hcan : v.CanWait s) :
    w.Foresees t := by
  cases h with
  | begin hstage hquiet hgoes =>
    simp only [Foresees, hstage] at hforesees
    refine hgoes.foresees fun c hc held hheld => ?_
    rw [hquiet.channel_eq] at hheld
    rw [hquiet.now_eq]
    exact Nat.le_trans (hforesees held hheld) (Nat.le_add_right _ _)
  | receive faults hstage hpoll =>
    -- there is a message in the batch, so nothing is asked of the deadline any more
    intro hnone
    obtain ⟨m, -, heq, -⟩ := Collection.poll_more hpoll
    rw [heq] at hnone
    cases hnone
  | tick hstage htick =>
    simp only [Foresees, hstage] at hforesees
    simp only [Foresees]
    rw [(Post.quiet_tick? htick).channel_eq]
    exact hforesees
  | @stop c ticker channel hstage hpoll =>
    have hempty := onTopic_eq_nil_of_stop hstage hforesees hpoll
    have hquiet := Site.quiet_release v.post { s with channel }
    cases ticker.holding with
    | false => trivial
    | true =>
      show ({ s with channel }.release v.post.topic v.post.holder).2.channel.onTopic v.post.topic = []
      rw [hquiet.channel_eq]
      exact hempty
  | @pass c ticker b channel result t u w hstage hpoll hwork hgoes =>
    simp only [CanWait, hstage] at hcan
    refine hgoes.foresees fun c' hc' held hheld => ?_
    rw [Post.channel_of_work_ended hwork] at hheld
    have hdue := hcan b channel hpoll held hheld
    have hwait := v.idlePoll_le_waitAfter c'
    have hnow : t.now = s.now := (Post.keeps_of_work hwork).now_eq
    omega
  | @finish d ticker held result t u w hstage hend hgoes =>
    simp only [CanWait, hstage] at hcan
    have hnow := (Site.keeps_of_endIteration hend).now_eq
    refine hgoes.foresees fun c' hc' other hother => ?_
    obtain ⟨c, rfl, rfl⟩ := exists_of_map_eq_ok hc'
    have hwait := v.idlePoll_le_waitAfter (some c)
    rcases Site.onTopic_of_endIteration hend v.post.topic with
      hsame | ⟨m, remaining, delay, rfl, -, hmore⟩
    · rw [hsame] at hother
      have hdue := hcan other hother
      omega
    · rw [hmore, List.mem_append, List.mem_singleton] at hother
      have hlonger : v.waitAfter (some (.requeued remaining delay)) =
        v.post.settings.idlePoll + delay := rfl
      rcases hother with hold | rfl
      · have hdue := hcan other hold
        omega
      · show s.now + delay ≤ t.now + v.waitAfter (some (.requeued remaining delay))
        omega
  | refuse | fail | start | tickAtWork | breakOff => trivial

/-! ## Short delays -/

/-- As long as the drain goes on, everything on its topic is due within a delay, and so will be what
it publishes. -/
def Lags (delay : Nat) (v : Drain) (s : Site σ) : Prop :=
  match v.stage with
  | .ready | .collecting _ _ => ∀ h ∈ s.channel.onTopic v.post.topic, h.due ≤ s.now + delay
  | .working d _ _ => d.pipeline.retry.longestDelay ≤ delay ∧
      ∀ h ∈ s.channel.onTopic v.post.topic, h.due ≤ s.now + delay
  | .ended _ | .broken => True

variable {delay : Nat}

theorem Lags.canWait (h : v.Lags delay s) (hdelay : delay ≤ v.post.settings.idlePoll) :
    v.CanWait s := by
  unfold Lags at h
  unfold CanWait
  split at h
  · next hstage => rw [hstage]; trivial
  · next c ticker hstage =>
    rw [hstage]
    intro b channel hpoll held hheld
    have hsub := Collection.sublist_of_poll hpoll v.post.topic
    exact Nat.le_trans (h held (hsub.mem hheld)) (Nat.add_le_add_left hdelay _)
  · next d ticker held hstage =>
    rw [hstage]
    exact fun other hother => Nat.le_trans (h.2 other hother) (Nat.add_le_add_left hdelay _)
  · next hstage => rw [hstage]; trivial
  · next hstage => rw [hstage]; trivial

theorem GoesOn.lags (h : GoesOn v s result w t)
    (hdue : ∀ c, result = .ok c → ∀ held ∈ s.channel.onTopic v.post.topic,
      held.due ≤ s.now + delay) : w.Lags delay t := by
  cases h with
  | giveUp report e faults => trivial
  | @collect c report faults => exact hdue c rfl

theorem Step.lags (h : Step v s w t) (hlags : v.Lags delay s)
    (hrole : ∀ role, s.roles[v.post.engine]? = some role → role.1.retry.longestDelay ≤ delay) :
    w.Lags delay t := by
  cases h with
  | begin hstage hquiet hgoes =>
    simp only [Lags, hstage] at hlags
    refine hgoes.lags fun c hc held hheld => ?_
    rw [hquiet.channel_eq] at hheld
    rw [hquiet.now_eq]
    exact hlags held hheld
  | @receive c next ticker channel faults hstage hpoll =>
    simp only [Lags, hstage] at hlags
    have hsub := Collection.sublist_of_poll hpoll v.post.topic
    exact fun held hheld => hlags held (hsub.mem hheld)
  | tick hstage htick =>
    simp only [Lags, hstage] at hlags
    simp only [Lags]
    rw [(Post.quiet_tick? htick).channel_eq, (Post.quiet_tick? htick).now_eq]
    exact hlags
  | @start c ticker ticker' b channel d held t hstage hpoll hwork =>
    simp only [Lags, hstage] at hlags
    have hsub := Collection.sublist_of_poll hpoll v.post.topic
    obtain ⟨hchannel, service, hengine⟩ := Post.pipeline_of_work hwork
    refine ⟨hrole _ hengine, fun other hother => ?_⟩
    rw [hchannel] at hother
    have hnow : t.now = s.now := (Post.keeps_of_work hwork).now_eq
    rw [hnow]
    exact hlags other (hsub.mem hother)
  | tickAtWork hstage htick =>
    simp only [Lags, hstage] at hlags
    simp only [Lags]
    rw [(Post.quiet_tick? htick).channel_eq, (Post.quiet_tick? htick).now_eq]
    exact hlags
  | @pass c ticker b channel result t u w hstage hpoll hwork hgoes =>
    simp only [Lags, hstage] at hlags
    have hsub := Collection.sublist_of_poll hpoll v.post.topic
    refine hgoes.lags fun c' hc' held hheld => ?_
    rw [Post.channel_of_work_ended hwork] at hheld
    have hnow : t.now = s.now := (Post.keeps_of_work hwork).now_eq
    rw [hnow]
    exact hlags held (hsub.mem hheld)
  | @finish d ticker held result t u w hstage hend hgoes =>
    simp only [Lags, hstage] at hlags
    have hnow := (Site.keeps_of_endIteration hend).now_eq
    refine hgoes.lags fun c' hc' other hother => ?_
    obtain ⟨c, rfl, -⟩ := exists_of_map_eq_ok hc'
    rw [hnow]
    rcases Site.onTopic_of_endIteration hend v.post.topic with
      hsame | ⟨m, remaining, later, rfl, hlater, hmore⟩
    · exact hlags.2 other (hsame ▸ hother)
    · rw [hmore, List.mem_append, List.mem_singleton] at hother
      rcases hother with hold | rfl
      · exact hlags.2 other hold
      · exact Nat.add_le_add_left (Nat.le_trans hlater hlags.1) _
  | refuse | fail | stop | breakOff => trivial

/-! ## One message at a time -/

/-- As long as the drain goes on, there is one message at most, on its topic or in its hands. -/
def IsSole (v : Drain) (s : Site σ) : Prop :=
  match v.stage with
  | .ready => (s.channel.onTopic v.post.topic).length ≤ 1
  | .collecting c _ =>
    (s.channel.onTopic v.post.topic).length + (if c.batch = none then 0 else 1) ≤ 1
  | .working _ _ _ => s.channel.onTopic v.post.topic = []
  | .ended _ | .broken => True

theorem onTopic_eq_nil_of_isSole {c : Collection} {ticker : Ticker} {b : Batch} {channel : Channel}
    (hstage : v.stage = .collecting c ticker) (hsole : v.IsSole s)
    (hpoll : c.poll v.post.settings v.post.topic s.now s.channel = (.closed (some b), channel)) :
    channel.onTopic v.post.topic = [] := by
  simp only [IsSole, hstage] at hsole
  refine List.eq_nil_of_length_eq_zero ?_
  rcases Collection.poll_closed hpoll with ⟨m, htake, -⟩ | ⟨-, rfl, hbatch, -⟩
  · have hlength := Channel.length_of_take? htake
    omega
  · rw [← hbatch, if_neg nofun] at hsole
    omega

theorem IsSole.canWait (h : v.IsSole s) : v.CanWait s := by
  unfold CanWait
  split
  · next c ticker hstage =>
    intro b channel hpoll held hheld
    rw [onTopic_eq_nil_of_isSole hstage h hpoll] at hheld
    cases hheld
  · next d ticker held hstage =>
    simp only [IsSole, hstage] at h
    rw [h]
    nofun
  all_goals trivial

theorem GoesOn.isSole (h : GoesOn v s result w t)
    (hlength : ∀ c, result = .ok c → (s.channel.onTopic v.post.topic).length ≤ 1) :
    w.IsSole t := by
  cases h with
  | giveUp report e faults => trivial
  | @collect c report faults => exact hlength c rfl

theorem Step.isSole (h : Step v s w t) (hsole : v.IsSole s) : w.IsSole t := by
  cases h with
  | begin hstage hquiet hgoes =>
    simp only [IsSole, hstage] at hsole
    refine hgoes.isSole fun c hc => ?_
    rw [hquiet.channel_eq]
    exact hsole
  | @receive c next ticker channel faults hstage hpoll =>
    simp only [IsSole, hstage] at hsole
    obtain ⟨m, htake, heq, -⟩ := Collection.poll_more hpoll
    have hlength := Channel.length_of_take? htake
    show (channel.onTopic v.post.topic).length + (if next.batch = none then 0 else 1) ≤ 1
    rw [heq, if_neg nofun]
    omega
  | tick hstage htick =>
    simp only [IsSole, hstage] at hsole
    simp only [IsSole]
    rw [(Post.quiet_tick? htick).channel_eq]
    exact hsole
  | start hstage hpoll hwork =>
    simp only [IsSole]
    rw [(Post.pipeline_of_work hwork).1]
    exact onTopic_eq_nil_of_isSole hstage hsole hpoll
  | tickAtWork hstage htick =>
    simp only [IsSole, hstage] at hsole
    simp only [IsSole]
    rw [(Post.quiet_tick? htick).channel_eq]
    exact hsole
  | @pass c ticker b channel result t u w hstage hpoll hwork hgoes =>
    refine hgoes.isSole fun c' hc' => ?_
    have hempty : t.channel.onTopic v.post.topic = [] := by
      rw [Post.channel_of_work_ended hwork]
      exact onTopic_eq_nil_of_isSole hstage hsole hpoll
    rw [hempty]
    exact Nat.zero_le _
  | @finish d ticker held result t u w hstage hend hgoes =>
    simp only [IsSole, hstage] at hsole
    refine hgoes.isSole fun c' hc' => ?_
    obtain ⟨c, rfl, -⟩ := exists_of_map_eq_ok hc'
    rcases Site.onTopic_of_endIteration hend v.post.topic with
      hsame | ⟨m, remaining, later, -, -, hmore⟩
    · rw [hsame, hsole]
      exact Nat.zero_le _
    · rw [hmore, hsole]
      exact Nat.le_refl _
  | refuse | fail | stop | breakOff => trivial

/-! ## What others do -/

/-- Others may take messages off the topic, and time may pass. -/
theorem Foresees.mono (h : v.Foresees s) (hnow : s.now ≤ t.now)
    (hsub : (t.channel.onTopic v.post.topic).Sublist (s.channel.onTopic v.post.topic)) :
    v.Foresees t := by
  unfold Foresees at h ⊢
  split at h
  · exact fun held hheld => Nat.le_trans (h held (hsub.mem hheld)) hnow
  · exact fun hnone held hheld => h hnone held (hsub.mem hheld)
  · rw [h] at hsub
    exact List.eq_nil_of_sublist_nil hsub
  all_goals trivial

theorem Lags.mono (h : v.Lags delay s) (hnow : s.now ≤ t.now)
    (hsub : (t.channel.onTopic v.post.topic).Sublist (s.channel.onTopic v.post.topic)) :
    v.Lags delay t := by
  have hlater := Nat.add_le_add_right hnow delay
  unfold Lags at h ⊢
  split at h
  · exact fun held hheld => Nat.le_trans (h held (hsub.mem hheld)) hlater
  · exact fun held hheld => Nat.le_trans (h held (hsub.mem hheld)) hlater
  · exact ⟨h.1, fun held hheld => Nat.le_trans (h.2 held (hsub.mem hheld)) hlater⟩
  all_goals trivial

theorem IsSole.mono (h : v.IsSole s)
    (hsub : (t.channel.onTopic v.post.topic).Sublist (s.channel.onTopic v.post.topic)) :
    v.IsSole t := by
  have hlength := hsub.length_le
  unfold IsSole at h ⊢
  split at h
  · omega
  · omega
  · rw [h] at hsub
    exact List.eq_nil_of_sublist_nil hsub
  all_goals trivial

end Drain

/-! ## Runs of a crew -/

namespace Turn

variable {p : Post} {s t : Site σ} {before after : Hands}

/-- A turn takes messages off a topic first and publishes afterwards. -/
theorem exists_channel (h : Turn p s before after t) (topic : String) :
    ∃ channel : Channel, (channel.onTopic topic).Sublist (s.channel.onTopic topic) ∧
      channel.published topic = s.channel.published topic ∧ channel.Gains topic t.channel := by
  have hpolled : ∀ {c : Collection} {progress : Collection.Progress} {channel : Channel},
      c.poll p.settings p.topic s.now s.channel = (progress, channel) →
        (channel.onTopic topic).Sublist (s.channel.onTopic topic) ∧
          channel.published topic = s.channel.published topic :=
    fun hpoll => ⟨Collection.sublist_of_poll hpoll topic, Collection.published_of_poll hpoll topic⟩
  cases h with
  | stay hquiet hbusy => exact ⟨_, .refl _, rfl, hquiet.channel_eq ▸ .refl topic _⟩
  | begin hquiet hfresh => exact ⟨_, .refl _, rfl, hquiet.channel_eq ▸ .refl topic _⟩
  | take hpoll hquiet =>
    exact ⟨_, (hpolled hpoll).1, (hpolled hpoll).2, hquiet.channel_eq ▸ .refl topic _⟩
  | drop hpoll hfault hquiet =>
    exact ⟨_, (hpolled hpoll).1, (hpolled hpoll).2, hquiet.channel_eq ▸ .refl topic _⟩
  | giveUp hpoll hquiet =>
    exact ⟨_, (hpolled hpoll).1, (hpolled hpoll).2, hquiet.channel_eq ▸ .refl topic _⟩
  | @start c b channel d t hpoll hwork =>
    have hgains := p.gains_work b { s with channel } topic
    rw [hwork] at hgains
    exact ⟨_, (hpolled hpoll).1, (hpolled hpoll).2, hgains⟩
  | @pass c b channel h t u result hpoll hwork hquiet hfresh =>
    have hgains := p.gains_work b { s with channel } topic
    rw [hwork] at hgains
    exact ⟨_, (hpolled hpoll).1, (hpolled hpoll).2, hquiet.channel_eq ▸ hgains⟩
  | @finish d h t u result hends hend hquiet hfresh =>
    have hgains := s.gains_endIteration d topic
    rw [hend] at hgains
    exact ⟨_, .refl _, rfl, hquiet.channel_eq ▸ hgains⟩

end Turn

theorem Errand.gains_perform (e : Errand) (s : Site σ) (topic : String) :
    s.channel.Gains topic (e.perform s).2.channel := by
  cases e with
  | trigger engine tasks attributes =>
    rw [perform]
    split
    · exact .refl topic _
    · exact s.gains_trigger _ tasks attributes topic
  | publish other m delay => exact s.gains_publish other m delay topic
  | lease call queue holder =>
    rw [(quiet_perform_lease call queue holder s).channel_eq]
    exact .refl topic _
  | fail o n => exact .refl topic _

namespace Crew

variable {c c' : Crew σ} {d : Deed} {j : Nat} {topic : String}

/-- Where nothing is published, messages are taken off a topic at most. -/
theorem sublist_of_perform? (h : c.perform? d = some c')
    (hpublished : c'.site.channel.published topic = c.site.channel.published topic) :
    (c'.site.channel.onTopic topic).Sublist (c.site.channel.onTopic topic) := by
  cases d with
  | move i =>
    obtain ⟨w, w', -, hmove, -⟩ := perform?_move h
    obtain ⟨-, -, hturn⟩ := Worker.turn hmove
    obtain ⟨channel, hsub, hcount, hgains⟩ := hturn.exists_channel topic
    rw [hgains.onTopic_eq (hpublished.trans hcount.symm)]
    exact hsub
  | errand e =>
    cases h
    have hsame := (e.gains_perform c.site topic).onTopic_eq hpublished
    exact hsame ▸ List.Sublist.refl _
  | pass instant =>
    obtain ⟨rfl, -⟩ := perform?_pass h
    exact .refl _
  | join w =>
    obtain ⟨rfl, -⟩ := perform?_join h
    exact .refl _
  | tellToStop i =>
    cases h
    exact .refl _

/-- In a run nobody publishes on a topic but the worker at a place. -/
def OnlyPublisher (topic : String) (j : Nat) : Crew σ → List Deed → Prop
  | _, [] => True
  | c, d :: deeds =>
    ∃ c', c.perform? d = some c' ∧
      (d = .move j ∨ c'.site.channel.published topic = c.site.channel.published topic) ∧
      OnlyPublisher topic j c' deeds

theorem onlyPublisher_of_forall {deeds : List Deed} (h : c.replay? deeds = some c')
    (hdeeds : ∀ d ∈ deeds, d = .move j ∨ ∃ instant, d = .pass instant) :
    c.OnlyPublisher topic j deeds := by
  induction deeds generalizing c with
  | nil => trivial
  | cons d deeds ih =>
    obtain ⟨next, hnext, hrest⟩ := Option.bind_eq_some_iff.1 h
    refine ⟨next, hnext, ?_, ih hrest fun d hd => hdeeds d (List.mem_cons_of_mem _ hd)⟩
    rcases hdeeds d List.mem_cons_self with hmove | ⟨instant, rfl⟩
    · exact .inl hmove
    · obtain ⟨rfl, -⟩ := perform?_pass hnext
      exact .inr rfl

/-- What keeps the drain at a place from leaving anything behind. -/
structure Clears (c : Crew σ) (j : Nat) (p : Post) (delay : Nat) : Prop where
  drain : ∃ v, c.workers[j]? = some (.drain v) ∧ v.post = p ∧ v.Foresees c.site ∧
    ((delay ≤ p.settings.idlePoll ∧ v.Lags delay c.site) ∨ v.IsSole c.site)
  delays : ∀ role, c.site.roles[p.engine]? = some role → role.1.retry.longestDelay ≤ delay

theorem clears_of_perform? {p : Post} {delay : Nat} (h : c.perform? d = some c')
    (hclears : c.Clears j p delay)
    (hd : d = .move j ∨ c'.site.channel.published p.topic = c.site.channel.published p.topic) :
    c'.Clears j p delay := by
  obtain ⟨⟨v, hv, rfl, hforesees, hwhy⟩, hdelays⟩ := hclears
  refine ⟨?_, roles_of_perform? h ▸ hdelays⟩
  obtain ⟨v', hv', ⟨rfl, hmove⟩ | ⟨hne, rfl⟩⟩ := drain_of_perform? h hv
  · have hstep := Drain.step_of_move? hmove
    have hpost := (Drain.turn hmove).1
    refine ⟨v', hv', hpost, ?_⟩
    rcases hwhy with ⟨hdelay, hlags⟩ | hsole
    · exact ⟨hstep.foresees hforesees (hlags.canWait hdelay), .inl ⟨hdelay, hstep.lags hlags hdelays⟩⟩
    · exact ⟨hstep.foresees hforesees hsole.canWait, .inr (hstep.isSole hsole)⟩
  · have hnow := now_le_of_perform? h
    have hsub := sublist_of_perform? h (hd.resolve_left hne)
    refine ⟨v', hv', rfl, hforesees.mono hnow hsub, ?_⟩
    exact hwhy.imp (fun hlags => ⟨hlags.1, hlags.2.mono hnow hsub⟩) fun hsole => hsole.mono hsub

theorem clears_of_replay? {p : Post} {delay : Nat} {deeds : List Deed}
    (h : c.replay? deeds = some c') (honly : c.OnlyPublisher p.topic j deeds)
    (hclears : c.Clears j p delay) : c'.Clears j p delay := by
  induction deeds generalizing c with
  | nil =>
    cases h
    exact hclears
  | cons d deeds ih =>
    obtain ⟨next, hnext, hrest⟩ := Option.bind_eq_some_iff.1 h
    obtain ⟨next', hnext', hd, honly'⟩ := honly
    cases hnext.symm.trans hnext'
    exact ih hrest honly' (clears_of_perform? hnext hclears hd)

/-- A drain begins where every message on its topic can be taken, nobody else publishes there, and it
ends well. -/
structure DrainsAlone (c₀ c₁ : Crew σ) (j : Nat) (v : Drain) (pl : Pipeline) (deeds : List Deed) :
    Prop where
  drain : c₀.workers[j]? = some (.drain v)
  ready : v.stage = .ready
  role : ∃ service, c₀.site.roles[v.post.engine]? = some (pl, service)
  topic : pl.topic = v.post.topic
  deliverable : ∀ h ∈ c₀.site.channel.onTopic v.post.topic, h.due ≤ c₀.site.now
  run : c₀.replay? deeds = some c₁
  alone : c₀.OnlyPublisher v.post.topic j deeds
  ends : ∃ v' report, c₁.workers[j]? = some (.drain v') ∧ v'.report? = some report

/-- The drain at a place acquires its lease first, gives it back last, and keeps everybody else out
in between. -/
def KeepsLease (c : Crew σ) (j : Nat) (v : Drain) (deeds : List Deed) : Prop :=
  ∃ c₁ c₂ between, deeds = .move j :: (between ++ [.move j]) ∧ Drains c c₁ c₂ j v between ∧
    c₁.KeepsOut v.post.topic v.post.holder between

/-- Nothing is left where tasks are held back no longer than an idle poll, or where there has been
one message at most. -/
theorem DrainsAlone.pending_eq_zero {c₀ c₁ : Crew σ} {v : Drain} {pl : Pipeline}
    {deeds : List Deed} (h : DrainsAlone c₀ c₁ j v pl deeds)
    (hwhy : pl.retry.longestDelay ≤ v.post.settings.idlePoll ∨
      c₀.site.channel.pending v.post.topic ≤ 1) : c₁.site.channel.pending v.post.topic = 0 := by
  have hclears : c₀.Clears j v.post pl.retry.longestDelay := by
    refine ⟨⟨v, h.drain, rfl, ?_, hwhy.imp (fun hdelay => ⟨hdelay, ?_⟩) fun hone => ?_⟩, ?_⟩
    · rw [Drain.Foresees, h.ready]
      exact h.deliverable
    · rw [Drain.Lags, h.ready]
      exact fun held hheld => Nat.le_trans (h.deliverable held hheld) (Nat.le_add_right _ _)
    · rw [Drain.IsSole, h.ready]
      exact hone
    · rintro role hrole
      obtain ⟨service, hservice⟩ := h.role
      cases hservice.symm.trans hrole
      exact Nat.le_refl _
  obtain ⟨⟨v₁, hv₁, hpost, hforesees, -⟩, -⟩ := clears_of_replay? h.run h.alone hclears
  obtain ⟨v', report, hv', hreport⟩ := h.ends
  cases hv₁.symm.trans hv'
  rw [Drain.report?] at hreport
  split at hreport
  · next hstage =>
    rw [Drain.Foresees, hstage, hpost] at hforesees
    have hempty : c₁.site.channel.onTopic v.post.topic = [] := hforesees
    rw [Channel.pending, hempty]
    rfl
  · cases hreport

end Crew

end TaskRelay
