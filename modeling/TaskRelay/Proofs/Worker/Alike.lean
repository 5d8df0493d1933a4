import TaskRelay.Proofs.Crew.Basic
import TaskRelay.Proofs.Site.Alike
import TaskRelay.Proofs.Worker.Drain

/-!
# Workers of one queue

A worker sees of its site only what concerns its queue: at two sites that are alike it makes the same
moves, waits equally long, and leaves the sites in step (`Worker.matching_move?`, `Worker.wakesAt?_congr`).
What a worker of another queue does cannot be made out (`Turn.alike`).
-/

namespace TaskRelay

variable {σ : Type}

open Site (InStep Matching)

/-- Either nobody can move, or both moves come to the same. -/
def MatchingMove (queue : String) (s₀ t₀ : Site σ) {α : Type} (x y : Option (α × Site σ)) : Prop :=
  (x = none ∧ y = none) ∨
    ∃ a s t, x = some (a, s) ∧ y = some (a, t) ∧ InStep queue s₀ t₀ s t

namespace Site.Matching

variable {queue : String} {s₀ t₀ : Site σ} {α β : Type} {x y : α × Site σ}

theorem map (h : Matching queue s₀ t₀ x y) (f : α → β) :
    Matching queue s₀ t₀ (f x.1, x.2) (f y.1, y.2) := by
  obtain ⟨a, s, t, rfl, rfl, h⟩ := h
  exact h.matching (f a)

theorem move (h : Matching queue s₀ t₀ x y) : MatchingMove queue s₀ t₀ (some x) (some y) := by
  obtain ⟨a, s, t, rfl, rfl, h⟩ := h
  exact .inr ⟨a, s, t, rfl, rfl, h⟩

end Site.Matching

theorem MatchingMove.map {queue : String} {s₀ t₀ : Site σ} {α β : Type}
    {x y : Option (α × Site σ)} (h : MatchingMove queue s₀ t₀ x y) (f : α → β) :
    MatchingMove queue s₀ t₀ (x.map fun r => (f r.1, r.2)) (y.map fun r => (f r.1, r.2)) := by
  rcases h with ⟨rfl, rfl⟩ | ⟨a, s, t, rfl, rfl, h⟩
  · exact .inl ⟨rfl, rfl⟩
  · exact (h.matching (f a)).move

/-! ## Posts -/

theorem Site.employs_eq_isSome (s : Site σ) (p : Post) :
    s.employs p = (s.engineOn? p.topic p.engine).isSome := by
  rw [employs, roles, engineOn?, List.getElem?_map, Option.any_map]
  cases s.engines[p.engine]? with
  | none => rfl
  | some e => cases h : e.pipeline.topic == p.topic <;> simp [h]

namespace Post

variable {p : Post} {s₀ t₀ s t : Site σ}

theorem ticker_congr (h : s.Alike p.topic t) : ticker t = ticker s := by
  rw [ticker, ticker, h.now_eq, h.leases.ttl_eq]

theorem matching_renew (h : InStep p.topic s₀ t₀ s t) :
    Matching p.topic s₀ t₀ (p.renew s) (p.renew t) := by
  obtain ⟨result, s₁, t₁, hs₁, ht₁, h₁⟩ := h.renew p.holder
  rw [renew, renew, hs₁, ht₁]
  cases result with
  | ok renewed => exact h₁.matching renewed
  | error e => exact h₁.matching false

theorem matching_tick? (h : InStep p.topic s₀ t₀ s t) (ticker : Ticker) :
    MatchingMove p.topic s₀ t₀ (p.tick? ticker s) (p.tick? ticker t) := by
  rw [ tick?, tick?, h.alike.now_eq]
  split
  · exact ((matching_renew h).map ticker.after).move
  · exact .inl ⟨rfl, rfl⟩

theorem matching_poll? (h : InStep p.topic s₀ t₀ s t) (c : Collection) :
    MatchingMove p.topic s₀ t₀ (p.poll? c s) (p.poll? c t) := by
  obtain ⟨progress, after, after', hs, ht, hafter⟩ :=
    c.poll_congr h.alike.onTopic_eq p.settings s.now
  have hchannel := h.withChannel hafter
  rw [← h.alike.now_eq] at ht
  cases progress with
  | waiting =>
    rw [ poll?, poll?, hs, ht]
    exact .inl ⟨rfl, rfl⟩
  | more next =>
    rw [poll?_of_more hs (h.left .receive), poll?_of_more ht (h.right .receive)]
    exact (hchannel.matching _).move
  | closed b =>
    rw [poll?_of_closed hs, poll?_of_closed ht]
    exact (hchannel.matching _).move

theorem site_of_work {b : Batch} {e : Engine σ} (hrejected : b.isRejectedOnly = false)
    (hengine : s.engines[p.engine]? = some e) :
    (p.work b s).2 = (s.beginIteration p.engine e b).2 := by
  rw [work, hrejected, hengine]
  simp only [Bool.false_eq_true, if_false]
  rcases s.beginIteration p.engine e b with ⟨begun, t⟩
  cases begun <;> rfl

theorem matching_work (h : InStep p.topic s₀ t₀ s t) (hemploys : s.employs p = true) {b : Batch}
    (hid : (p.work b s).2.issued ≠ s.issued → t.nextId = s.nextId) :
    Matching p.topic s₀ t₀ (p.work b s) (p.work b t) := by
  obtain ⟨e, hs, htopic, -⟩ := Site.engine_of_employs hemploys
  have hengine : s.engineOn? p.topic p.engine = some e := Site.engineOn?_eq_some.2 ⟨hs, htopic⟩
  have ht := (Site.engineOn?_eq_some.1 ((h.alike.engineOn?_eq p.engine).trans hengine)).1
  cases hrejected : b.isRejectedOnly with
  | true =>
    rw [work, work, hrejected]
    exact h.matching _
  | false =>
    rw [site_of_work hrejected hs] at hid
    obtain ⟨begun, s₁, t₁, hs₁, ht₁, h₁⟩ := h.beginIteration (b := b) hengine fun hnone =>
      hid (Nat.ne_of_gt (Site.issued_lt_beginIteration h.left hs hnone))
    rw [work, work, hrejected, hs, ht]
    simp only [hs₁, ht₁]
    cases begun with
    | dispatched d => exact h₁.matching _
    | ended result => exact h₁.matching _

end Post

/-! ## Servers -/

namespace Server

variable {v : Server} {s₀ t₀ s t : Site σ}

theorem collect_of_no_fault (h : s.faults .receive = 0) (v : Server) :
    v.collect s =
      ({ v with stage := .collecting (.start s.now v.post.settings.idlePoll) }, s) := by
  rw [collect, Post.collect, Post.receive_of_no_fault h]
  rfl

theorem matching_collect (h : InStep v.post.topic s₀ t₀ s t) :
    Matching v.post.topic s₀ t₀ (v.collect s) (v.collect t) := by
  rw [collect_of_no_fault (h.left .receive), collect_of_no_fault (h.right .receive),
    h.alike.now_eq]
  exact h.matching _

theorem matching_pause (h : InStep v.post.topic s₀ t₀ s t) :
    Matching v.post.topic s₀ t₀ (v.pause s) (v.pause t) := by
  rw [pause, pause, h.alike.now_eq]
  exact h.matching _

theorem matching_stop (h : InStep v.post.topic s₀ t₀ s t) :
    Matching v.post.topic s₀ t₀ (v.stop s) (v.stop t) := by
  obtain ⟨_, s₁, t₁, hs₁, ht₁, h₁⟩ := h.release v.post.holder
  rw [stop, stop, hs₁, ht₁]
  cases v.leading with
  | false => exact h.matching _
  | true => exact h₁.matching _

theorem site_work (v : Server) (b : Batch) (s : Site σ) :
    (v.work (some b) s).2 = (v.post.work b s).2 := by
  rw [work]
  rcases v.post.work b s with ⟨started, t⟩
  cases started <;> rfl

theorem matching_work (h : InStep v.post.topic s₀ t₀ s t) (hemploys : s.employs v.post = true)
    {b : Option Batch} (hid : (v.work b s).2.issued ≠ s.issued → t.nextId = s.nextId) :
    Matching v.post.topic s₀ t₀ (v.work b s) (v.work b t) := by
  cases b with
  | none => exact h.matching _
  | some b =>
    rw [site_work] at hid
    obtain ⟨started, s₁, t₁, hs₁, ht₁, h₁⟩ := Post.matching_work h hemploys hid
    rw [work, work, hs₁, ht₁]
    cases started with
    | dispatched d =>
      simp only [Post.ticker_congr h₁.alike]
      exact h₁.matching _
    | ended result => exact h₁.matching _

theorem matching_acquire (h : InStep v.post.topic s₀ t₀ s t) (hstage : v.stage = .ready)
    (hstopping : v.stopping = false) (hleading : v.leading = false) :
    MatchingMove v.post.topic s₀ t₀ (v.move? s) (v.move? t) := by
  obtain ⟨post, leaseRetry, stopping, leading, stage⟩ := v
  cases hstage
  cases hstopping
  cases hleading
  obtain ⟨result, s₁, t₁, hs₁, ht₁, h₁⟩ := h.acquire post.holder
  simp only [move?, hs₁, ht₁, Bool.false_eq_true, if_false]
  cases result with
  | error e => exact (matching_pause h₁).move
  | ok granted =>
    cases granted with
    | false => exact (matching_pause h₁).move
    | true => exact (matching_collect (v := { post, leaseRetry, leading := true }) h₁).move

/-- A server makes the same move at both sites. -/
theorem matching_move? (h : InStep v.post.topic s₀ t₀ s t) (hemploys : s.employs v.post = true)
    (hid : ∀ r, v.move? s = some r → r.2.issued ≠ s.issued → t.nextId = s.nextId) :
    MatchingMove v.post.topic s₀ t₀ (v.move? s) (v.move? t) := by
  cases hstage : v.stage with
  | ready =>
    cases hstopping : v.stopping with
    | true =>
      simp only [move?, hstage, hstopping, if_true]
      exact (matching_stop h).move
    | false =>
      cases hleading : v.leading with
      | false => exact matching_acquire h hstage hstopping hleading
      | true =>
        obtain ⟨renewed, s₁, t₁, hs₁, ht₁, h₁⟩ := Post.matching_renew h
        simp only [move?, hstage, hstopping, hleading, hs₁, ht₁, Bool.false_eq_true, if_true,
          if_false]
        cases renewed with
        | false => exact (h₁.matching _).move
        | true => exact (matching_collect h₁).move
  | pausing wake =>
    simp only [move?, hstage, h.alike.now_eq]
    split
    · exact (h.matching _).move
    · exact .inl ⟨rfl, rfl⟩
  | collecting c =>
    rcases Post.matching_poll? h c with ⟨hs, ht⟩ | ⟨collected, s₁, t₁, hs₁, ht₁, h₁⟩
    · simp only [move?, hstage, hs, ht]
      exact .inl ⟨rfl, rfl⟩
    · cases collected with
      | receiving c' =>
        simp only [move?, hstage, hs₁, ht₁]
        cases c' with
        | ok c' => exact (h₁.matching _).move
        | error e => exact (matching_pause h₁).move
      | batch b =>
        have hmove : v.move? s = some (v.work b s₁) := by
          simp only [move?, hstage, hs₁]
        obtain ⟨channel, -, rfl⟩ := Post.poll?_batch hs₁
        obtain ⟨channel', -, rfl⟩ := Post.poll?_batch ht₁
        simp only [move?, hstage, hs₁, ht₁]
        exact (matching_work h₁ hemploys (hid _ hmove)).move
  | working d ticker =>
    simp only [move?, hstage, h.alike.now_eq]
    split
    · obtain ⟨result, s₁, t₁, hs₁, ht₁, h₁⟩ := h.endIteration d
      rw [hs₁, ht₁]
      cases result with
      | none => exact (h₁.matching _).move
      | some result => exact (h₁.matching _).move
    · exact (Post.matching_tick? h ticker).map fun ticker => { v with stage := .working d ticker }
  | stopped =>
    simp only [move?, hstage]
    exact .inl ⟨rfl, rfl⟩
  | broken =>
    simp only [move?, hstage]
    exact .inl ⟨rfl, rfl⟩

theorem wakesAt?_congr (h : s.Alike v.post.topic t) : v.wakesAt? t = v.wakesAt? s := by
  cases hstage : v.stage with
  | collecting c => simp only [wakesAt?, hstage, c.wakesAt_congr h.onTopic_eq]
  | _ => simp only [wakesAt?, hstage, h.now_eq]

end Server

/-! ## Drains -/

namespace Drain

variable {v : Drain} {s₀ t₀ s t : Site σ}

theorem matching_finish (h : InStep v.post.topic s₀ t₀ s t)
    (result : Except WorkerError DrainReport) :
    Matching v.post.topic s₀ t₀ (v.finish result s) (v.finish result t) := by
  obtain ⟨_, s₁, t₁, hs₁, ht₁, h₁⟩ := h.release v.post.holder
  rw [finish, finish, hs₁, ht₁]
  exact h₁.matching _

theorem matching_collect (h : InStep v.post.topic s₀ t₀ s t) (wait : Nat) :
    Matching v.post.topic s₀ t₀ (v.collect wait s) (v.collect wait t) := by
  rw [collect_of_no_fault (h.left .receive), collect_of_no_fault (h.right .receive),
    h.alike.now_eq, Post.ticker_congr h.alike]
  exact h.matching _

theorem matching_next (h : InStep v.post.topic s₀ t₀ s t) (held : Bool)
    (result : Except ChannelError (Option Continuation)) :
    Matching v.post.topic s₀ t₀ (v.next held result s) (v.next held result t) := by
  cases result with
  | error e => exact matching_finish h _
  | ok c =>
    have hcount : InStep (v.count c).post.topic s₀ t₀ s t := by rwa [post_count]
    rw [← post_count v c]
    cases held with
    | false => exact matching_finish hcount _
    | true => exact matching_collect hcount _

theorem issued_work (v : Drain) (held : Bool) (b : Batch) (s : Site σ) :
    (v.work held (some b) s).2.issued = (v.post.work b s).2.issued := by
  rw [work]
  rcases v.post.work b s with ⟨started, t⟩
  cases started with
  | dispatched d => rfl
  | ended result => exact (v.next_spec held result t).2.2.issued_eq

theorem matching_work (h : InStep v.post.topic s₀ t₀ s t) (hemploys : s.employs v.post = true)
    {held : Bool} {b : Option Batch}
    (hid : (v.work held b s).2.issued ≠ s.issued → t.nextId = s.nextId) :
    Matching v.post.topic s₀ t₀ (v.work held b s) (v.work held b t) := by
  cases b with
  | none => exact matching_finish h _
  | some b =>
    rw [issued_work] at hid
    obtain ⟨started, s₁, t₁, hs₁, ht₁, h₁⟩ := Post.matching_work h hemploys hid
    rw [work, work, hs₁, ht₁]
    cases started with
    | dispatched d =>
      simp only [Post.ticker_congr h₁.alike]
      exact h₁.matching _
    | ended result => exact matching_next h₁ held result

/-- A drain makes the same move at both sites. -/
theorem matching_move? (h : InStep v.post.topic s₀ t₀ s t) (hemploys : s.employs v.post = true)
    (hid : ∀ r, v.move? s = some r → r.2.issued ≠ s.issued → t.nextId = s.nextId) :
    MatchingMove v.post.topic s₀ t₀ (v.move? s) (v.move? t) := by
  cases hstage : v.stage with
  | ready =>
    obtain ⟨result, s₁, t₁, hs₁, ht₁, h₁⟩ := h.acquire v.post.holder
    simp only [move?, hstage, hs₁, ht₁]
    cases result with
    | error e => exact (h₁.matching _).move
    | ok granted =>
      cases granted with
      | false => exact (h₁.matching _).move
      | true => exact (matching_collect h₁ _).move
  | collecting c ticker =>
    rcases Post.matching_poll? h c with ⟨hs, ht⟩ | ⟨collected, s₁, t₁, hs₁, ht₁, h₁⟩
    · simp only [move?, hstage, hs, ht]
      exact (Post.matching_tick? h ticker).map fun ticker =>
        { v with stage := .collecting c ticker }
    · cases collected with
      | receiving c' =>
        simp only [move?, hstage, hs₁, ht₁]
        cases c' with
        | ok c' => exact (h₁.matching _).move
        | error e => exact (matching_finish h₁ _).move
      | batch b =>
        have hmove : v.move? s = some (v.work ticker.holding b s₁) := by
          simp only [move?, hstage, hs₁]
        obtain ⟨channel, -, rfl⟩ := Post.poll?_batch hs₁
        obtain ⟨channel', -, rfl⟩ := Post.poll?_batch ht₁
        simp only [move?, hstage, hs₁, ht₁]
        exact (matching_work h₁ hemploys (hid _ hmove)).move
  | working d ticker held =>
    simp only [move?, hstage, h.alike.now_eq]
    split
    · obtain ⟨result, s₁, t₁, hs₁, ht₁, h₁⟩ := h.endIteration d
      rw [hs₁, ht₁]
      cases result with
      | none => exact (h₁.matching _).move
      | some result => exact (matching_next h₁ _ _).move
    · exact (Post.matching_tick? h ticker).map fun ticker =>
        { v with stage := .working d ticker held }
  | ended result =>
    simp only [move?, hstage]
    exact .inl ⟨rfl, rfl⟩
  | broken =>
    simp only [move?, hstage]
    exact .inl ⟨rfl, rfl⟩

theorem wakesAt?_congr (h : s.Alike v.post.topic t) : v.wakesAt? t = v.wakesAt? s := by
  cases hstage : v.stage with
  | collecting c ticker => simp only [wakesAt?, hstage, c.wakesAt_congr h.onTopic_eq]
  | _ => simp only [wakesAt?, hstage, h.now_eq]

end Drain

/-! ## Workers of the queue and others -/

namespace Worker

variable {w : Worker} {s₀ t₀ s t : Site σ}

theorem matching_move? (h : InStep w.post.topic s₀ t₀ s t) (hemploys : s.employs w.post = true)
    (hid : ∀ r, w.move? s = some r → r.2.issued ≠ s.issued → t.nextId = s.nextId) :
    MatchingMove w.post.topic s₀ t₀ (w.move? s) (w.move? t) := by
  cases w with
  | server v =>
    exact (Server.matching_move? h hemploys fun r hr => hid (.server r.1, r.2) (by
      rw [ move?, hr]; rfl)).map Worker.server
  | drain v =>
    exact (Drain.matching_move? h hemploys fun r hr => hid (.drain r.1, r.2) (by
      rw [ move?, hr]; rfl)).map Worker.drain

theorem wakesAt?_congr (h : s.Alike w.post.topic t) : w.wakesAt? t = w.wakesAt? s := by
  cases w with
  | server v => exact Server.wakesAt?_congr h
  | drain v => exact Drain.wakesAt?_congr h

end Worker

/-! ## What the workers of other queues do -/

/-- What a worker works on comes from the engine of its post and goes back to its topic. -/
def Hands.IsAt (p : Post) (h : Hands) : Prop :=
  ∀ d, h = .working d → d.engine = p.engine ∧ d.pipeline.topic = p.topic

theorem Hands.IsFresh.isAt {now : Nat} {h : Hands} (hfresh : h.IsFresh now) (p : Post) :
    h.IsAt p := by
  cases hfresh with
  | nothing => exact nofun
  | collecting wait => exact nofun

namespace Post

variable {p : Post} {b : Batch} {s t : Site σ}

theorem isAt_of_work {d : Site.Dispatch} (hemploys : s.employs p = true)
    (h : p.work b s = (.dispatched d, t)) : (Hands.working d).IsAt p := by
  obtain ⟨e, he, htopic, -⟩ := Site.engine_of_employs hemploys
  rw [work] at h
  split at h
  · cases h
  · rw [he] at h
    simp only [Site.beginIteration_eq] at h
    cases hchoose : e.pipeline.choose b (s.idFor (b.correlationOf? e.pipeline.order)).1 with
    | nothing =>
      rw [hchoose] at h
      cases h
    | dispatch context rest =>
      rw [hchoose] at h
      cases h
      rintro _ ⟨⟩
      exact ⟨rfl, htopic⟩

theorem alike_work {queue : String} (hs : s.IsReliable) (hemploys : s.employs p = true)
    (hne : p.topic ≠ queue) (b : Batch) : s.Alike queue (p.work b s).2 := by
  obtain ⟨e, he, htopic, -⟩ := Site.engine_of_employs hemploys
  cases hrejected : b.isRejectedOnly with
  | true =>
    rw [work, hrejected]
    exact .refl queue s
  | false =>
    rw [site_of_work hrejected he]
    exact Site.alike_beginIteration hs he (htopic ▸ hne) b

end Post

namespace Turn

variable {p : Post} {s t : Site σ} {before after : Hands}

theorem isAt (h : Turn p s before after t) (hemploys : s.employs p = true)
    (hbefore : before.IsAt p) : after.IsAt p := by
  cases h with
  | stay hquiet hbusy => exact hbefore
  | begin hquiet hfresh => exact hfresh.isAt p
  | take hpoll hquiet => exact nofun
  | drop hpoll hfault hquiet => exact nofun
  | giveUp hpoll hquiet => exact nofun
  | @start c b channel d t hpoll hwork =>
    exact Post.isAt_of_work (s := { s with channel }) hemploys hwork
  | pass hpoll hwork hquiet hfresh => exact hfresh.isAt p
  | finish hends hend hquiet hfresh => exact hfresh.isAt p

/-- A turn at another queue cannot be made out. -/
theorem alike {queue : String} (h : Turn p s before after t) (hs : s.IsReliable)
    (hemploys : s.employs p = true) (hbefore : before.IsAt p) (hne : p.topic ≠ queue) :
    s.Alike queue t := by
  have hpolled : ∀ {c : Collection} {progress : Collection.Progress} {channel : Channel},
      c.poll p.settings p.topic s.now s.channel = (progress, channel) →
      s.Alike queue { s with channel } := fun hpoll =>
    Site.alike_channel (Collection.onTopic_of_poll_ne hpoll hne)
  cases h with
  | stay hquiet hbusy => exact hquiet.alike hne
  | begin hquiet hfresh => exact hquiet.alike hne
  | take hpoll hquiet => exact (hpolled hpoll).trans (hquiet.alike hne)
  | drop hpoll hfault hquiet => exact (hpolled hpoll).trans (hquiet.alike hne)
  | giveUp hpoll hquiet => exact (hpolled hpoll).trans (hquiet.alike hne)
  | @start c b channel d t hpoll hwork =>
    have hafter := Post.alike_work (s := { s with channel }) hs hemploys hne b
    rw [hwork] at hafter
    exact (hpolled hpoll).trans hafter
  | @pass c b channel h t u result hpoll hwork hquiet hfresh =>
    have hafter := Post.alike_work (s := { s with channel }) hs hemploys hne b
    rw [hwork] at hafter
    exact ((hpolled hpoll).trans hafter).trans (hquiet.alike hne)
  | finish hends hend hquiet hfresh =>
    have hafter := Site.alike_endIteration hs ((hbefore _ rfl).2 ▸ hne)
    rw [hend] at hafter
    exact hafter.trans (hquiet.alike hne)

end Turn

end TaskRelay
