import TaskRelay.Proofs.Run.Rounds
import TaskRelay.Proofs.Site.Posting

/-!
# One queue of a site

Channel, leases and clock are shared by everybody at a site, but who consumes a queue makes out only
a part of it: the messages of that topic in their order, the lease of that queue, the engines that
publish there, and what time it is.  `Site.Alike` says that two sites agree on this part, whatever
else is going on at either of them.

Where no call fails, each call of a site that is about the queue comes to the same result at two
sites that are alike, and leaves them `Site.InStep`: they are alike again, the same entries have come
onto both journals, and both have handed out the same number of ids.
-/

namespace TaskRelay

variable {σ : Type}

/-! ## The messages of a topic -/

namespace Channel

variable {c d : Channel} {topic : String}

theorem take?_eq (c : Channel) (topic : String) (now : Nat) :
    c.take? topic now = ((c.onTopic topic).find? (·.due ≤ now)).map fun h =>
      (h.message, { c with held := c.held.eraseP (Held.isDeliverable topic now) }) := by
  have hdeliverable : (fun h : Held => decide ((h.topic == topic) = true ∧
      decide (h.due ≤ now) = true)) = Held.isDeliverable topic now := by
    funext h
    rw [Held.isDeliverable, Bool.decide_and, Bool.decide_coe, Bool.decide_coe]
  rw [take?, onTopic, List.find?_filter, hdeliverable]
  cases c.held.find? (Held.isDeliverable topic now) <;> rfl

theorem onTopic_eraseP (c : Channel) (topic : String) (now : Nat) :
    onTopic { c with held := c.held.eraseP (Held.isDeliverable topic now) } topic =
      (c.onTopic topic).eraseP (·.due ≤ now) := by
  have hdeliverable : (fun h : Held => decide (h.due ≤ now) && h.topic == topic) =
      Held.isDeliverable topic now :=
    funext fun h => Bool.and_comm _ _
  rw [onTopic, onTopic, List.eraseP_filter, hdeliverable]

/-- What is taken from a topic, and what is left there, is a matter of its own messages. -/
theorem take?_congr (h : d.onTopic topic = c.onTopic topic) (now : Nat) :
    (c.take? topic now = none ∧ d.take? topic now = none) ∨
      ∃ m c' d', c.take? topic now = some (m, c') ∧ d.take? topic now = some (m, d') ∧
        d'.onTopic topic = c'.onTopic topic := by
  rw [take?_eq c, take?_eq d, h]
  cases (c.onTopic topic).find? (·.due ≤ now) with
  | none => exact .inl ⟨rfl, rfl⟩
  | some held =>
    refine .inr ⟨held.message, _, _, rfl, rfl, ?_⟩
    rw [onTopic_eraseP, onTopic_eraseP, h]

theorem onTopic_of_take?_ne {other : String} {now : Nat} {m : Message}
    (h : c.take? other now = some (m, d)) (hne : other ≠ topic) :
    d.onTopic topic = c.onTopic topic := by
  obtain ⟨before, held, after, hsplit, -, hdeliverable, -, rfl⟩ := take?_eq_some h
  have hheld : (held.topic == topic) = false := by
    rw [(Held.isDeliverable_iff.1 hdeliverable).1]
    exact beq_false_of_ne hne
  simp [onTopic, hsplit, hheld]

end Channel

namespace Collection

variable {channel channel' : Channel} {topic : String}

theorem poll_congr (h : channel'.onTopic topic = channel.onTopic topic) (c : Collection)
    (settings : CollectionSettings) (now : Nat) :
    ∃ progress after after', c.poll settings topic now channel = (progress, after) ∧
      c.poll settings topic now channel' = (progress, after') ∧
      after'.onTopic topic = after.onTopic topic := by
  rw [poll, poll]
  rcases Channel.take?_congr h now with ⟨hnone, hnone'⟩ | ⟨m, after, after', htake, htake', hafter⟩
  · rw [hnone, hnone']
    exact ⟨_, _, _, rfl, rfl, h⟩
  · rw [htake, htake']
    exact ⟨_, _, _, rfl, rfl, hafter⟩

theorem wakesAt_congr (h : channel'.onTopic topic = channel.onTopic topic) (c : Collection) :
    c.wakesAt topic channel' = c.wakesAt topic channel := by
  rw [wakesAt, wakesAt, Channel.nextDue?, Channel.nextDue?, h]

theorem onTopic_of_poll_ne {c : Collection} {settings : CollectionSettings} {other : String}
    {now : Nat} {progress : Progress}
    (h : c.poll settings other now channel = (progress, channel')) (hne : other ≠ topic) :
    channel'.onTopic topic = channel.onTopic topic := by
  have hchannel := c.channel_of_poll settings other now channel
  rw [h] at hchannel
  rcases hchannel with ⟨m, htake⟩ | rfl
  · exact Channel.onTopic_of_take?_ne htake hne
  · rfl

end Collection

/-! ## The lease of a queue -/

namespace LeaseTable

/-- Two tables agree on a queue. -/
structure Alike (queue : String) (t u : LeaseTable) : Prop where
  ttl_eq : u.ttl = t.ttl
  get?_eq : u.get? queue = t.get? queue

namespace Alike

variable {queue : String} {t u : LeaseTable}

theorem refl (queue : String) (t : LeaseTable) : t.Alike queue t :=
  ⟨rfl, rfl⟩

theorem trans {v : LeaseTable} (h₁ : t.Alike queue u) (h₂ : u.Alike queue v) : t.Alike queue v :=
  ⟨h₂.ttl_eq.trans h₁.ttl_eq, h₂.get?_eq.trans h₁.get?_eq⟩

theorem live?_eq (h : t.Alike queue u) (now : Nat) : u.live? queue now = t.live? queue now := by
  rw [live?, live?, h.get?_eq]

theorem grant (h : t.Alike queue u) (holder : String) (now : Nat) :
    (t.grant queue holder now).Alike queue (u.grant queue holder now) := by
  refine ⟨h.ttl_eq, ?_⟩
  rw [get?_grant_self, get?_grant_self, h.ttl_eq]

theorem acquire (h : t.Alike queue u) (holder : String) (now : Nat) :
    (u.acquire queue holder now).1 = (t.acquire queue holder now).1 ∧
      (t.acquire queue holder now).2.Alike queue (u.acquire queue holder now).2 := by
  rw [LeaseTable.acquire, LeaseTable.acquire, h.live?_eq]
  cases t.live? queue now with
  | none => exact ⟨rfl, h.grant holder now⟩
  | some lease =>
    by_cases hholder : lease.holder = holder
    · simp only [if_pos hholder]
      exact ⟨trivial, h.grant holder now⟩
    · simp only [if_neg hholder]
      exact ⟨trivial, h⟩

theorem renew (h : t.Alike queue u) (holder : String) (now : Nat) :
    (u.renew queue holder now).1 = (t.renew queue holder now).1 ∧
      (t.renew queue holder now).2.Alike queue (u.renew queue holder now).2 := by
  have hsame : u.holder? queue now = t.holder? queue now := by
    rw [holder?, holder?, h.live?_eq]
  by_cases hholder : t.holder? queue now = some holder
  · rw [renew_of_holder hholder, renew_of_holder (hsame.trans hholder)]
    exact ⟨rfl, h.grant holder now⟩
  · rw [renew_of_not_holder hholder, renew_of_not_holder (hsame ▸ hholder)]
    exact ⟨rfl, h⟩

theorem release (h : t.Alike queue u) (holder : String) :
    (t.release queue holder).Alike queue (u.release queue holder) := by
  rw [LeaseTable.release, LeaseTable.release, h.get?_eq]
  by_cases hholder : (t.get? queue).any (·.holder = holder) = true
  · rw [if_pos hholder, if_pos hholder]
    refine ⟨h.ttl_eq, ?_⟩
    rw [get?_erase_self, get?_erase_self]
  · rw [if_neg hholder, if_neg hholder]
    exact h

end Alike

theorem Calls.alike {queue holder other : String} {now : Nat} {t u : LeaseTable}
    (h : Calls other holder now t u) (hne : other ≠ queue) : t.Alike queue u :=
  ⟨h.ttl_eq, h.get?_of_queue_ne hne.symm⟩

end LeaseTable

/-! ## Sites that agree on a queue -/

namespace Site

/-- The engine with a number, provided that it publishes on a topic. -/
def engineOn? (s : Site σ) (topic : String) (i : Nat) : Option (Engine σ) :=
  (s.engines[i]?).filter (·.pipeline.topic == topic)

theorem engineOn?_eq_some {s : Site σ} {topic : String} {i : Nat} {e : Engine σ} :
    s.engineOn? topic i = some e ↔ s.engines[i]? = some e ∧ e.pipeline.topic = topic := by
  rw [engineOn?, Option.filter_eq_some_iff, beq_iff_eq]

namespace IsReliable

variable {s : Site σ}

theorem acquire_eq (h : s.IsReliable) (queue holder : String) :
    s.acquire queue holder = (.ok (s.leases.acquire queue holder s.now).1,
      { s with leases := (s.leases.acquire queue holder s.now).2 }) := by
  rw [acquire, call_eq_of_no_fault (h .acquire)]

theorem renew_eq (h : s.IsReliable) (queue holder : String) :
    s.renew queue holder = (.ok (s.leases.renew queue holder s.now).1,
      { s with leases := (s.leases.renew queue holder s.now).2 }) := by
  rw [renew, call_eq_of_no_fault (h .renew)]

theorem release_eq (h : s.IsReliable) (queue holder : String) :
    s.release queue holder = (.ok (), { s with leases := s.leases.release queue holder }) := by
  rw [release, call_eq_of_no_fault (h .release)]

theorem report_eq (h : s.IsReliable) (id domain : String) (n : Notice) :
    s.report id domain n = s.record (.event
      { correlationId := id, domain, action := n.action, state := n.state
        time := s.clock.time s.now, detail := n.detail }) := by
  rw [report, call_eq_of_no_fault (h .report)]

end IsReliable

/-- Who consumes a queue cannot tell one site from the other. -/
structure Alike (queue : String) (s t : Site σ) : Prop where
  now_eq : t.now = s.now
  clock_eq : t.clock = s.clock
  leases : s.leases.Alike queue t.leases
  onTopic_eq : t.channel.onTopic queue = s.channel.onTopic queue
  engineOn?_eq : ∀ i, t.engineOn? queue i = s.engineOn? queue i

namespace Alike

variable {queue : String} {s t : Site σ}

theorem refl (queue : String) (s : Site σ) : s.Alike queue s :=
  ⟨rfl, rfl, .refl queue s.leases, rfl, fun _ => rfl⟩

theorem trans {u : Site σ} (h₁ : s.Alike queue t) (h₂ : t.Alike queue u) : s.Alike queue u :=
  ⟨h₂.now_eq.trans h₁.now_eq, h₂.clock_eq.trans h₁.clock_eq, h₁.leases.trans h₂.leases,
    h₂.onTopic_eq.trans h₁.onTopic_eq, fun i => (h₂.engineOn?_eq i).trans (h₁.engineOn?_eq i)⟩

theorem symm (h : s.Alike queue t) : t.Alike queue s :=
  ⟨h.now_eq.symm, h.clock_eq.symm, ⟨h.leases.ttl_eq.symm, h.leases.get?_eq.symm⟩,
    h.onTopic_eq.symm, fun i => (h.engineOn?_eq i).symm⟩

end Alike

/-- From `s₀` and `t₀` on the same has been done about a queue at two sites. -/
structure InStep (queue : String) (s₀ t₀ s t : Site σ) : Prop where
  alike : s.Alike queue t
  left : s.IsReliable
  right : t.IsReliable
  ids_eq : t.ids = t₀.ids
  issued : ∃ n, s.issued = s₀.issued + n ∧ t.issued = t₀.issued + n
  journal : ∃ new, s.journal = new ++ s₀.journal ∧ t.journal = new ++ t₀.journal

/-- Two calls have come to the same result. -/
def Matching (queue : String) (s₀ t₀ : Site σ) {α : Type} (x y : α × Site σ) : Prop :=
  ∃ a s t, x = (a, s) ∧ y = (a, t) ∧ InStep queue s₀ t₀ s t

theorem Matching.inStep {queue : String} {s₀ t₀ : Site σ} {α : Type} {x y : α × Site σ}
    (h : Matching queue s₀ t₀ x y) : InStep queue s₀ t₀ x.2 y.2 := by
  obtain ⟨a, s, t, rfl, rfl, h⟩ := h
  exact h

namespace InStep

variable {queue : String} {s₀ t₀ s t : Site σ}

theorem start (h : s.Alike queue t) (hs : s.IsReliable) (ht : t.IsReliable) :
    InStep queue s t s t :=
  ⟨h, hs, ht, rfl, ⟨0, rfl, rfl⟩, ⟨[], rfl, rfl⟩⟩

theorem matching {α : Type} (h : InStep queue s₀ t₀ s t) (a : α) :
    Matching queue s₀ t₀ (a, s) (a, t) :=
  ⟨a, s, t, rfl, rfl, h⟩

theorem issued_le (h : InStep queue s₀ t₀ s t) : s₀.issued ≤ s.issued := by
  obtain ⟨n, hs, -⟩ := h.issued
  omega

/-! ### Changes of single parts -/

theorem withLeases (h : InStep queue s₀ t₀ s t) {leases leases' : LeaseTable}
    (hleases : leases.Alike queue leases') :
    InStep queue s₀ t₀ { s with leases } { t with leases := leases' } :=
  { h with alike := { h.alike with leases := hleases } }

theorem withChannel (h : InStep queue s₀ t₀ s t) {channel channel' : Channel}
    (hchannel : channel'.onTopic queue = channel.onTopic queue) :
    InStep queue s₀ t₀ { s with channel } { t with channel := channel' } :=
  { h with alike := { h.alike with onTopic_eq := hchannel } }

theorem pass (h : InStep queue s₀ t₀ s t) (instant : Nat) :
    InStep queue s₀ t₀ { s with now := instant } { t with now := instant } :=
  { h with alike := { h.alike with now_eq := rfl } }

theorem record (h : InStep queue s₀ t₀ s t) (e : Entry) :
    InStep queue s₀ t₀ (s.record e) (t.record e) := by
  obtain ⟨new, hs, ht⟩ := h.journal
  refine { h with alike := { h.alike with }, journal := ⟨(s.now, e) :: new, ?_, ?_⟩ }
  · rw [Site.record, hs, List.cons_append]
  · rw [Site.record, ht, h.alike.now_eq, List.cons_append]

/-- A step changes the state of its engine at both sites alike. -/
theorem withEngine (h : InStep queue s₀ t₀ s t) {i : Nat} {e : Engine σ}
    (hengine : s.engineOn? queue i = some e) (state : σ) :
    InStep queue s₀ t₀ { s with engines := s.engines.set i { e with state } }
      { t with engines := t.engines.set i { e with state } } := by
  have hset : ∀ u : Site σ, u.engineOn? queue i = some e → ∀ j,
      ({ u with engines := u.engines.set i { e with state } } : Site σ).engineOn? queue j =
        if i = j then some { e with state } else u.engineOn? queue j := by
    intro u hu j
    obtain ⟨hu, htopic⟩ := engineOn?_eq_some.1 hu
    obtain ⟨hlt, -⟩ := List.getElem?_eq_some_iff.1 hu
    rw [engineOn?, List.getElem?_set]
    by_cases hij : i = j
    · simp [hij ▸ hlt, hij, htopic]
    · rw [if_neg hij, if_neg hij, engineOn?]
  refine { h with alike := { h.alike with engineOn?_eq := fun j => ?_ } }
  rw [hset s hengine, hset t ((h.alike.engineOn?_eq i).trans hengine), h.alike.engineOn?_eq]

/-! ### Leases -/

theorem acquire (h : InStep queue s₀ t₀ s t) (holder : String) :
    Matching queue s₀ t₀ (s.acquire queue holder) (t.acquire queue holder) := by
  obtain ⟨hfst, hleases⟩ := h.alike.leases.acquire holder s.now
  refine ⟨_, _, _, h.left.acquire_eq queue holder, ?_, h.withLeases hleases⟩
  rw [h.right.acquire_eq, h.alike.now_eq, hfst]

theorem renew (h : InStep queue s₀ t₀ s t) (holder : String) :
    Matching queue s₀ t₀ (s.renew queue holder) (t.renew queue holder) := by
  obtain ⟨hfst, hleases⟩ := h.alike.leases.renew holder s.now
  refine ⟨_, _, _, h.left.renew_eq queue holder, ?_, h.withLeases hleases⟩
  rw [h.right.renew_eq, h.alike.now_eq, hfst]

theorem release (h : InStep queue s₀ t₀ s t) (holder : String) :
    Matching queue s₀ t₀ (s.release queue holder) (t.release queue holder) := by
  rw [h.left.release_eq, h.right.release_eq]
  exact (h.withLeases (h.alike.leases.release holder)).matching _

/-! ### Reports and messages -/

theorem report (h : InStep queue s₀ t₀ s t) (id domain : String) (n : Notice) :
    InStep queue s₀ t₀ (s.report id domain n) (t.report id domain n) := by
  rw [h.left.report_eq, h.right.report_eq, h.alike.now_eq, h.alike.clock_eq]
  exact h.record _

theorem reportAll (h : InStep queue s₀ t₀ s t) (id domain : String) (notices : List Notice) :
    InStep queue s₀ t₀ (s.reportAll id domain notices) (t.reportAll id domain notices) := by
  induction notices generalizing s t with
  | nil => exact h
  | cons n notices ih => exact ih (h.report id domain n)

theorem publish (h : InStep queue s₀ t₀ s t) (topic : String) (m : Message) (delay : Option Nat) :
    Matching queue s₀ t₀ (s.publish topic m delay) (t.publish topic m delay) := by
  rw [publish_eq s topic m delay (h.left _), publish_eq t topic m delay (h.right _)]
  refine (h.withChannel ?_).matching _
  rw [Channel.onTopic_publish, Channel.onTopic_publish, h.alike.onTopic_eq, h.alike.now_eq]

theorem idFor (h : InStep queue s₀ t₀ s t) {id : Option String}
    (hid : id = none → t.nextId = s.nextId) :
    Matching queue s₀ t₀ (s.idFor id) (t.idFor id) := by
  cases id with
  | some id => exact h.matching id
  | none =>
    obtain ⟨n, hs, ht⟩ := h.issued
    refine ⟨s.nextId, { s with issued := s.issued + 1 }, { t with issued := t.issued + 1 }, rfl,
      by rw [Site.idFor, hid rfl],
      { h with
        alike := { h.alike with }
        issued := ⟨n + 1, congrArg (· + 1) hs, congrArg (· + 1) ht⟩ }⟩

theorem trigger (h : InStep queue s₀ t₀ s t) (p : Pipeline) (tasks : TaskList)
    {attributes : Headers}
    (hid : attributes.get? correlationHeader = none → t.nextId = s.nextId) :
    Matching queue s₀ t₀ (s.trigger p tasks attributes) (t.trigger p tasks attributes) := by
  obtain ⟨id, s₁, t₁, hs₁, ht₁, h₁⟩ := h.idFor hid
  obtain ⟨result, s₂, t₂, hs₂, ht₂, h₂⟩ := h₁.publish p.topic
    { attributes := attributes.insert correlationHeader id, payload := tasks.encode } none
  simp only [Site.trigger, hs₁, ht₁, hs₂, ht₂]
  cases result with
  | error e => exact h₂.matching _
  | ok => exact (h₂.report id p.domain _).matching _

/-! ### Iterations -/

theorem carryOut (h : InStep queue s₀ t₀ s t) (i : Nat) (p : Pipeline) (id : String)
    (c : Conclusion) :
    Matching queue s₀ t₀ (s.carryOut i p id c) (t.carryOut i p id c) := by
  have hreport := h.reportAll id p.domain c.notices
  rw [Site.carryOut, Site.carryOut]
  cases c.requeue with
  | none => exact (hreport.record _).matching _
  | some requeue =>
    obtain ⟨m, delay⟩ := requeue
    obtain ⟨result, s₁, t₁, hs₁, ht₁, h₁⟩ :=
      hreport.publish p.topic m (if delay = 0 then none else some delay)
    simp only [hs₁, ht₁]
    cases result with
    | error e => exact h₁.matching _
    | ok => exact (h₁.record _).matching _

theorem noted (h : InStep queue s₀ t₀ s t) (d : Dispatch) :
    InStep queue s₀ t₀ (s.noted d) (t.noted d) := by
  rw [Site.noted, Site.noted]
  split
  · exact h
  · exact h.record _

theorem calling (h : InStep queue s₀ t₀ s t) {i : Nat} {e : Engine σ}
    (hengine : s.engineOn? queue i = some e) (context : Context) (id : String) :
    InStep queue s₀ t₀ (s.calling i e context id) (t.calling i e context id) := by
  refine ((h.reportAll id e.pipeline.domain (Pipeline.startNotices context)).record _).withEngine ?_ _
  rw [engineOn?, Site.record, engines_reportAll]
  exact hengine

theorem beginIteration (h : InStep queue s₀ t₀ s t) {i : Nat} {e : Engine σ} {b : Batch}
    (hengine : s.engineOn? queue i = some e)
    (hid : b.correlationOf? e.pipeline.order = none → t.nextId = s.nextId) :
    Matching queue s₀ t₀ (s.beginIteration i e b) (t.beginIteration i e b) := by
  have hengines := engines_idFor s (b.correlationOf? e.pipeline.order)
  obtain ⟨id, s₁, t₁, hs₁, ht₁, h₁⟩ := h.idFor hid
  rw [hs₁] at hengines
  have hengine₁ : s₁.engineOn? queue i = some e := by
    rw [engineOn?, hengines]
    exact hengine
  rw [beginIteration_eq, beginIteration_eq, hs₁, ht₁]
  cases e.pipeline.choose b id with
  | nothing =>
    obtain ⟨result, s₂, t₂, hs₂, ht₂, h₂⟩ :=
      h₁.carryOut i e.pipeline id (e.pipeline.advance b.tasks b.attributes 0)
    simp only [hs₂, ht₂]
    exact h₂.matching _
  | dispatch context rest =>
    have h₂ := h₁.calling hengine₁ context id
    simp only [h₂.alike.now_eq]
    exact h₂.matching _

theorem endIteration (h : InStep queue s₀ t₀ s t) (d : Dispatch) :
    Matching queue s₀ t₀ (s.endIteration d) (t.endIteration d) := by
  rw [endIteration_eq, endIteration_eq]
  cases d.pipeline.conclude? d.rest (d.context.editAll d.attempt.edits) d.attempt.reply with
  | none => exact (h.noted d).matching _
  | some c =>
    obtain ⟨result, s₁, t₁, hs₁, ht₁, h₁⟩ :=
      (h.noted d).carryOut d.engine d.pipeline d.context.correlationId c
    simp only [hs₁, ht₁]
    exact h₁.matching _

end InStep

/-! ### When an id is handed out -/

theorem issued_lt_trigger {s : Site σ} (hs : s.IsReliable) (p : Pipeline) (tasks : TaskList)
    {attributes : Headers} (hnone : attributes.get? correlationHeader = none) :
    s.issued < (s.trigger p tasks attributes).2.issued := by
  have hgiven : (s.idFor none).2.IsReliable := hs
  rw [trigger, hnone]
  simp only [publish_eq _ _ _ _ (hgiven _)]
  rw [IsReliable.report_eq (by exact hgiven)]
  exact Nat.lt_succ_self s.issued

theorem issued_lt_beginIteration {s : Site σ} (hs : s.IsReliable) {i : Nat} {e : Engine σ}
    {b : Batch} (hengine : s.engines[i]? = some e)
    (hnone : b.correlationOf? e.pipeline.order = none) :
    s.issued < (s.beginIteration i e b).2.issued := by
  -- what comes after the id takes no id back, since it keeps the site in step with itself
  have hstart : InStep e.pipeline.topic (s.idFor none).2 (s.idFor none).2 (s.idFor none).2
      (s.idFor none).2 := .start (.refl _ _) hs hs
  have hlt : s.issued < (s.idFor none).2.issued := Nat.lt_succ_self s.issued
  rw [beginIteration_eq, hnone]
  split
  · obtain ⟨result, u, v, hu, -, hafter⟩ := hstart.carryOut i e.pipeline (s.idFor none).1
      (e.pipeline.advance b.tasks b.attributes 0)
    simp only [hu]
    exact Nat.lt_of_lt_of_le hlt hafter.issued_le
  · next context _ _ =>
    have hafter := hstart.calling (engineOn?_eq_some.2 ⟨hengine, rfl⟩) context (s.idFor none).1
    exact Nat.lt_of_lt_of_le hlt hafter.issued_le

/-! ## What is done about other queues -/

section Aside

variable {queue : String} {s t : Site σ}

theorem Quiet.alike {p : Post} (h : Quiet p s t) (hne : p.topic ≠ queue) : s.Alike queue t := by
  obtain ⟨leases, faults, rfl, hcalls, -⟩ := h
  exact ⟨rfl, rfl, hcalls.alike hne, rfl, fun _ => rfl⟩

theorem alike_channel {channel : Channel}
    (h : channel.onTopic queue = s.channel.onTopic queue) : s.Alike queue { s with channel } :=
  ⟨rfl, rfl, .refl queue s.leases, h, fun _ => rfl⟩

theorem alike_record (queue : String) (s : Site σ) (e : Entry) : s.Alike queue (s.record e) :=
  ⟨rfl, rfl, .refl queue s.leases, rfl, fun _ => rfl⟩

theorem alike_idFor (queue : String) (s : Site σ) (id : Option String) :
    s.Alike queue (s.idFor id).2 := by
  cases id with
  | none => exact ⟨rfl, rfl, .refl queue s.leases, rfl, fun _ => rfl⟩
  | some id => exact .refl queue s

theorem alike_reportAll (hs : s.IsReliable) (queue id domain : String) (notices : List Notice) :
    s.Alike queue (s.reportAll id domain notices) := by
  induction notices generalizing s with
  | nil => exact .refl queue s
  | cons n notices ih =>
    have hreport : s.Alike queue (s.report id domain n) := by
      rw [hs.report_eq]
      exact alike_record queue s _
    exact hreport.trans (ih ((keeps_report s id domain n).isReliable hs))

theorem alike_publish (hs : s.IsReliable) {topic : String} (hne : topic ≠ queue) (m : Message)
    (delay : Option Nat) : s.Alike queue (s.publish topic m delay).2 := by
  rw [publish_eq s topic m delay (hs _)]
  refine alike_channel ?_
  rw [Channel.onTopic_publish, if_neg hne, List.append_nil]

theorem alike_trigger (hs : s.IsReliable) {p : Pipeline} (hne : p.topic ≠ queue)
    (tasks : TaskList) (attributes : Headers) :
    s.Alike queue (s.trigger p tasks attributes).2 := by
  have hid := alike_idFor queue s (attributes.get? correlationHeader)
  have hreliable := (keeps_idFor s (attributes.get? correlationHeader)).isReliable hs
  rw [trigger]
  generalize s.idFor (attributes.get? correlationHeader) = given at hid hreliable ⊢
  obtain ⟨id, t⟩ := given
  have hpublish := hid.trans (alike_publish hreliable hne
    { attributes := attributes.insert correlationHeader id, payload := tasks.encode } none)
  rw [publish_eq _ _ _ _ (hreliable _)] at hpublish
  simp only [publish_eq _ _ _ _ (hreliable _)]
  rw [IsReliable.report_eq (by exact hreliable)]
  exact hpublish.trans (alike_record queue _ _)

theorem alike_carryOut (hs : s.IsReliable) {p : Pipeline} (hne : p.topic ≠ queue) (i : Nat)
    (id : String) (c : Conclusion) : s.Alike queue (s.carryOut i p id c).2 := by
  have hreport := alike_reportAll hs queue id p.domain c.notices
  have hreliable := (keeps_reportAll s id p.domain c.notices).isReliable hs
  rw [carryOut]
  cases c.requeue with
  | none => exact hreport.trans (alike_record queue _ _)
  | some requeue =>
    obtain ⟨m, delay⟩ := requeue
    have hpublish := hreport.trans
      (alike_publish hreliable hne m (if delay = 0 then none else some delay))
    simp only
    rw [publish_eq _ _ _ _ (hreliable _)] at hpublish ⊢
    exact hpublish.trans (alike_record queue _ _)

theorem alike_noted (queue : String) (s : Site σ) (d : Dispatch) : s.Alike queue (s.noted d) := by
  rw [noted]
  split
  · exact .refl queue s
  · exact alike_record queue s _

theorem alike_calling (hs : s.IsReliable) {i : Nat} {e : Engine σ} (hengine : s.engines[i]? = some e)
    (hne : e.pipeline.topic ≠ queue) (context : Context) (id : String) :
    s.Alike queue (s.calling i e context id) := by
  have hreport := (alike_reportAll hs queue id e.pipeline.domain
    (Pipeline.startNotices context)).trans (alike_record queue _ (.dispatch i context))
  have hsame := engines_reportAll s id e.pipeline.domain (Pipeline.startNotices context)
  refine hreport.trans ⟨rfl, rfl, .refl queue _, rfl, fun j => ?_⟩
  -- neither the engine of before nor the one of after is on the queue
  rw [engineOn?, engineOn?, engines_calling, Site.record, hsame, List.getElem?_set]
  by_cases hij : i = j
  · obtain ⟨hlt, -⟩ := List.getElem?_eq_some_iff.1 hengine
    subst hij
    have hneither : ∀ e' : Engine σ, e'.pipeline = e.pipeline →
        (some e').filter (·.pipeline.topic == queue) = none := by
      intro e' he'
      simp [he', hne]
    rw [if_pos rfl, if_pos hlt, hengine, hneither e rfl]
    exact hneither _ rfl
  · rw [if_neg hij]

theorem alike_beginIteration (hs : s.IsReliable) {i : Nat} {e : Engine σ}
    (hengine : s.engines[i]? = some e) (hne : e.pipeline.topic ≠ queue) (b : Batch) :
    s.Alike queue (s.beginIteration i e b).2 := by
  have hid := alike_idFor queue s (b.correlationOf? e.pipeline.order)
  have hreliable := (keeps_idFor s (b.correlationOf? e.pipeline.order)).isReliable hs
  have hengine' := (congrArg (·[i]?) (engines_idFor s (b.correlationOf? e.pipeline.order))).trans
    hengine
  rw [beginIteration_eq]
  split
  · exact hid.trans (alike_carryOut hreliable hne i _ _)
  · exact hid.trans (alike_calling hreliable hengine' hne _ _)

theorem alike_endIteration (hs : s.IsReliable) {d : Dispatch} (hne : d.pipeline.topic ≠ queue) :
    s.Alike queue (s.endIteration d).2 := by
  have hnoted := alike_noted queue s d
  rw [endIteration_eq]
  split
  · exact hnoted
  · exact hnoted.trans (alike_carryOut ((keeps_noted s d).isReliable hs) hne _ _ _)

end Aside

end Site

end TaskRelay
