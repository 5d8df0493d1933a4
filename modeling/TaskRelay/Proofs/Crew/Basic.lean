import TaskRelay.Proofs.Worker.Turn
import TaskRelay.Scenario

/-!
# Crews

A crew is a site with any number of servers and drains at work there.  What happens is a list of
deeds in any order: a worker makes its next move, somebody does an errand, a worker joins or is told
to stop, or time passes.  Time is free to pass as far as the first instant at which a worker can go
on, and no further, so nobody is ever late.

`Crew.replay?` runs a list of deeds.  What holds of a crew in every state it can come to is shown by
`replay?_induction` from single deeds, and for single moves from `Worker.turn`.
-/

namespace TaskRelay

variable {σ : Type}

/-! ## Workers -/

inductive Worker where
  | server (v : Server)
  | drain (v : Drain)

namespace Worker

def post : Worker → Post
  | .server v => v.post
  | .drain v => v.post

def isServer : Worker → Bool
  | .server _ => true
  | .drain _ => false

def hands : Worker → Hands
  | .server v => v.hands
  | .drain v => v.hands

/-- What the worker does next, or `none` while it can only wait. -/
def move? (w : Worker) (s : Site σ) : Option (Worker × Site σ) :=
  match w with
  | .server v => (v.move? s).map fun (v, s) => (.server v, s)
  | .drain v => (v.move? s).map fun (v, s) => (.drain v, s)

/-- When the worker can go on, if nothing happens around it. -/
def wakesAt? (w : Worker) (s : Site σ) : Option Nat :=
  match w with
  | .server v => v.wakesAt? s
  | .drain v => v.wakesAt? s

def tellToStop : Worker → Worker
  | .server v => .server { v with stopping := true }
  | .drain v => .drain v

/-- Whether the worker has not done anything yet. -/
def isNew : Worker → Bool
  | .server { leading := false, stage := .ready, .. } => true
  | .drain { stage := .ready, .. } => true
  | _ => false

theorem turn {w : Worker} {s : Site σ} {r : Worker × Site σ} (h : w.move? s = some r) :
    r.1.post = w.post ∧ r.1.isServer = w.isServer ∧ Turn w.post s w.hands r.1.hands r.2 := by
  cases w with
  | server v =>
    obtain ⟨r', hmove, rfl⟩ := Option.map_eq_some_iff.1 h
    obtain ⟨hpost, hturn⟩ := Server.turn hmove
    exact ⟨hpost, rfl, hturn⟩
  | drain v =>
    obtain ⟨r', hmove, rfl⟩ := Option.map_eq_some_iff.1 h
    obtain ⟨hpost, hturn⟩ := Drain.turn hmove
    exact ⟨hpost, rfl, hturn⟩

theorem hands_eq_nothing_of_isNew {w : Worker} (h : w.isNew = true) : w.hands = .nothing := by
  cases w with
  | server v =>
    obtain ⟨post, leaseRetry, stopping, leading, stage⟩ := v
    cases leading <;> cases stage <;> first | rfl | cases h
  | drain v =>
    obtain ⟨post, report, stage⟩ := v
    cases stage <;> first | rfl | cases h

theorem post_tellToStop (w : Worker) : w.tellToStop.post = w.post := by
  cases w <;> rfl

theorem isServer_tellToStop (w : Worker) : w.tellToStop.isServer = w.isServer := by
  cases w <;> rfl

theorem hands_tellToStop (w : Worker) : w.tellToStop.hands = w.hands := by
  cases w <;> rfl

end Worker

/-! ## Deeds -/

structure Crew (σ : Type) where
  site : Site σ
  workers : List Worker := []

inductive Deed where
  | move (i : Nat)
  | errand (e : Errand)
  | pass (instant : Nat)
  | join (w : Worker)
  | tellToStop (i : Nat)

namespace Deed

/-- Whether the deed makes calls of a kind fail. -/
def fails (o : Operation) : Deed → Bool
  | .errand (.fail o' _) => o' == o
  | _ => false

/-- Whether somebody who is no worker sees to the lease of a queue under a name. -/
def callsFor (queue holder : String) : Deed → Bool
  | .errand (.lease _ queue' holder') => queue' == queue && holder' == holder
  | _ => false

end Deed

/-- Whether a post is at an engine of the site. -/
def Site.employs (s : Site σ) (p : Post) : Bool :=
  (s.roles[p.engine]?).any fun role => role.1.topic == p.topic

theorem Site.engine_of_employs {p : Post} {s : Site σ} (h : s.employs p = true) :
    ∃ e, s.engines[p.engine]? = some e ∧ e.pipeline.topic = p.topic ∧
      (e.pipeline, e.service) ∈ s.roles := by
  rw [employs, roles, List.getElem?_map, Option.any_map, Option.any_eq_true] at h
  obtain ⟨e, he, htopic⟩ := h
  exact ⟨e, he, eq_of_beq htopic, List.mem_map.2 ⟨e, List.mem_of_getElem? he, rfl⟩⟩

namespace Crew

def perform? (c : Crew σ) : Deed → Option (Crew σ)
  | .move i =>
    match c.workers[i]? with
    | none => none
    | some w => (w.move? c.site).map fun (w, site) => { site, workers := c.workers.set i w }
  | .errand e => some { c with site := (e.perform c.site).2 }
  | .pass instant =>
    if c.site.now ≤ instant ∧
        c.workers.all fun w => (w.wakesAt? c.site).all (instant ≤ ·) then
      some { c with site := { c.site with now := instant } }
    else none
  | .join w =>
    if w.isNew ∧ c.site.employs w.post then some { c with workers := c.workers ++ [w] } else none
  | .tellToStop i => some { c with workers := c.workers.modify i Worker.tellToStop }

def replay? (c : Crew σ) : List Deed → Option (Crew σ)
  | [] => some c
  | d :: deeds => (c.perform? d).bind fun c => c.replay? deeds

theorem replay?_append (c : Crew σ) (first more : List Deed) :
    c.replay? (first ++ more) = (c.replay? first).bind fun c => c.replay? more := by
  induction first generalizing c with
  | nil => rfl
  | cons d first ih =>
    rw [List.cons_append, replay?, replay?, Option.bind_assoc]
    exact congrArg _ (funext ih)

/-- What every deed preserves holds after all of them. -/
theorem replay?_induction {P : Crew σ → Prop} {deeds : List Deed} {c last : Crew σ}
    (h : c.replay? deeds = some last)
    (hstep : ∀ c d c', d ∈ deeds → c.perform? d = some c' →
      (∃ rest, c'.replay? rest = some last) → P c → P c')
    (hc : P c) : P last := by
  induction deeds generalizing c with
  | nil =>
    cases h
    exact hc
  | cons d deeds ih =>
    obtain ⟨next, hnext, hrest⟩ := Option.bind_eq_some_iff.1 h
    exact ih hrest (fun c d c' hd => hstep c d c' (List.mem_cons_of_mem _ hd))
      (hstep c d next List.mem_cons_self hnext ⟨deeds, hrest⟩ hc)

/-! ## Single deeds -/

variable {c c' : Crew σ} {queue : String}

theorem perform?_move {i : Nat} (h : c.perform? (.move i) = some c') :
    ∃ w w', c.workers[i]? = some w ∧ w.move? c.site = some (w', c'.site) ∧
      c'.workers = c.workers.set i w' := by
  rw [perform?] at h
  split at h
  · cases h
  · next w hw =>
    obtain ⟨⟨w', site⟩, hmove, rfl⟩ := Option.map_eq_some_iff.1 h
    exact ⟨w, w', hw, hmove, rfl⟩

theorem perform?_pass {instant : Nat} (h : c.perform? (.pass instant) = some c') :
    c' = { c with site := { c.site with now := instant } } ∧ c.site.now ≤ instant ∧
      ∀ w ∈ c.workers, ∀ wake, w.wakesAt? c.site = some wake → instant ≤ wake := by
  rw [perform?] at h
  split at h
  · next hcond =>
    cases h
    refine ⟨rfl, hcond.1, fun w hw wake hwake => ?_⟩
    have hall := List.all_eq_true.1 hcond.2 w hw
    rw [hwake] at hall
    exact of_decide_eq_true hall
  · cases h

theorem perform?_join {w : Worker} (h : c.perform? (.join w) = some c') :
    c' = { c with workers := c.workers ++ [w] } ∧ w.isNew = true ∧
      c.site.employs w.post = true := by
  rw [perform?] at h
  split at h
  · next hcond =>
    cases h
    exact ⟨rfl, hcond⟩
  · cases h

/-- The only worker of a crew makes its next move. -/
theorem perform?_move_of_move? {s t : Site σ} {w w' : Worker} (h : w.move? s = some (w', t)) :
    ({ site := s, workers := [w] } : Crew σ).perform? (.move 0) =
      some { site := t, workers := [w'] } := by
  show (w.move? s).map _ = _
  rw [h]
  rfl

/-- Time passes as far as the only worker of a crew can wait. -/
theorem perform?_pass_of_wakesAt? {s : Site σ} {w : Worker} {instant wake : Nat}
    (hnow : s.now ≤ instant) (hwakes : w.wakesAt? s = some wake) (hwake : instant ≤ wake) :
    ({ site := s, workers := [w] } : Crew σ).perform? (.pass instant) =
      some { site := { s with now := instant }, workers := [w] } := by
  have hall : ([w].all fun w => (w.wakesAt? s).all (instant ≤ ·)) = true := by
    simp [hwakes, hwake]
  exact if_pos ⟨hnow, hall⟩

/-- Workers stay where they are and at their posts. -/
theorem exists_worker_of_perform? {d : Deed} (h : c.perform? d = some c') {j : Nat} {w : Worker}
    (hw : c.workers[j]? = some w) :
    ∃ w', c'.workers[j]? = some w' ∧ w'.post = w.post ∧ w'.isServer = w.isServer := by
  cases d with
  | move i =>
    obtain ⟨v, v', hv, hmove, hworkers⟩ := perform?_move h
    rw [hworkers, List.getElem?_set]
    by_cases hij : i = j
    · subst hij
      cases hv.symm.trans hw
      obtain ⟨hpost, hserver, -⟩ := Worker.turn hmove
      obtain ⟨hlt, -⟩ := List.getElem?_eq_some_iff.1 hw
      exact ⟨v', by rw [if_pos rfl, if_pos hlt], hpost, hserver⟩
    · exact ⟨w, by rw [if_neg hij, hw], rfl, rfl⟩
  | errand e =>
    cases h
    exact ⟨w, hw, rfl, rfl⟩
  | pass instant =>
    obtain ⟨rfl, -⟩ := perform?_pass h
    exact ⟨w, hw, rfl, rfl⟩
  | join v =>
    obtain ⟨rfl, -⟩ := perform?_join h
    obtain ⟨hlt, -⟩ := List.getElem?_eq_some_iff.1 hw
    exact ⟨w, by rw [List.getElem?_append_left hlt, hw], rfl, rfl⟩
  | tellToStop i =>
    cases h
    by_cases hij : i = j
    · exact ⟨w.tellToStop, by simp [hij, hw], w.post_tellToStop, w.isServer_tellToStop⟩
    · exact ⟨w, by simp [hij, hw], rfl, rfl⟩

theorem exists_worker_of_replay? {deeds : List Deed} (h : c.replay? deeds = some c') {j : Nat}
    {w : Worker} (hw : c.workers[j]? = some w) :
    ∃ w', c'.workers[j]? = some w' ∧ w'.post = w.post ∧ w'.isServer = w.isServer := by
  refine replay?_induction
    (P := fun c => ∃ w', c.workers[j]? = some w' ∧ w'.post = w.post ∧ w'.isServer = w.isServer)
    h ?_ ⟨w, hw, rfl, rfl⟩
  rintro c d c' - hperform - ⟨v, hv, hpost, hserver⟩
  obtain ⟨v', hv', hpost', hserver'⟩ := exists_worker_of_perform? hperform hv
  exact ⟨v', hv', hpost'.trans hpost, hserver'.trans hserver⟩

def Consumes (c : Crew σ) (queue : String) (j : Nat) (w : Worker) : Prop :=
  c.workers[j]? = some w ∧ w.post.topic = queue

theorem Consumes.later {deeds : List Deed} {j : Nat} {w : Worker} (h : c.replay? deeds = some c')
    (hw : c.Consumes queue j w) :
    ∃ w', c'.Consumes queue j w' ∧ w'.post = w.post ∧ w'.isServer = w.isServer := by
  obtain ⟨w', hw', hpost, hserver⟩ := exists_worker_of_replay? h hw.1
  exact ⟨w', ⟨hw', hpost ▸ hw.2⟩, hpost, hserver⟩

/-- Where a worker comes from: it was there before, and has moved, has been told to stop or has
done nothing, or it has just joined. -/
theorem origin_of_worker {d : Deed} (h : c.perform? d = some c') {j : Nat} {w' : Worker}
    (hw' : c'.workers[j]? = some w') :
    (∃ w, c.workers[j]? = some w ∧
      ((d = .move j ∧ w.move? c.site = some (w', c'.site)) ∨
        (d ≠ .move j ∧ (w' = w ∨ w' = w.tellToStop)))) ∨
    (d = .join w' ∧ c.workers[j]? = none) := by
  cases d with
  | move i =>
    obtain ⟨v, v', hv, hmove, hworkers⟩ := perform?_move h
    rw [hworkers, List.getElem?_set] at hw'
    by_cases hij : i = j
    · subst hij
      obtain ⟨hlt, -⟩ := List.getElem?_eq_some_iff.1 hv
      rw [if_pos rfl, if_pos hlt] at hw'
      cases hw'
      exact .inl ⟨v, hv, .inl ⟨rfl, hmove⟩⟩
    · rw [if_neg hij] at hw'
      exact .inl ⟨w', hw', .inr ⟨fun hd => hij (Deed.move.inj hd), .inl rfl⟩⟩
  | errand e =>
    cases h
    exact .inl ⟨w', hw', .inr ⟨nofun, .inl rfl⟩⟩
  | pass instant =>
    obtain ⟨rfl, -⟩ := perform?_pass h
    exact .inl ⟨w', hw', .inr ⟨nofun, .inl rfl⟩⟩
  | join v =>
    obtain ⟨rfl, -⟩ := perform?_join h
    rw [List.getElem?_append] at hw'
    split at hw'
    · exact .inl ⟨w', hw', .inr ⟨nofun, .inl rfl⟩⟩
    · next hlength =>
      rw [List.getElem?_singleton] at hw'
      split at hw'
      · cases hw'
        exact .inr ⟨rfl, List.getElem?_eq_none (Nat.le_of_not_lt hlength)⟩
      · cases hw'
  | tellToStop i =>
    cases h
    rw [List.getElem?_modify] at hw'
    obtain ⟨w, hw, heq⟩ := Option.map_eq_some_iff.1 hw'
    refine .inl ⟨w, hw, .inr ⟨nofun, ?_⟩⟩
    split at heq
    · exact .inr heq.symm
    · exact .inl heq.symm

end Crew

/-! ## Errands -/

namespace Errand

theorem quiet_perform_lease (call : LeaseCall) (queue holder : String) (s : Site σ) :
    Site.Quiet { engine := 0, topic := queue, holder, settings := {} } s
      (perform (.lease call queue holder) s).2 := by
  cases call with
  | acquire => exact Site.quiet_acquire { engine := 0, topic := queue, holder, settings := {} } s
  | renew => exact Site.quiet_renew { engine := 0, topic := queue, holder, settings := {} } s
  | release => exact Site.quiet_release { engine := 0, topic := queue, holder, settings := {} } s

/-- An errand brings up faults, or sees to one lease under one name, or it leaves leases and faults
alone. -/
theorem perform_cases (e : Errand) (s : Site σ) :
    (∃ o n, e = .fail o n ∧ (e.perform s).2 = s.failNext o n) ∨
      (∃ call p, e = .lease call p.topic p.holder ∧ Site.Quiet p s (e.perform s).2) ∨
      Site.Keeps s (e.perform s).2 := by
  cases e with
  | trigger engine tasks attributes =>
    refine .inr (.inr ?_)
    rw [perform]
    split
    · exact .refl s
    · exact Site.keeps_trigger s _ tasks attributes
  | publish topic m delay => exact .inr (.inr (Site.keeps_publish s topic m delay))
  | lease call queue holder =>
    exact .inr (.inl ⟨call, { engine := 0, topic := queue, holder, settings := {} }, rfl,
      quiet_perform_lease call queue holder s⟩)
  | fail o n => exact .inl ⟨o, n, rfl, rfl⟩

end Errand

/-! ## What a deed does to the site -/

namespace Crew

variable {c c' : Crew σ} {d : Deed}

/-- Somebody at a post tends the site, a worker or one who runs an errand, or nothing is done about
clock, leases and faults, or an errand brings up faults, or time passes. -/
theorem site_of_perform? (h : c.perform? d = some c') :
    (∃ p, Site.Tends p c.site c'.site ∧
        ((∃ i w, d = .move i ∧ c.workers[i]? = some w ∧ w.post = p) ∨
          ∃ call, d = .errand (.lease call p.topic p.holder))) ∨
      Site.Keeps c.site c'.site ∨
      (∃ o n, d = .errand (.fail o n) ∧ c'.site = c.site.failNext o n) ∨
      ∃ instant, d = .pass instant ∧ c.site.now ≤ instant ∧
        c'.site = { c.site with now := instant } := by
  cases d with
  | move i =>
    obtain ⟨w, w', hw, hmove, -⟩ := perform?_move h
    exact .inl ⟨w.post, (Worker.turn hmove).2.2.tends, .inl ⟨i, w, rfl, hw, rfl⟩⟩
  | errand e =>
    cases h
    rcases e.perform_cases c.site with ⟨o, n, rfl, heq⟩ | ⟨call, p, rfl, hquiet⟩ | hkeeps
    · exact .inr (.inr (.inl ⟨o, n, rfl, heq⟩))
    · exact .inl ⟨p, hquiet.tends, .inr ⟨call, rfl⟩⟩
    · exact .inr (.inl hkeeps)
  | pass instant =>
    obtain ⟨rfl, hle, -⟩ := perform?_pass h
    exact .inr (.inr (.inr ⟨instant, rfl, hle, rfl⟩))
  | join w =>
    obtain ⟨rfl, -⟩ := perform?_join h
    exact .inr (.inl (.refl c.site))
  | tellToStop i =>
    cases h
    exact .inr (.inl (.refl c.site))

theorem now_eq_of_perform? (h : c.perform? d = some c') (hd : ∀ instant, d ≠ .pass instant) :
    c'.site.now = c.site.now := by
  rcases site_of_perform? h with
    ⟨p, htends, -⟩ | hkeeps | ⟨o, n, -, hsite⟩ | ⟨instant, hpass, -⟩
  · exact htends.now_eq
  · exact hkeeps.now_eq
  · rw [hsite, Site.failNext]
  · exact absurd hpass (hd instant)

theorem now_le_of_perform? (h : c.perform? d = some c') : c.site.now ≤ c'.site.now := by
  by_cases hpass : ∃ instant, d = .pass instant
  · obtain ⟨instant, rfl⟩ := hpass
    obtain ⟨rfl, hle, -⟩ := perform?_pass h
    exact hle
  · exact Nat.le_of_eq (now_eq_of_perform? h fun instant hd => hpass ⟨instant, hd⟩).symm

theorem roles_of_perform? (h : c.perform? d = some c') : c'.site.roles = c.site.roles := by
  rcases site_of_perform? h with
    ⟨p, htends, -⟩ | hkeeps | ⟨o, n, -, hsite⟩ | ⟨instant, -, -, hsite⟩
  · exact htends.roles_eq
  · exact hkeeps.roles_eq
  · rw [hsite, Site.roles, Site.failNext, Site.roles]
  · rw [hsite, Site.roles, Site.roles]

theorem ttl_of_perform? (h : c.perform? d = some c') :
    c'.site.leases.ttl = c.site.leases.ttl := by
  rcases site_of_perform? h with
    ⟨p, htends, -⟩ | hkeeps | ⟨o, n, -, hsite⟩ | ⟨instant, -, -, hsite⟩
  · exact htends.calls.ttl_eq
  · rw [hkeeps.leases_eq]
  · rw [hsite, Site.failNext]
  · rw [hsite]

theorem ttl_of_replay? {deeds : List Deed} (h : c.replay? deeds = some c') :
    c'.site.leases.ttl = c.site.leases.ttl :=
  replay?_induction (P := fun next => next.site.leases.ttl = c.site.leases.ttl) h
    (fun _ _ _ _ hperform _ httl => (ttl_of_perform? hperform).trans httl) rfl

/-- Only an errand that says so makes calls of a kind fail. -/
theorem faults_of_perform? {o : Operation} (h : c.perform? d = some c')
    (hfaults : c.site.faults o = 0) (hd : d.fails o = false) : c'.site.faults o = 0 := by
  rcases site_of_perform? h with
    ⟨p, htends, -⟩ | hkeeps | ⟨o', n, rfl, hsite⟩ | ⟨instant, -, -, hsite⟩
  · exact Nat.le_zero.1 (hfaults ▸ htends.faults_le o)
  · exact hkeeps.faults_eq_zero hfaults
  · have hne : o ≠ o' := fun hoo' => by simp [Deed.fails, hoo'] at hd
    rw [hsite, Site.failNext]
    exact (if_neg hne).trans hfaults
  · rw [hsite]
    exact hfaults

section Leases

variable {queue : String} {lease : Lease}

/-- Neither a worker nor somebody else sees to a lease under its holder's name. -/
theorem not_tends_of_perform? {p : Post}
    (hmove : ∀ i w, d = .move i → c.workers[i]? = some w → w.post.topic = queue →
      w.post.holder ≠ lease.holder)
    (herrand : d.callsFor queue lease.holder = false)
    (hp : (∃ i w, d = .move i ∧ c.workers[i]? = some w ∧ w.post = p) ∨
      ∃ call, d = .errand (.lease call p.topic p.holder)) :
    queue = p.topic → lease.holder ≠ p.holder := by
  rintro rfl hholder
  rcases hp with ⟨i, w, hd, hw, rfl⟩ | ⟨call, rfl⟩
  · exact hmove i w hd hw rfl hholder.symm
  · simp [Deed.callsFor, hholder] at herrand

/-- A live lease outlasts every deed but those of its holder. -/
theorem get?_of_perform? (h : c.perform? d = some c')
    (hlease : c.site.leases.get? queue = some lease) (hlive : c.site.now < lease.expires)
    (hmove : ∀ i w, d = .move i → c.workers[i]? = some w → w.post.topic = queue →
      w.post.holder ≠ lease.holder)
    (herrand : d.callsFor queue lease.holder = false) :
    c'.site.leases.get? queue = some lease := by
  rcases site_of_perform? h with
    ⟨p, htends, hp⟩ | hkeeps | ⟨o, n, -, hsite⟩ | ⟨instant, -, -, hsite⟩
  · exact htends.calls.get?_eq hlease hlive (not_tends_of_perform? hmove herrand hp)
  · rw [hkeeps.leases_eq]
    exact hlease
  · rw [hsite]
    exact hlease
  · rw [hsite]
    exact hlease

/-- A lease comes about by the deeds of its holder only. -/
theorem get?_of_get?_perform? (h : c.perform? d = some c')
    (hlease : c'.site.leases.get? queue = some lease)
    (hmove : ∀ i w, d = .move i → c.workers[i]? = some w → w.post.topic = queue →
      w.post.holder ≠ lease.holder)
    (herrand : d.callsFor queue lease.holder = false) :
    c.site.leases.get? queue = some lease := by
  rcases site_of_perform? h with
    ⟨p, htends, hp⟩ | hkeeps | ⟨o, n, -, hsite⟩ | ⟨instant, -, -, hsite⟩
  · exact htends.calls.get?_of_get?_eq hlease (not_tends_of_perform? hmove herrand hp)
  · rwa [hkeeps.leases_eq] at hlease
  · rwa [hsite] at hlease
  · rwa [hsite] at hlease

end Leases

end Crew

/-! ## A small crew -/

namespace Sample

def server (holder : String) (settings : CollectionSettings) : Worker :=
  .server { post := post holder settings, leaseRetry := 5 }

end Sample

end TaskRelay
