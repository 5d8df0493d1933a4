import TaskRelay.Proofs.Site.Journal
import TaskRelay.Proofs.Worker.Alike

/-!
# Pipelines do not get in each other's way

What is done about one queue in a crew can be done there alone, with nobody at any other queue: the
same deeds, each at the same instant, bring about the same calls of steps, events and continuations
(`Crew.runs_alone`).  Where every engine has a topic of its own, a queue is one pipeline.

Each deed either concerns the queue or it does not.  If not, whoever consumes the queue cannot make
out that anything has happened (`Crew.alike_of_perform?`).  If so, the deed can be done alone and keeps
both sites in step (`Crew.exists_perform?`).  Time passes for everybody; those who are alone never
have to stop it earlier, because a worker wakes at the same instant at both sites.
-/

namespace TaskRelay

variable {σ : Type}

/-! ## Some entries of a list -/

section Filter

variable {α : Type} {p : α → Bool} {l : List α} {j : Nat} {a b : α}

/-- An entry that is kept comes after those before it that are kept. -/
theorem getElem?_filter_countP (h : l[j]? = some b) (hb : p b = true) :
    (l.filter p)[(l.take j).countP p]? = some b := by
  induction l generalizing j with
  | nil => cases h
  | cons x l ih =>
    cases j with
    | zero =>
      cases h
      simp [hb]
    | succ j =>
      have hrest := ih (by simpa using h)
      cases hx : p x <;> simpa [List.filter_cons, List.countP_cons, hx] using hrest

theorem filter_set_countP (h : l[j]? = some b) (hb : p b = true) (ha : p a = true) :
    (l.set j a).filter p = (l.filter p).set ((l.take j).countP p) a := by
  induction l generalizing j with
  | nil => cases h
  | cons x l ih =>
    cases j with
    | zero =>
      cases h
      simp [ha, hb]
    | succ j =>
      have hrest := ih (by simpa using h)
      cases hx : p x <;> simpa [List.filter_cons, List.countP_cons, hx] using hrest

theorem filter_set_of_neg (h : l[j]? = some b) (hb : p b = false) (ha : p a = false) :
    (l.set j a).filter p = l.filter p := by
  induction l generalizing j with
  | nil => rfl
  | cons x l ih =>
    cases j with
    | zero =>
      cases h
      simp [ha, hb]
    | succ j =>
      have hrest := ih (by simpa using h)
      cases hx : p x <;> simpa [List.filter_cons, hx] using hrest

theorem modify_eq_set {f : α → α} (h : l[j]? = some b) : l.modify j f = l.set j (f b) := by
  have : Inhabited α := ⟨b⟩
  rw [List.modify_eq_set, h, Option.getD_some]

theorem sublist_flatMap_filter {β : Type} (p : α → Bool) (f : α → List β) (l : List α) :
    ((l.filter p).flatMap f).Sublist (l.flatMap f) := by
  induction l with
  | nil => exact List.Sublist.refl _
  | cons x l ih =>
    rw [List.flatMap_cons, List.filter_cons]
    cases p x with
    | false => exact ih.trans (List.sublist_append_right _ _)
    | true => exact ih.append_left (f x)

/-- What is left out does not count if it has nothing of what is looked for. -/
theorem filter_flatMap_filter {β : Type} {f : α → List β} {q : β → Bool}
    (h : ∀ x ∈ l, p x = false → ∀ y ∈ f x, q y = false) :
    ((l.filter p).flatMap f).filter q = (l.flatMap f).filter q := by
  induction l with
  | nil => rfl
  | cons x l ih =>
    have hrest := ih fun x hx => h x (List.mem_cons_of_mem _ hx)
    rw [List.flatMap_cons, List.filter_append, ← hrest, List.filter_cons]
    cases hx : p x with
    | false =>
      have hnone : (f x).filter q = [] :=
        List.filter_eq_nil_iff.2 fun y hy => by
          rw [h x List.mem_cons_self hx y hy]
          exact Bool.false_ne_true
      rw [hnone]
      rfl
    | true =>
      rw [if_pos rfl, List.flatMap_cons, List.filter_append]

end Filter

/-! ## What concerns a queue -/

def Worker.isOn (queue : String) (w : Worker) : Bool :=
  w.post.topic == queue

/-- Whether an errand is about a queue: it starts a run of a pipeline there, publishes there, or sees
to the lease. -/
def Errand.concerns (queue : String) (s : Site σ) : Errand → Bool
  | .trigger i _ _ => (s.engineOn? queue i).isSome
  | .publish topic _ _ => topic == queue
  | .lease _ other _ => other == queue
  | .fail _ _ => false

namespace Crew

/-- The workers of a queue. -/
def on (queue : String) (c : Crew σ) : List Worker :=
  c.workers.filter (·.isOn queue)

/-- Whether a deed is about a queue.  That time passes concerns everybody. -/
def concerns (queue : String) (c : Crew σ) : Deed → Bool
  | .move j | .tellToStop j => (c.workers[j]?).any (·.isOn queue)
  | .errand e => e.concerns queue c.site
  | .pass _ => true
  | .join w => w.isOn queue

/-- Where a worker stands among those of the queue. -/
def seat (queue : String) (c : Crew σ) (j : Nat) : Nat :=
  (c.workers.take j).countP (·.isOn queue)

/-- What a deed is where there are no workers but those of the queue. -/
def reseat (queue : String) (c : Crew σ) : Deed → Deed
  | .move j => .move (c.seat queue j)
  | .tellToStop j => .tellToStop (c.seat queue j)
  | d => d

end Crew

/-- The next ids that a site will hand out are known. -/
def Site.Supplies (s : Site σ) (ids : List String) : Prop :=
  ∀ k id, ids[k]? = some id → s.ids (s.issued + 1 + k) = id

theorem Site.Supplies.left {s : Site σ} {first more : List String} (h : s.Supplies (first ++ more)) :
    s.Supplies first := fun k id hk => by
  obtain ⟨hlt, -⟩ := List.getElem?_eq_some_iff.1 hk
  exact h k id ((List.getElem?_append_left hlt).trans hk)

theorem Site.Supplies.right {s t : Site σ} {first more : List String}
    (h : s.Supplies (first ++ more)) (hids : t.ids = s.ids)
    (hissued : t.issued = s.issued + first.length) : t.Supplies more := fun k id hk => by
  have hid := h (first.length + k) id (by
    rw [List.getElem?_append_right (Nat.le_add_right _ _), Nat.add_sub_cancel_left, hk])
  rw [hids, hissued, ← hid]
  congr 1
  omega

/-- A deed that has been done, with the crew before and after it. -/
structure Doing (σ : Type) where
  before : Crew σ
  deed : Deed
  after : Crew σ

namespace Doing

def concerns (queue : String) (x : Doing σ) : Bool :=
  x.before.concerns queue x.deed

def reseat (queue : String) (x : Doing σ) : Deed :=
  x.before.reseat queue x.deed

/-- What has come onto the journal, with the instants. -/
def entries (x : Doing σ) : List (Nat × Entry) :=
  x.after.site.since x.before.site

/-- The ids that have been handed out. -/
def ids (x : Doing σ) : List String :=
  (List.range (x.after.site.issued - x.before.site.issued)).map fun k =>
    x.before.site.ids (x.before.site.issued + 1 + k)

theorem length_ids (x : Doing σ) :
    x.ids.length = x.after.site.issued - x.before.site.issued := by
  rw [ids, List.length_map, List.length_range]

theorem head_ids {x : Doing σ} (h : x.before.site.issued < x.after.site.issued) :
    x.ids[0]? = some x.before.site.nextId := by
  rw [ids, List.getElem?_map, List.getElem?_range (Nat.sub_pos_of_lt h)]
  rfl

end Doing

namespace Crew

def doings (c : Crew σ) : List Deed → List (Doing σ)
  | [] => []
  | d :: deeds =>
    match c.perform? d with
    | none => []
    | some after => { before := c, deed := d, after } :: after.doings deeds

/-- What is done about a queue. -/
def doingsAt (queue : String) (c : Crew σ) (deeds : List Deed) : List (Doing σ) :=
  (c.doings deeds).filter (·.concerns queue)

/-- The deeds about a queue, as they are where nobody is at any other queue. -/
def deedsAt (queue : String) (c : Crew σ) (deeds : List Deed) : List Deed :=
  (c.doingsAt queue deeds).map (·.reseat queue)

/-- The calls of steps, events and continuations that come of it. -/
def entriesAt (queue : String) (c : Crew σ) (deeds : List Deed) : List (Nat × Entry) :=
  (c.doingsAt queue deeds).flatMap Doing.entries

/-- The ids that are handed out for it. -/
def idsAt (queue : String) (c : Crew σ) (deeds : List Deed) : List String :=
  (c.doingsAt queue deeds).flatMap Doing.ids

variable {c c' a : Crew σ} {queue : String} {d : Deed}

/-! ## Orderly crews -/

/-- Nothing fails, and every worker is at the topic of its engine, with what comes from there in its
hands. -/
structure IsOrderly (c : Crew σ) : Prop where
  reliable : c.site.IsReliable
  employs (w : Worker) : w ∈ c.workers → c.site.employs w.post = true
  hands (w : Worker) : w ∈ c.workers → w.hands.IsAt w.post

theorem isOrderly_of_perform? (h : c.perform? d = some c') (hfail : ∀ o, d.fails o = false)
    (hc : c.IsOrderly) : c'.IsOrderly := by
  have hworkers : ∀ w' ∈ c'.workers, c.site.employs w'.post = true ∧ w'.hands.IsAt w'.post := by
    intro w' hw'
    obtain ⟨j, hj⟩ := List.mem_iff_getElem?.1 hw'
    rcases origin_of_worker h hj with ⟨w, hw, ⟨-, hmove⟩ | ⟨-, rfl | rfl⟩⟩ | ⟨rfl, -⟩
    · have hmem := List.mem_of_getElem? hw
      obtain ⟨hpost, -, hturn⟩ := Worker.turn hmove
      rw [hpost]
      exact ⟨hc.employs w hmem, hturn.isAt (hc.employs w hmem) (hc.hands w hmem)⟩
    · have hmem := List.mem_of_getElem? hw
      exact ⟨hc.employs w' hmem, hc.hands w' hmem⟩
    · have hmem := List.mem_of_getElem? hw
      rw [Worker.post_tellToStop, Worker.hands_tellToStop]
      exact ⟨hc.employs w hmem, hc.hands w hmem⟩
    · obtain ⟨-, hnew, hemploys⟩ := perform?_join h
      rw [Worker.hands_eq_nothing_of_isNew hnew]
      exact ⟨hemploys, nofun⟩
  refine ⟨fun o => faults_of_perform? h (hc.reliable o) (hfail o), fun w' hw' => ?_,
    fun w' hw' => (hworkers w' hw').2⟩
  rw [Site.employs, roles_of_perform? h]
  exact (hworkers w' hw').1

end Crew

/-! ## What an errand writes -/

theorem Errand.writes_perform (e : Errand) (i : Nat) (s : Site σ) :
    Site.Writes i s (e.perform s).2 := by
  cases e with
  | trigger j tasks attributes =>
    rw [perform]
    split
    · exact .refl i s
    · exact Site.writes_trigger i s _ tasks attributes
  | publish topic m delay => exact Site.writes_publish i s topic m delay
  | lease call queue holder => exact (quiet_perform_lease call queue holder s).writes i
  | fail o n => exact .of_journal_eq rfl

/-! ## Deeds that do not concern the queue -/

theorem Errand.alike_perform {queue : String} {s : Site σ} {e : Errand} (hs : s.IsReliable)
    (hconcerns : e.concerns queue s = false) (hfail : ∀ o, (Deed.errand e).fails o = false) :
    s.Alike queue (e.perform s).2 := by
  cases e with
  | trigger i tasks attributes =>
    rw [perform]
    split
    · exact .refl queue s
    · next e he =>
      refine Site.alike_trigger hs (fun htopic => ?_) tasks attributes
      rw [concerns, Site.engineOn?_eq_some.2 ⟨he, htopic⟩] at hconcerns
      cases hconcerns
  | publish topic m delay => exact Site.alike_publish hs (ne_of_beq_false hconcerns) m delay
  | lease call other holder =>
    exact (quiet_perform_lease call other holder s).alike (ne_of_beq_false hconcerns)
  | fail o n =>
    have ho := hfail o
    simp [Deed.fails] at ho

namespace Crew

variable {c c' a : Crew σ} {queue : String} {d : Deed}

/-- What does not concern a queue cannot be made out there. -/
theorem alike_of_perform? (h : c.perform? d = some c') (hc : c.IsOrderly)
    (hfail : ∀ o, d.fails o = false) (hconcerns : c.concerns queue d = false) :
    c.site.Alike queue c'.site ∧ c'.on queue = c.on queue := by
  cases d with
  | move j =>
    obtain ⟨w, w', hw, hmove, hworkers⟩ := perform?_move h
    obtain ⟨hpost, -, hturn⟩ := Worker.turn hmove
    have hmem := List.mem_of_getElem? hw
    have hoff : w.isOn queue = false := by
      rw [concerns, hw] at hconcerns
      exact hconcerns
    have hoff' : w'.isOn queue = false := by
      rw [Worker.isOn, hpost]
      exact hoff
    refine ⟨hturn.alike hc.reliable (hc.employs w hmem) (hc.hands w hmem) (ne_of_beq_false hoff), ?_⟩
    rw [on, hworkers, filter_set_of_neg hw hoff hoff', on]
  | errand e =>
    cases h
    exact ⟨Errand.alike_perform hc.reliable hconcerns hfail, rfl⟩
  | pass instant => cases hconcerns
  | join w =>
    obtain ⟨rfl, -⟩ := perform?_join h
    have hoff : w.isOn queue = false := hconcerns
    refine ⟨.refl queue c.site, ?_⟩
    simp [on, hoff]
  | tellToStop j =>
    cases h
    refine ⟨.refl queue c.site, ?_⟩
    cases hw : c.workers[j]? with
    | none => rw [on, List.modify_eq_self (List.getElem?_eq_none_iff.1 hw), on]
    | some w =>
      have hoff : w.isOn queue = false := by
        rw [concerns, hw] at hconcerns
        exact hconcerns
      have hoff' : w.tellToStop.isOn queue = false := by
        rw [Worker.isOn, Worker.post_tellToStop]
        exact hoff
      rw [on, modify_eq_set hw, filter_set_of_neg hw hoff hoff', on]

end Crew

/-! ## Deeds that concern the queue -/

theorem Errand.inStep_perform {queue : String} {s₀ t₀ s t : Site σ} {e : Errand}
    (h : Site.InStep queue s₀ t₀ s t) (hconcerns : e.concerns queue s = true)
    (hid : (e.perform s).2.issued ≠ s.issued → t.nextId = s.nextId) :
    Site.InStep queue s₀ t₀ (e.perform s).2 (e.perform t).2 := by
  cases e with
  | trigger i tasks attributes =>
    obtain ⟨e, he⟩ := Option.isSome_iff_exists.1 hconcerns
    have hs := (Site.engineOn?_eq_some.1 he).1
    have ht := (Site.engineOn?_eq_some.1 ((h.alike.engineOn?_eq i).trans he)).1
    have hsite : ∀ u : Site σ, u.engines[i]? = some e →
        (perform (.trigger i tasks attributes) u).2 = (u.trigger e.pipeline tasks attributes).2 := by
      intro u hu
      rw [perform, hu]
    rw [hsite s hs] at hid ⊢
    rw [hsite t ht]
    exact (h.trigger e.pipeline tasks fun hnone =>
      hid (Nat.ne_of_gt (Site.issued_lt_trigger h.left e.pipeline tasks hnone))).inStep
  | publish topic m delay => exact (h.publish topic m delay).inStep
  | lease call other holder =>
    cases eq_of_beq hconcerns
    cases call with
    | acquire => exact (h.acquire holder).inStep
    | renew => exact (h.renew holder).inStep
    | release => exact (h.release holder).inStep
  | fail o n => cases hconcerns

namespace Crew

variable {c c' a : Crew σ} {queue : String} {d : Deed}

/-- A crew without anybody at another queue, who cannot tell its site from that of the whole crew. -/
structure IsAlone (queue : String) (c a : Crew σ) : Prop where
  alike : c.site.Alike queue a.site
  reliable : a.site.IsReliable
  workers_eq : a.workers = c.on queue

/-- A deed that concerns a queue can be done alone, and the same comes of it. -/
theorem exists_perform? (h : c.perform? d = some c') (hc : c.IsOrderly) (ha : c.IsAlone queue a)
    (hconcerns : c.concerns queue d = true)
    (hid : c'.site.issued ≠ c.site.issued → a.site.nextId = c.site.nextId) :
    ∃ a', a.perform? (c.reseat queue d) = some a' ∧
      Site.InStep queue c.site a.site c'.site a'.site ∧ a'.workers = c'.on queue := by
  have hstart := Site.InStep.start ha.alike hc.reliable ha.reliable
  cases d with
  | move j =>
    obtain ⟨w, w', hw, hmove, hworkers⟩ := perform?_move h
    have hon : w.isOn queue = true := by
      rw [concerns, hw] at hconcerns
      exact hconcerns
    have hon' : w'.isOn queue = true := by
      rw [Worker.isOn, (Worker.turn hmove).1]
      exact hon
    have hseat : a.workers[c.seat queue j]? = some w := by
      rw [ha.workers_eq]
      exact getElem?_filter_countP hw hon
    cases eq_of_beq hon
    rcases Worker.matching_move? hstart (hc.employs w (List.mem_of_getElem? hw)) (by
        intro r hr
        cases hmove.symm.trans hr
        exact hid) with ⟨hnone, -⟩ | ⟨v, s₁, t₁, hs₁, ht₁, h₁⟩
    · cases hmove.symm.trans hnone
    · cases hmove.symm.trans hs₁
      refine ⟨{ site := t₁, workers := a.workers.set (c.seat w.post.topic j) w' }, ?_, h₁, ?_⟩
      · rw [reseat, perform?, hseat]
        simp only [ht₁, Option.map_some]
      · rw [on, hworkers, filter_set_countP hw hon hon', ha.workers_eq]
        rfl
  | errand e =>
    cases h
    exact ⟨_, rfl, Errand.inStep_perform hstart hconcerns hid, ha.workers_eq⟩
  | pass instant =>
    obtain ⟨rfl, hle, hwakes⟩ := perform?_pass h
    refine ⟨{ a with site := { a.site with now := instant } }, if_pos ⟨?_, ?_⟩,
      hstart.pass instant, ha.workers_eq⟩
    · rw [ha.alike.now_eq]
      exact hle
    · rw [ha.workers_eq, List.all_eq_true]
      intro w hw
      obtain ⟨hmem, hon⟩ := List.mem_filter.1 hw
      cases eq_of_beq hon
      rw [Worker.wakesAt?_congr ha.alike]
      cases hwake : w.wakesAt? c.site with
      | none => rfl
      | some wake => exact decide_eq_true (hwakes w hmem wake hwake)
  | join w =>
    obtain ⟨rfl, hnew, hemploys⟩ := perform?_join h
    have hon : w.isOn queue = true := hconcerns
    have hposted : a.site.employs w.post = true := by
      cases eq_of_beq hon
      rw [Site.employs_eq_isSome, ha.alike.engineOn?_eq, ← Site.employs_eq_isSome]
      exact hemploys
    refine ⟨{ a with workers := a.workers ++ [w] }, if_pos ⟨hnew, hposted⟩, hstart, ?_⟩
    rw [on, List.filter_append, ha.workers_eq, on]
    simp [hon]
  | tellToStop j =>
    cases h
    refine ⟨_, rfl, hstart, ?_⟩
    obtain ⟨w, hw, hon⟩ := (Option.any_eq_true _ _).1 hconcerns
    have hon' : w.tellToStop.isOn queue = true := by
      rw [Worker.isOn, Worker.post_tellToStop]
      exact hon
    have hseat : a.workers[c.seat queue j]? = some w := by
      rw [ha.workers_eq]
      exact getElem?_filter_countP hw hon
    rw [on, modify_eq_set hw, modify_eq_set hseat, filter_set_countP hw hon hon', ha.workers_eq]
    rfl

/-! ## Whole runs -/

variable {last : Crew σ} {deeds : List Deed}

/-- Ids are not taken back: this is what the deed comes to without the others. -/
theorem issued_le_of_perform? (h : c.perform? d = some c') (hc : c.IsOrderly)
    (hconcerns : c.concerns queue d = true) : c.site.issued ≤ c'.site.issued := by
  have hself : c.IsAlone queue { site := c.site, workers := c.on queue } :=
    ⟨.refl queue c.site, hc.reliable, rfl⟩
  obtain ⟨_, _, hstep, _⟩ := exists_perform? h hc hself hconcerns fun _ => rfl
  exact hstep.issued_le

theorem doingsAt_cons (h : c.perform? d = some c') (queue : String) (deeds : List Deed) :
    c.doingsAt queue (d :: deeds) =
      if c.concerns queue d then { before := c, deed := d, after := c' } :: c'.doingsAt queue deeds
      else c'.doingsAt queue deeds := by
  rw [doingsAt, doings, h]
  exact List.filter_cons

/-- What is done about a queue in a crew can be done alone, and the same comes of it. -/
theorem exists_replay? (h : c.replay? deeds = some last)
    (hfail : ∀ d ∈ deeds, ∀ o, d.fails o = false) (hc : c.IsOrderly) (ha : c.IsAlone queue a)
    (hids : a.site.Supplies (c.idsAt queue deeds)) :
    ∃ alone, a.replay? (c.deedsAt queue deeds) = some alone ∧ last.IsAlone queue alone ∧
      a.site.journal <:+ alone.site.journal ∧
      alone.site.since a.site = c.entriesAt queue deeds := by
  induction deeds generalizing c a with
  | nil =>
    cases h
    exact ⟨a, rfl, ha, List.suffix_refl _, Site.since_self a.site⟩
  | cons d deeds ih =>
    obtain ⟨c', hperform, hrest⟩ := Option.bind_eq_some_iff.1 h
    have hfail' : ∀ d ∈ deeds, ∀ o, d.fails o = false := fun d hd =>
      hfail d (List.mem_cons_of_mem _ hd)
    have hc' := isOrderly_of_perform? hperform (hfail d List.mem_cons_self) hc
    rw [idsAt, doingsAt_cons hperform] at hids
    rw [deedsAt, entriesAt, doingsAt_cons hperform]
    cases hconcerns : c.concerns queue d with
    | false =>
      obtain ⟨halike, hon⟩ := alike_of_perform? hperform hc (hfail d List.mem_cons_self) hconcerns
      rw [hconcerns] at hids
      exact ih hrest hfail' hc' ⟨halike.symm.trans ha.alike, ha.reliable, ha.workers_eq.trans hon.symm⟩
        hids
    | true =>
      rw [hconcerns, if_pos rfl, List.flatMap_cons] at hids
      rw [if_pos rfl, List.map_cons, List.flatMap_cons]
      have hle := issued_le_of_perform? hperform hc hconcerns
      obtain ⟨a', ha', hstep, hworkers⟩ := exists_perform? hperform hc ha hconcerns fun hne =>
        hids.left 0 _ (Doing.head_ids (Nat.lt_of_le_of_ne hle hne.symm))
      obtain ⟨n, hissued, hissued'⟩ := hstep.issued
      obtain ⟨alone, hreplay, halone, hsuffix, hsince⟩ :=
        ih hrest hfail' hc' ⟨hstep.alike, hstep.right, hworkers⟩
          (hids.right hstep.ids_eq (by rw [hissued', Doing.length_ids, hissued, Nat.add_sub_cancel_left]))
      obtain ⟨new, hnew, hnew'⟩ := hstep.journal
      refine ⟨alone, ?_, halone, ?_, ?_⟩
      · show (a.perform? (c.reseat queue d)).bind _ = _
        rw [ha']
        exact hreplay
      · exact List.IsSuffix.trans ⟨new, hnew'.symm⟩ hsuffix
      · rw [Site.since_trans ⟨new, hnew'.symm⟩ hsuffix, hsince, Doing.entries,
          Site.since_eq_reverse hnew', Site.since_eq_reverse hnew]
        rfl

/-! ### Whose entries are in the journal -/

/-- What is written with a deed names the engine of the post of the worker who moves, and no engine
with any other deed. -/
theorem writes_of_perform? (h : c.perform? d = some c') (hc : c.IsOrderly) :
    (∃ j w, d = .move j ∧ c.workers[j]? = some w ∧
        Site.Writes w.post.engine c.site c'.site) ∨
      ∀ i, Site.Writes i c.site c'.site := by
  cases d with
  | move j =>
    obtain ⟨w, w', hw, hmove, -⟩ := perform?_move h
    have hhands := hc.hands w (List.mem_of_getElem? hw)
    exact .inl ⟨j, w, rfl, hw,
      (Worker.turn hmove).2.2.writes fun dispatch hdispatch => (hhands dispatch hdispatch).1⟩
  | errand e =>
    cases h
    exact .inr fun i => e.writes_perform i c.site
  | pass instant =>
    obtain ⟨rfl, -⟩ := perform?_pass h
    exact .inr fun i => .of_journal_eq rfl
  | join w =>
    obtain ⟨rfl, -⟩ := perform?_join h
    exact .inr fun i => .refl i c.site
  | tellToStop j =>
    cases h
    exact .inr fun i => .refl i c.site

theorem isSuffix_of_perform? (h : c.perform? d = some c') (hc : c.IsOrderly) :
    c.site.journal <:+ c'.site.journal := by
  rcases writes_of_perform? h hc with ⟨_, _, -, -, hwrites⟩ | hwrites
  · exact hwrites.isSuffix
  · exact (hwrites 0).isSuffix

/-- With a deed that does not concern a queue no entry names an engine there. -/
theorem engine?_ne_of_perform? (h : c.perform? d = some c') (hc : c.IsOrderly)
    {p : Post} (hconcerns : c.concerns p.topic d = false) (hp : c.site.employs p = true)
    {entry : Nat × Entry} (hentry : entry ∈ c'.site.since c.site) :
    entry.2.engine? ≠ some p.engine := by
  intro hnames
  rcases writes_of_perform? h hc with ⟨j, w, rfl, hw, hwrites⟩ | hwrites
  · have hengine := hwrites.eq_of_mem_since hentry hnames
    obtain ⟨e, he, htopic, -⟩ := Site.engine_of_employs hp
    obtain ⟨e', he', htopic', -⟩ := Site.engine_of_employs (hc.employs w (List.mem_of_getElem? hw))
    rw [hengine] at he
    cases he.symm.trans he'
    rw [concerns, hw] at hconcerns
    exact ne_of_beq_false hconcerns (htopic'.symm.trans htopic)
  · -- an entry that is as good for one engine as for another names none
    exact absurd ((hwrites (p.engine + 1)).eq_of_mem_since hentry hnames)
      (Nat.ne_of_lt (Nat.lt_succ_self _))

/-- What a run leaves in the journal is what comes of its deeds, one after the other. -/
theorem since_of_replay? (h : c.replay? deeds = some last)
    (hfail : ∀ d ∈ deeds, ∀ o, d.fails o = false) (hc : c.IsOrderly) :
    c.site.journal <:+ last.site.journal ∧
      last.site.since c.site = (c.doings deeds).flatMap Doing.entries := by
  induction deeds generalizing c with
  | nil =>
    cases h
    exact ⟨List.suffix_refl _, Site.since_self _⟩
  | cons d deeds ih =>
    obtain ⟨c', hperform, hrest⟩ := Option.bind_eq_some_iff.1 h
    have hsuffix := isSuffix_of_perform? hperform hc
    obtain ⟨hlater, hsince⟩ := ih hrest (fun d hd => hfail d (List.mem_cons_of_mem _ hd))
      (isOrderly_of_perform? hperform (hfail d List.mem_cons_self) hc)
    refine ⟨hsuffix.trans hlater, ?_⟩
    rw [Site.since_trans hsuffix hlater, hsince, doings, hperform]
    rfl

theorem perform?_of_mem_doings (hfail : ∀ d ∈ deeds, ∀ o, d.fails o = false) (hc : c.IsOrderly)
    {x : Doing σ} (hx : x ∈ c.doings deeds) :
    x.before.perform? x.deed = some x.after ∧ x.before.IsOrderly ∧
      x.before.site.roles = c.site.roles := by
  induction deeds generalizing c with
  | nil => cases hx
  | cons d deeds ih =>
    rw [doings] at hx
    split at hx
    · cases hx
    · next c' hperform =>
      have hc' := isOrderly_of_perform? hperform (hfail d List.mem_cons_self) hc
      rcases List.mem_cons.1 hx with rfl | hx
      · exact ⟨hperform, hc, rfl⟩
      · obtain ⟨hx, hbefore, hroles⟩ := ih (fun d hd => hfail d (List.mem_cons_of_mem _ hd)) hc' hx
        exact ⟨hx, hbefore, hroles.trans (roles_of_perform? hperform)⟩

/-- Of all that has been written, what names an engine of a queue comes from what concerns that
queue. -/
theorem filter_entriesAt {p : Post} (hp : c.site.employs p = true)
    (hfail : ∀ d ∈ deeds, ∀ o, d.fails o = false) (hc : c.IsOrderly) :
    (c.entriesAt p.topic deeds).filter (·.2.engine? == some p.engine) =
      ((c.doings deeds).flatMap Doing.entries).filter (·.2.engine? == some p.engine) := by
  refine filter_flatMap_filter fun x hx hconcerns entry hentry => ?_
  obtain ⟨hperform, hbefore, hroles⟩ := perform?_of_mem_doings hfail hc hx
  refine beq_false_of_ne (engine?_ne_of_perform? hperform hbefore hconcerns ?_ hentry)
  rw [Site.employs, hroles]
  exact hp

/-! ## One queue among many -/

/-- **Pipelines do not interfere.**  Take any run at a site with any number of engines and workers,
with whatever triggers, delays and durations.  At a site that is alike for one queue, the deeds that
concern this queue can be done alone, each at the same instant, as long as the same ids are handed
out for them; and what comes of them are exactly the entries that have come of them among the others,
with the same instants and in the same order.  In particular these are all calls of steps and all
continuations of the engines of the queue. -/
theorem runs_alone {s t : Site σ} (hrun : ({ site := s } : Crew σ).replay? deeds = some last)
    (hs : s.IsReliable) (hfail : ∀ d ∈ deeds, ∀ o, d.fails o = false) (ht : t.IsReliable)
    (halike : s.Alike queue t)
    (hids : t.Supplies (({ site := s } : Crew σ).idsAt queue deeds)) :
    ∃ alone, ({ site := t } : Crew σ).replay? (({ site := s } : Crew σ).deedsAt queue deeds) =
        some alone ∧
      alone.site.now = last.site.now ∧
      alone.site.since t = ({ site := s } : Crew σ).entriesAt queue deeds ∧
      (alone.site.since t).Sublist (last.site.since s) ∧
      ∀ i e, s.engines[i]? = some e → e.pipeline.topic = queue →
        (alone.site.since t).filter (·.2.engine? == some i) =
          (last.site.since s).filter (·.2.engine? == some i) := by
  have horderly : ({ site := s } : Crew σ).IsOrderly :=
    ⟨hs, fun _ hw => (List.not_mem_nil hw).elim, fun _ hw => (List.not_mem_nil hw).elim⟩
  obtain ⟨alone, hreplay, halone, -, hsince⟩ := exists_replay? hrun hfail horderly
    (a := { site := t }) ⟨halike, ht, rfl⟩ hids
  have hall := (since_of_replay? hrun hfail horderly).2
  refine ⟨alone, hreplay, halone.alike.now_eq, hsince, ?_, fun i e he htopic => ?_⟩
  · rw [hsince, hall]
    exact sublist_flatMap_filter _ _ _
  · have hemploys : s.employs { engine := i, topic := queue, holder := "", settings := {} } = true := by
      rw [Site.employs_eq_isSome, Site.engineOn?_eq_some.2 ⟨he, htopic⟩]
      rfl
    rw [hsince, hall]
    exact filter_entriesAt hemploys hfail horderly

end Crew

/-! ## Two pipelines at one site -/

namespace Sample

/-- An engine whose step asks to be called again, but only once. -/
def patient (topic : String) (duration delay : Nat) : Engine Nat where
  pipeline := { pipeline with topic, retry := ⟨1, delay⟩ }
  state := 0
  service := {
    supports := fun _ => true
    invoke := fun _ calls =>
      ({ duration, reply := .outcome (if calls = 0 then .reschedule else .done) }, calls + 1) }

def shared : Site Nat :=
  { leases := { ttl := 10 }, ids := Nat.repr, clock := .running 0
    engines := [patient "t" 4 7, patient "u" 2 3] }

/-- The same site without the second pipeline, which has taken the first id. -/
def unshared : Site Nat :=
  { leases := { ttl := 10 }, ids := fun n => (n + 1).repr, clock := .running 0
    engines := [patient "t" 4 7] }

def serverAt (engine : Nat) (topic : String) : Worker :=
  .server {
    post := { engine, topic, holder := "a", settings := { maxMessages := 1, idlePoll := 50 } }
    leaseRetry := 5 }

def load : TaskList :=
  ⟨[{ phase := "load", destination := "d" }]⟩

/-- Each pipeline works while the task of the other one is held back. -/
def overlapping : List Deed :=
  [.join (serverAt 1 "u"), .join (serverAt 0 "t"), .move 0, .move 1, .errand (.trigger 1 load {}),
    .errand (.trigger 0 load {}), .move 0, .move 1, .pass 2, .move 0, .move 0, .pass 4, .move 1,
    .move 1, .pass 5, .move 0, .pass 7, .move 0, .move 0, .pass 11, .move 1, .pass 15, .move 1]

theorem alike_unshared : shared.Alike "t" unshared :=
  ⟨rfl, rfl, .refl _ _, rfl, fun i => by rcases i with _ | _ | i <;> rfl⟩

end Sample

theorem Crew.runs_alone_overlapping :
    ∃ last, ({ site := Sample.shared } : Crew Nat).replay? Sample.overlapping = some last ∧
      ∃ alone, ({ site := Sample.unshared } : Crew Nat).replay?
          (({ site := Sample.shared } : Crew Nat).deedsAt "t" Sample.overlapping) = some alone ∧
        alone.site.now = last.site.now ∧
        alone.site.since Sample.unshared =
          ({ site := Sample.shared } : Crew Nat).entriesAt "t" Sample.overlapping ∧
        (alone.site.since Sample.unshared).Sublist (last.site.since Sample.shared) ∧
        ∀ i e, Sample.shared.engines[i]? = some e → e.pipeline.topic = "t" →
          (alone.site.since Sample.unshared).filter (·.2.engine? == some i) =
            (last.site.since Sample.shared).filter (·.2.engine? == some i) := by
  have hcomputed :
      (({ site := Sample.shared } : Crew Nat).replay? Sample.overlapping).isSome = true ∧
        ({ site := Sample.shared } : Crew Nat).idsAt "t" Sample.overlapping = ["2"] := by
    decide +kernel
  obtain ⟨hrun, hids⟩ := hcomputed
  refine ⟨_, (Option.some_get hrun).symm, Crew.runs_alone (Option.some_get hrun).symm
    (fun _ => rfl) ?_ (fun _ => rfl) Sample.alike_unshared ?_⟩
  · simp [Sample.overlapping, Deed.fails]
  · rw [hids]
    intro k id hk
    cases k with
    | zero => exact Option.some.inj hk
    | succ k => cases hk

end TaskRelay
