import Mathlib.Data.List.Induction
import TaskRelay.Phase

/-!
# The order of phases

A table is made by putting one phase after the other behind those that it has, so it lists the given
names without their repetitions (`phases_ofList`), and since its phases are distinct, the place that
is kept for a phase is the one where it stands (`rank?_eq_some_iff`).  No two phases share a place, so
comparing by places, and by names where there are none, is a linear order of all phases, whatever the
table lists.
-/

namespace TaskRelay.PhaseOrder

variable {order : PhaseOrder} {a b phase : Phase} {i j place : Nat}

/-! ## Places -/

theorem rank?_eq_some_iff : order.rank? phase = some place ↔ order.phases[place]? = some phase := by
  rw [rank?_eq_idxOf?, List.idxOf?_eq_some_iff, List.getElem?_eq_some_iff]
  constructor
  · rintro ⟨hlt, hat, -⟩
    exact ⟨hlt, hat⟩
  · rintro ⟨hlt, hat⟩
    refine ⟨hlt, hat, fun before hbefore heq => ?_⟩
    have hsame : before = place := (List.getElem_inj order.nodup).1 (heq.trans hat.symm)
    exact Nat.ne_of_lt hbefore hsame

theorem exists_rank?_of_mem (h : phase ∈ order.phases) : ∃ place, order.rank? phase = some place :=
  Option.ne_none_iff_exists'.1 fun hnone => rank?_eq_none_iff.1 hnone h

theorem eq_of_rank?_eq (ha : order.rank? a = some i) (hb : order.rank? b = some i) : a = b :=
  Option.some.inj ((rank?_eq_some_iff.1 ha).symm.trans (rank?_eq_some_iff.1 hb))

/-! ## Tables that are put together -/

theorem phases_push (order : PhaseOrder) (phase : Phase) :
    (order.push phase).phases =
      if phase ∈ order.phases then order.phases else order.phases ++ [phase] := by
  rw [push]
  by_cases hnew : order.rank? phase = none
  · rw [dif_pos hnew, if_neg (rank?_eq_none_iff.1 hnew)]
  · rw [dif_neg hnew, if_pos (Decidable.not_not.1 (mt rank?_eq_none_iff.2 hnew))]

/-- A table lists the names it is made of in their order, each where it occurs first. -/
theorem phases_ofList (names : List Phase) : (ofList names).phases = names.eraseDups := by
  induction names using List.reverseRecOn with
  | nil => rfl
  | append_singleton names name ih =>
    have hpush : ofList (names ++ [name]) = (ofList names).push name := by
      rw [ofList, List.foldl_append]
      rfl
    rw [hpush, phases_push, ih, List.eraseDups_append]
    by_cases hmem : name ∈ names
    · have hnone : [name].removeAll names = [] := by simp [List.removeAll, hmem]
      rw [if_pos (List.mem_eraseDups.2 hmem), hnone, List.eraseDups_nil, List.append_nil]
    · have hone : [name].removeAll names = [name] := by simp [List.removeAll, hmem]
      rw [if_neg (mt List.mem_eraseDups.1 hmem), hone]
      rfl

theorem mem_phases_ofList {names : List Phase} : phase ∈ (ofList names).phases ↔ phase ∈ names := by
  rw [phases_ofList, List.mem_eraseDups]

/-! ## Comparing -/

theorem compare_of_rank? (ha : order.rank? a = some i) (hb : order.rank? b = some j) :
    order.compare a b = Ord.compare i j := by
  simp only [compare, ha, hb]

theorem compare_of_mem_of_not_mem (ha : a ∈ order.phases) (hb : b ∉ order.phases) :
    order.compare a b = .lt := by
  obtain ⟨place, hplace⟩ := exists_rank?_of_mem ha
  simp only [compare, hplace, rank?_eq_none_iff.2 hb]

theorem compare_of_not_mem (ha : a ∉ order.phases) (hb : b ∉ order.phases) :
    order.compare a b = Ord.compare a b := by
  simp only [compare, rank?_eq_none_iff.2 ha, rank?_eq_none_iff.2 hb]

theorem compare_swap (order : PhaseOrder) (a b : Phase) :
    order.compare a b = (order.compare b a).swap := by
  unfold compare
  cases order.rank? a <;> cases order.rank? b
  · exact Std.OrientedOrd.eq_swap
  · rfl
  · rfl
  · exact Std.OrientedOrd.eq_swap

instance (order : PhaseOrder) : Std.OrientedCmp order.compare where
  eq_swap := compare_swap order _ _

instance (order : PhaseOrder) : Std.TransCmp order.compare where
  isLE_trans {a b c} hab hbc := by
    cases hb : order.rank? b with
    | none =>
      -- a phase that is not listed is followed by others of that kind only
      cases hc : order.rank? c with
      | some k =>
        simp only [compare, hb, hc] at hbc
        cases hbc
      | none =>
        cases ha : order.rank? a with
        | some i => simp only [compare, ha, hc, Ordering.isLE]
        | none =>
          simp only [compare, ha, hb, hc] at hab hbc ⊢
          exact Std.TransOrd.isLE_trans hab hbc
    | some j =>
      -- and one that is listed only comes after others that are
      cases ha : order.rank? a with
      | none =>
        simp only [compare, ha, hb] at hab
        cases hab
      | some i =>
        cases hc : order.rank? c with
        | none => simp only [compare, ha, hc, Ordering.isLE]
        | some k =>
          simp only [compare, ha, hb, hc] at hab hbc ⊢
          exact Std.TransOrd.isLE_trans hab hbc

theorem isLE_trans (order : PhaseOrder) {a b c : Phase}
    (hab : (order.compare a b).isLE = true) (hbc : (order.compare b c).isLE = true) :
    (order.compare a c).isLE = true :=
  Std.TransCmp.isLE_trans hab hbc

theorem eq_of_compare_eq (h : order.compare a b = .eq) : a = b := by
  cases ha : order.rank? a <;> cases hb : order.rank? b <;> simp only [compare, ha, hb] at h
  · exact Std.LawfulEqCmp.eq_of_compare h
  · cases h
  · cases h
  · next i j =>
    have hij : i = j := Std.LawfulEqCmp.eq_of_compare h
    exact eq_of_rank?_eq ha (hij ▸ hb)

instance (order : PhaseOrder) : Std.LawfulEqCmp order.compare where
  eq_of_compare := eq_of_compare_eq

/-! ## Names -/

/-- The numbers of the characters of a name. -/
def codePoints (name : Phase) : List Nat :=
  name.toList.map Char.toNat

theorem map_toNat_lt_iff {cs ds : List Char} :
    cs.map Char.toNat < ds.map Char.toNat ↔ cs < ds := by
  induction cs generalizing ds with
  | nil => cases ds <;> simp
  | cons c cs ih =>
    cases ds with
    | nil => simp
    | cons d ds =>
      rw [List.map_cons, List.map_cons, List.cons_lt_cons_iff, List.cons_lt_cons_iff, ih,
        Char.toNat_inj, Char.lt_def, UInt32.lt_iff_toNat_lt]
      rfl

/-- Names are in the order of their code points. -/
theorem compare_eq_lt_iff_codePoints {a b : Phase} :
    Ord.compare a b = .lt ↔ codePoints a < codePoints b := by
  rw [codePoints, codePoints, map_toNat_lt_iff, ← String.lt_iff]
  exact compareOfLessAndEq_eq_lt

/-- **Phases are in a linear order.**  Whatever names a table is made of, it lists them without the
later repetitions and keeps for each its position in that list.  Comparing by it tells any two phases
apart, is antisymmetric and transitive; it goes by the positions of the phases that are listed, puts
these before all others, and goes by code points among the others. -/
theorem compare_linear (names : List Phase) :
    let order := ofList names
    order.phases = names.eraseDups ∧
      (∀ phase place, order.rank? phase = some place ↔ order.phases[place]? = some phase) ∧
      (∀ a b, order.compare a b = .eq ↔ a = b) ∧
      (∀ a b, order.compare a b = (order.compare b a).swap) ∧
      (∀ a b c, (order.compare a b).isLE = true → (order.compare b c).isLE = true →
        (order.compare a c).isLE = true) ∧
      (∀ (a b : Phase) (i j : Nat), order.phases[i]? = some a → order.phases[j]? = some b →
        order.compare a b = Ord.compare i j) ∧
      (∀ a b, a ∈ names → b ∉ names → order.compare a b = .lt) ∧
      ∀ a b, a ∉ names → b ∉ names →
        (order.compare a b = .lt ↔ codePoints a < codePoints b) := by
  intro order
  have hequal : ∀ a b, order.compare a b = .eq ↔ a = b := fun _ _ =>
    Std.LawfulEqCmp.compare_eq_iff_eq
  refine ⟨phases_ofList names, fun _ _ => rank?_eq_some_iff, hequal, compare_swap order,
    fun _ _ _ => isLE_trans order, fun a b i j ha hb => ?_, fun a b ha hb => ?_,
    fun a b ha hb => ?_⟩
  · exact compare_of_rank? (rank?_eq_some_iff.2 ha) (rank?_eq_some_iff.2 hb)
  · exact compare_of_mem_of_not_mem (mem_phases_ofList.2 ha) (mt mem_phases_ofList.1 hb)
  · rw [compare_of_not_mem (mt mem_phases_ofList.1 ha) (mt mem_phases_ofList.1 hb),
      compare_eq_lt_iff_codePoints]

/-- A table made of names one of which is repeated.  Capital letters come before small ones. -/
theorem compare_linear_repeated :
    let order := ofList ["INDEX", "DOWNLOAD", "INDEX"]
    order.phases = ["INDEX", "DOWNLOAD"] ∧ order.rank? "DOWNLOAD" = some 1 ∧
      order.compare "INDEX" "DOWNLOAD" = .lt ∧ order.compare "DOWNLOAD" "Zip" = .lt ∧
      (order.compare "INDEX" "Zip").isLE = true ∧ order.compare "Zip" "archive" = .lt := by
  intro order
  obtain ⟨hphases, hrank, -, -, htrans, hlisted, hmixed, hunlisted⟩ :=
    compare_linear ["INDEX", "DOWNLOAD", "INDEX"]
  have hfirst : order.compare "INDEX" "DOWNLOAD" = .lt := hlisted _ _ 0 1 rfl rfl
  have hlast : order.compare "DOWNLOAD" "Zip" = .lt := hmixed _ _ (by decide) (by decide)
  refine ⟨hphases, (hrank _ _).2 rfl, hfirst, hlast, ?_, ?_⟩
  · exact htrans _ _ _ (by rw [hfirst]; rfl) (by rw [hlast]; rfl)
  · exact (hunlisted _ _ (by decide) (by decide)).2 (by decide)

end TaskRelay.PhaseOrder
