import TaskRelay.Proofs.TaskList.Priority

/-!
# Taking tasks out one by one sorts them

A stable sort puts tasks in their order and leaves tasks of the same place as they stood
(`IsStableSort`).  There is only one such sort of a list (`IsStableSort.unique`), and taking out the
next task again and again is it, whether or not the units of work are distinct
(`drain_isStableSort`): the task that is taken out stood before all others of its place.
-/

namespace TaskRelay.TaskList

variable {order : PhaseOrder} {tasks : List Task}

/-- The tasks of a list that have the same place as a given one. -/
def tiedWith (order : PhaseOrder) (t : Task) (tasks : List Task) : List Task :=
  tasks.filter fun u => priority order t u = .eq

structure IsStableSort (order : PhaseOrder) (tasks sorted : List Task) : Prop where
  perm : sorted.Perm tasks
  pairwise : sorted.Pairwise fun a b => (priority order a b).isLE = true
  tiedWith_eq : ∀ t, tiedWith order t sorted = tiedWith order t tasks

/-! ## Stable sorts -/

theorem priority_self (order : PhaseOrder) (t : Task) : priority order t t = .eq :=
  Std.ReflCmp.compare_self

theorem tiedWith_cons_self (order : PhaseOrder) (t : Task) (tasks : List Task) :
    tiedWith order t (t :: tasks) = t :: tiedWith order t tasks :=
  List.filter_cons_of_pos (decide_eq_true (priority_self order t))

/-- What comes first in a sorted list comes before all tasks of the list, or has their place. -/
theorem isLE_of_mem_cons {a u : Task}
    (h : (a :: tasks).Pairwise fun a b => (priority order a b).isLE = true) (hu : u ∈ a :: tasks) :
    (priority order a u).isLE = true := by
  rcases List.mem_cons.1 hu with rfl | hu
  · rw [priority_self]
    rfl
  · exact (List.pairwise_cons.1 h).1 u hu

/-- Two sorted lists of the same tasks are equal if tasks of the same place stand in the same order in
both. -/
theorem eq_of_tiedWith_eq {sorted sorted' : List Task} (hperm : sorted.Perm sorted')
    (h : sorted.Pairwise fun a b => (priority order a b).isLE = true)
    (h' : sorted'.Pairwise fun a b => (priority order a b).isLE = true)
    (htied : ∀ t, tiedWith order t sorted = tiedWith order t sorted') : sorted = sorted' := by
  induction sorted generalizing sorted' with
  | nil => exact hperm.symm.eq_nil.symm
  | cons a rest ih =>
    cases sorted' with
    | nil => exact hperm.eq_nil
    | cons b rest' =>
      -- the two first tasks have the same place, and each is the first of it in its list
      have hab := isLE_of_mem_cons h (hperm.symm.subset List.mem_cons_self)
      have hba := isLE_of_mem_cons h' (hperm.subset List.mem_cons_self)
      have heq : priority order a b = .eq := Std.OrientedCmp.isLE_antisymm hab hba
      have hfirst := htied a
      rw [tiedWith_cons_self, tiedWith, tiedWith, List.filter_cons_of_pos (by simpa using heq)] at hfirst
      obtain ⟨rfl, -⟩ := List.cons.inj hfirst
      rw [ih hperm.cons_inv h.of_cons h'.of_cons]
      intro t
      have hrest := htied t
      rw [tiedWith, tiedWith, List.filter_cons, List.filter_cons] at hrest
      split at hrest
      · exact (List.cons.inj hrest).2
      · exact hrest

theorem IsStableSort.unique {sorted sorted' : List Task} (h : IsStableSort order tasks sorted)
    (h' : IsStableSort order tasks sorted') : sorted = sorted' :=
  eq_of_tiedWith_eq (h.perm.trans h'.perm.symm) h.pairwise h'.pairwise
    fun t => (h.tiedWith_eq t).trans (h'.tiedWith_eq t).symm

theorem pairwise_tiedWith (order : PhaseOrder) (t : Task) (tasks : List Task) :
    (tiedWith order t tasks).Pairwise fun a b => (priority order a b).isLE = true := by
  refine List.pairwise_of_forall_mem_list fun a ha b hb => ?_
  have hta := of_decide_eq_true (List.mem_filter.1 ha).2
  have htb := of_decide_eq_true (List.mem_filter.1 hb).2
  rw [Std.TransCmp.eq_trans (Std.OrientedCmp.eq_symm hta) htb]
  rfl

theorem inOrder_isStableSort (order : PhaseOrder) (l : TaskList) :
    IsStableSort order l.tasks (l.inOrder order) where
  perm := inOrder_perm order l
  pairwise :=
    List.pairwise_mergeSort (fun _ _ _ => Std.TransCmp.isLE_trans) (isLE_total order) l.tasks
  tiedWith_eq t := by
    have hsub : (tiedWith order t l.tasks).Sublist (l.inOrder order) :=
      List.sublist_mergeSort (fun _ _ _ => Std.TransCmp.isLE_trans) (isLE_total order)
        (pairwise_tiedWith order t l.tasks) List.filter_sublist
    have htied := hsub.filter fun u => priority order t u = .eq
    rw [tiedWith, List.filter_filter] at htied
    simp only [Bool.and_self] at htied
    exact (htied.eq_of_length ((inOrder_perm order l).filter _).length_eq.symm).symm

/-! ## Taking tasks out -/

/-- Taking out the next task leaves the order among tasks of the same place as it is. -/
theorem tiedWith_of_popTask? {t : Task} {rest : List Task}
    (h : popTask? order tasks = some (t, rest)) (u : Task) :
    tiedWith order u tasks = tiedWith order u (t :: rest) := by
  obtain ⟨before, after, rfl, rfl, hbefore⟩ := popTask?_split h
  by_cases hut : priority order u t = .eq
  · have hnone : tiedWith order u before = [] := by
      refine List.filter_eq_nil_iff.2 fun v hv => ?_
      rw [Std.TransCmp.congr_left hut, hbefore v hv]
      decide
    rw [tiedWith, tiedWith, List.filter_append, List.filter_cons_of_pos (by simpa using hut),
      List.filter_cons_of_pos (by simpa using hut), List.filter_append, ← tiedWith, hnone]
    rfl
  · rw [tiedWith, tiedWith, List.filter_append, List.filter_cons_of_neg (by simpa using hut),
      List.filter_cons_of_neg (by simpa using hut), List.filter_append]

theorem tiedWith_drainTasks (order : PhaseOrder) (t : Task) (tasks : List Task) :
    tiedWith order t (drainTasks order tasks) = tiedWith order t tasks := by
  fun_induction drainTasks order tasks with
  | case1 tasks hpop => rw [popTask?_eq_none_iff.1 hpop]
  | case2 tasks next rest hpop ih =>
    rw [tiedWith_of_popTask? hpop, tiedWith, tiedWith, List.filter_cons, List.filter_cons,
      ← tiedWith, ← tiedWith, ih]

theorem drain_isStableSort (order : PhaseOrder) (l : TaskList) :
    IsStableSort order l.tasks (l.drain order) where
  perm := drain_perm order l
  pairwise := pairwise_isLE_drainTasks order l.tasks
  tiedWith_eq t := tiedWith_drainTasks order t l.tasks

theorem drain_eq_inOrder (order : PhaseOrder) (l : TaskList) : l.drain order = l.inOrder order :=
  (drain_isStableSort order l).unique (inOrder_isStableSort order l)

theorem drain_of_popNext? {l rest : TaskList} {t : Task}
    (h : l.popNext? order = some (t, rest)) : l.drain order = t :: rest.drain order := by
  obtain ⟨⟨u, others⟩, hpop, heq⟩ := Option.map_eq_some_iff.1 h
  cases heq
  rw [drain, drainTasks]
  split
  · next hnone => cases hnone.symm.trans hpop
  · next hsome =>
    cases hsome.symm.trans hpop
    rfl

theorem drain_of_popNext?_eq_none {l : TaskList} (h : l.popNext? order = none) :
    l.drain order = [] :=
  (popNext?_eq_none_iff.1 h ▸ drain_perm order l).eq_nil

/-- Of distinct units of work the order in which they came does not matter. -/
theorem drain_eq_of_perm {l other : TaskList} (h : l.Distinct) (hperm : l.tasks.Perm other.tasks)
    (order : PhaseOrder) : l.drain order = other.drain order := by
  have hother : other.Distinct := (hperm.map Task.key).nodup_iff.1 h
  refine List.Perm.eq_of_pairwise ?_ (pairwise_drain h) (pairwise_drain hother)
    ((drain_perm order l).trans (hperm.trans (drain_perm order other).symm))
  intro a b _ _ hab hba
  rw [priority_swap, hba] at hab
  cases hab

/-- **The order in which tasks are done is a stable sort.**  Each task that is taken out leaves the
others as they are and in their places, and of distinct units of work the order in which they came
does not matter. -/
theorem drain_sorts (order : PhaseOrder) (l : TaskList) :
    l.drain order = l.tasks.mergeSort (fun a b => (priority order a b).isLE) ∧
      IsStableSort order l.tasks (l.drain order) ∧
      (match l.popNext? order with
        | none => l.tasks = [] ∧ l.drain order = []
        | some (t, rest) => l.drain order = t :: rest.drain order ∧
            ∃ before after, l.tasks = before ++ t :: after ∧ rest.tasks = before ++ after) ∧
      (l.Distinct → ∀ other : TaskList, l.tasks.Perm other.tasks →
        other.drain order = l.drain order) := by
  refine ⟨drain_eq_inOrder order l, drain_isStableSort order l, ?_,
    fun h other hperm => (drain_eq_of_perm h hperm order).symm⟩
  split
  · next hpop => exact ⟨popNext?_eq_none_iff.1 hpop, drain_of_popNext?_eq_none hpop⟩
  · next t rest hpop =>
    obtain ⟨before, after, hl, hrest, -⟩ := popNext?_split hpop
    exact ⟨drain_of_popNext? hpop, before, after, hl, hrest⟩

/-- A task in flight, one of a listed phase, and two of a phase that is not listed. -/
def assorted : TaskList :=
  ⟨[{ phase := "DEPLOY", subStep := 1, destination := "a" },
    { phase := "DOWNLOAD", destination := "b" },
    { phase := "TIDY", destination := "c" },
    { phase := "TIDY", destination := "d" }]⟩

theorem drain_sorts_assorted :
    assorted.Distinct ∧ assorted.tasks.Perm assorted.tasks.reverse ∧
      drain .standard ⟨assorted.tasks.reverse⟩ = assorted.tasks := by
  obtain ⟨hsort, -, -, hperm⟩ := drain_sorts .standard assorted
  have hdistinct : assorted.Distinct := by decide
  have hreverse := (List.reverse_perm assorted.tasks).symm
  refine ⟨hdistinct, hreverse, ?_⟩
  rw [hperm hdistinct ⟨assorted.tasks.reverse⟩ hreverse, hsort]
  exact List.mergeSort_of_pairwise (by decide +kernel)

end TaskRelay.TaskList
