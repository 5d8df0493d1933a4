import TaskRelay.Proofs.Phase
import TaskRelay.Proofs.TaskList.Keys

/-!
# The order in which tasks are done

Phases are in a linear order, and so are the tasks of a list of distinct units of work (`priority`).
Taking out the next task again and again takes them out in that order: where one task comes before
all others, it is the one that is taken out (`popNext?_of_perm_cons`).
-/

namespace TaskRelay

/-! ## Tasks -/

namespace TaskList

variable {order : PhaseOrder} {a b t u : Task}

/-- Tasks in flight come before the others. -/
def byFlight (a b : Task) : Ordering :=
  Ord.compare b.isInFlight a.isInFlight

def byPhase (order : PhaseOrder) (a b : Task) : Ordering :=
  order.compare a.phase b.phase

instance : Std.OrientedCmp byFlight where
  eq_swap := Std.OrientedOrd.eq_swap

instance : Std.TransCmp byFlight where
  isLE_trans hab hbc := Std.TransOrd.isLE_trans hbc hab

instance (order : PhaseOrder) : Std.OrientedCmp (byPhase order) where
  eq_swap := order.compare_swap _ _

instance (order : PhaseOrder) : Std.TransCmp (byPhase order) where
  isLE_trans {a b c} hab hbc :=
    order.isLE_trans (a := a.phase) (b := b.phase) (c := c.phase) hab hbc

instance (order : PhaseOrder) : Std.TransCmp (priority order) :=
  inferInstanceAs
    (Std.TransCmp (compareLex (compareLex byFlight (byPhase order)) (compareOn Task.destination)))

theorem priority_swap (order : PhaseOrder) (a b : Task) :
    priority order a b = (priority order b a).swap :=
  Std.OrientedCmp.eq_swap

theorem key_eq_of_priority_eq (h : priority order a b = .eq) : a.key = b.key := by
  obtain ⟨h, hdestination⟩ := Ordering.then_eq_eq.1 h
  obtain ⟨-, hphase⟩ := Ordering.then_eq_eq.1 h
  rw [Task.key, Task.key, PhaseOrder.eq_of_compare_eq hphase,
    Std.LawfulEqCmp.eq_of_compare hdestination]

/-- A task that is put back stays before the tasks before which it has been. -/
theorem priority_of_isInFlight {back : Task} (hkey : back.key = t.key)
    (hflight : back.isInFlight = true) (h : priority order t u = .lt) :
    priority order back u = .lt := by
  obtain ⟨hphase, hdestination⟩ := TaskKey.mk.inj hkey
  rw [priority, hphase, hdestination, hflight]
  rw [priority] at h
  cases ht : t.isInFlight with
  | true =>
    rw [ht] at h
    exact h
  | false =>
    -- no task in flight comes after one that is not
    cases hu : u.isInFlight with
    | true =>
      rw [ht, hu] at h
      cases h
    | false => rfl

/-- The next task comes before all others, or it has the same place as some of them. -/
theorem isLE_of_popTask? {tasks rest : List Task} (h : popTask? order tasks = some (t, rest)) :
    ∀ u ∈ rest, (priority order t u).isLE = true := by
  induction tasks generalizing t rest with
  | nil => cases h
  | cons v tasks ih =>
    rw [popTask?] at h
    cases hpop : popTask? order tasks with
    | none =>
      rw [hpop] at h
      cases h
      exact fun u hu => absurd hu List.not_mem_nil
    | some found =>
      obtain ⟨next, others⟩ := found
      have hothers := ih hpop
      obtain ⟨before, after, htasks, hsplit, -⟩ := popTask?_split hpop
      rw [hpop] at h
      simp only at h
      split at h
      · next hlt =>
        cases h
        intro u hu
        rcases List.mem_cons.1 hu with rfl | hu
        · rw [hlt]
          rfl
        · exact hothers u hu
      · next hnot =>
        cases h
        have hnext : (priority order v next).isLE = true := by
          rw [priority_swap]
          revert hnot
          cases priority order next v <;> simp
        intro u hu
        rw [htasks, List.mem_append, List.mem_cons] at hu
        have hmem : u = next ∨ u ∈ others := by
          rw [hsplit, List.mem_append]
          exact or_left_comm.1 hu
        rcases hmem with rfl | hmem
        · exact hnext
        · exact Std.TransCmp.isLE_trans hnext (hothers u hmem)

theorem isLE_of_popNext? {l rest : TaskList} (h : l.popNext? order = some (t, rest)) :
    ∀ u ∈ rest.tasks, (priority order t u).isLE = true := by
  obtain ⟨⟨u, others⟩, hpop, heq⟩ := Option.map_eq_some_iff.1 h
  cases heq
  exact isLE_of_popTask? hpop

/-- A task that comes before all others is taken out next. -/
theorem popNext?_of_perm_cons {l : TaskList} {later : List Task} (h : l.tasks.Perm (u :: later))
    (hfirst : ∀ v ∈ later, priority order u v = .lt) :
    ∃ rest, l.popNext? order = some (u, rest) ∧ rest.tasks.Perm later := by
  cases hpop : popTask? order l.tasks with
  | none =>
    rw [popTask?_eq_none_iff.1 hpop] at h
    exact absurd h.symm.eq_nil (List.cons_ne_nil _ _)
  | some found =>
    obtain ⟨t, rest⟩ := found
    have hle := isLE_of_popTask? hpop
    obtain ⟨before, after, hl, hrest, -⟩ := popTask?_split hpop
    have hperm : (t :: rest).Perm (u :: later) := by
      rw [hrest]
      rw [hl] at h
      exact List.perm_middle.symm.trans h
    have ht : t = u := by
      rcases List.mem_cons.1 (hperm.subset List.mem_cons_self) with heq | hlater
      · exact heq
      · have hlt := hfirst t hlater
        rcases List.mem_cons.1 (hperm.symm.subset List.mem_cons_self) with heq | hu
        · exact heq.symm
        · have hswap := hle u hu
          rw [priority_swap, hlt] at hswap
          cases hswap
    subst ht
    exact ⟨⟨rest⟩, by rw [popNext?, hpop]; rfl, hperm.cons_inv⟩

/-! ## All tasks in their order -/

/-- The tasks in the order in which they are done: those in flight first, then by phase, then by
destination. -/
def inOrder (order : PhaseOrder) (l : TaskList) : List Task :=
  l.tasks.mergeSort fun a b => (priority order a b).isLE

theorem inOrder_perm (order : PhaseOrder) (l : TaskList) : (l.inOrder order).Perm l.tasks :=
  List.mergeSort_perm _ _

theorem isLE_total (order : PhaseOrder) (a b : Task) :
    ((priority order a b).isLE || (priority order b a).isLE) = true := by
  rw [priority_swap order b]
  cases priority order a b <;> rfl

theorem inOrder_of_pairwise {l : TaskList}
    (h : l.tasks.Pairwise fun a b => (priority order a b).isLE = true) :
    l.inOrder order = l.tasks :=
  List.mergeSort_of_pairwise h

/-- Of distinct units of work in their order, each one comes before all later ones. -/
theorem pairwise_lt_of_isLE {tasks : List Task} (hnodup : (tasks.map Task.key).Nodup)
    (h : tasks.Pairwise fun a b => (priority order a b).isLE = true) :
    tasks.Pairwise fun a b => priority order a b = .lt := by
  refine (h.and (List.pairwise_map.1 hnodup)).imp ?_
  rintro a b ⟨hle, hne⟩
  rcases Ordering.isLE_iff_eq_lt_or_eq_eq.1 hle with hlt | heq
  · exact hlt
  · exact absurd (key_eq_of_priority_eq heq) hne

theorem pairwise_inOrder {l : TaskList} (h : l.Distinct) :
    (l.inOrder order).Pairwise fun a b => priority order a b = .lt :=
  pairwise_lt_of_isLE (((inOrder_perm order l).map Task.key).nodup_iff.2 h)
    (List.pairwise_mergeSort (fun _ _ _ => Std.TransCmp.isLE_trans) (isLE_total order) l.tasks)

/-! ## Taking out one task after the other -/

theorem drainTasks_perm (order : PhaseOrder) (tasks : List Task) :
    (drainTasks order tasks).Perm tasks := by
  fun_induction drainTasks order tasks with
  | case1 tasks hpop => rw [popTask?_eq_none_iff.1 hpop]
  | case2 tasks t rest hpop ih =>
    obtain ⟨before, after, htasks, rfl, -⟩ := popTask?_split hpop
    rw [htasks]
    exact (ih.cons t).trans List.perm_middle.symm

theorem pairwise_isLE_drainTasks (order : PhaseOrder) (tasks : List Task) :
    (drainTasks order tasks).Pairwise fun a b => (priority order a b).isLE = true := by
  fun_induction drainTasks order tasks with
  | case1 tasks hpop => exact List.Pairwise.nil
  | case2 tasks t rest hpop ih =>
    refine List.pairwise_cons.2 ⟨fun u hu => ?_, ih⟩
    exact isLE_of_popTask? hpop u ((drainTasks_perm order rest).subset hu)

/-- Taking out the next task again and again takes out all of them. -/
theorem drain_perm (order : PhaseOrder) (l : TaskList) : (l.drain order).Perm l.tasks :=
  drainTasks_perm order l.tasks

theorem pairwise_drain {l : TaskList} (h : l.Distinct) :
    (l.drain order).Pairwise fun a b => priority order a b = .lt :=
  pairwise_lt_of_isLE (((drain_perm order l).map Task.key).nodup_iff.2 h)
    (pairwise_isLE_drainTasks order l.tasks)

end TaskList

end TaskRelay
