import TaskRelay.Proofs.TaskList.Merging
import TaskRelay.Proofs.TaskList.Priority

/-!
# Work that has begun is not interrupted

The task that is taken out of a list comes before all others.  If it is put back in flight, it comes
before them all the more (`Leads`), and merging lists without any task in flight leaves it so: their
tasks are ahead of nothing, so they are added where their unit of work is new and ignored otherwise
(`mergeTask_of_not_isInFlight`).  However much is merged in the meantime, the task is the one that is
taken out next (`popNext?_resumed`).
-/

namespace TaskRelay

namespace Task

/-- How work on a task goes on: it is put back, or its next sub-step is to be done. -/
inductive Resumes (t : Task) : Task → Prop
  | retry {back : Task} (hkey : back.key = t.key) (hcounter : 0 < back.loopCounter) : Resumes t back
  | nextSubStep (h : t.subStep.toNat + 1 < UInt32.size) : Resumes t t.nextSubStep

theorem Resumes.key_eq {t back : Task} (h : t.Resumes back) : back.key = t.key := by
  cases h with
  | retry hkey => exact hkey
  | nextSubStep => rfl

theorem Resumes.isInFlight {t back : Task} (h : t.Resumes back) : back.isInFlight = true := by
  rw [Task.isInFlight, Bool.or_eq_true]
  cases h with
  | retry hkey hcounter => exact .inr (decide_eq_true hcounter)
  | nextSubStep hstep =>
    refine .inl (decide_eq_true ?_)
    rw [UInt32.lt_iff_toNat_lt]
    show 0 < (t.subStep + 1).toNat
    rw [UInt32.toNat_add, UInt32.toNat_one, Nat.mod_eq_of_lt hstep]
    exact Nat.succ_pos _

/-- A task that is not in flight is ahead of no other. -/
theorem rank_eq_zero {t : Task} (h : t.isInFlight = false) : t.progress.rank = 0 := by
  rw [isInFlight, Bool.or_eq_false_iff, isStarted, decide_eq_false_iff_not,
    decide_eq_false_iff_not] at h
  obtain ⟨hstep, hcounter⟩ := h
  rw [UInt32.lt_iff_toNat_lt, Nat.not_lt] at hstep hcounter
  rw [Progress.rank, progress, Nat.le_zero.1 hstep, Nat.le_zero.1 hcounter, Nat.zero_mul]

end Task

namespace TaskList

variable {order : PhaseOrder} {l rest : TaskList} {t u back : Task}

/-! ## Merging what has not begun -/

theorem advance?_of_not_isInFlight {tasks after : List Task} (ht : t.isInFlight = false)
    (h : advance? t tasks = some after) : after = tasks := by
  induction tasks generalizing after with
  | nil => cases h
  | cons u tasks ih =>
    rw [advance?] at h
    split at h
    · cases h
      have hbehind : ¬ t.progress.isAheadOf u.progress = true := by
        rw [Task.Progress.isAheadOf_iff, Task.rank_eq_zero ht]
        exact Nat.not_lt_zero _
      rw [if_neg hbehind]
    · obtain ⟨rest, hrest, rfl⟩ := Option.map_eq_some_iff.1 h
      rw [ih hrest]

/-- A task that is not in flight is merged as if it were added. -/
theorem mergeTask_of_not_isInFlight (ht : t.isInFlight = false) (merged : TaskList × Nat) :
    (mergeTask merged t).1 = merged.1.add t := by
  by_cases hmem : t.key ∈ merged.1.keys
  · obtain ⟨after, hafter⟩ := Option.ne_none_iff_exists'.1
      fun hnone => advance?_eq_none_iff.1 hnone hmem
    rw [mergeTask, hafter, add_of_mem hmem, advance?_of_not_isInFlight ht hafter]
  · rw [mergeTask, advance?_eq_none_iff.2 hmem, add_of_not_mem hmem]

/-! ## The task that comes first -/

/-- The task is in flight and comes before all others of the list. -/
structure Leads (order : PhaseOrder) (back : Task) (l : TaskList) : Prop where
  distinct : l.Distinct
  inFlight : back.isInFlight = true
  mem : back ∈ l.tasks
  first : ∀ u ∈ l.tasks, u.key ≠ back.key → priority order back u = .lt

/-- A task in flight comes before any that is not. -/
theorem priority_of_not_isInFlight (hback : back.isInFlight = true) (hu : u.isInFlight = false) :
    priority order back u = .lt := by
  rw [priority, hback, hu]
  rfl

theorem Leads.add (h : Leads order back l) (hu : u.isInFlight = false) :
    Leads order back (l.add u) := by
  by_cases hmem : u.key ∈ l.keys
  · rw [add_of_mem hmem]
    exact h
  · have hdistinct := distinct_add h.distinct u
    rw [add_of_not_mem hmem] at hdistinct ⊢
    refine ⟨hdistinct, h.inFlight, List.mem_append_left _ h.mem, fun v hv hne => ?_⟩
    rcases List.mem_append.1 hv with hv | hv
    · exact h.first v hv hne
    · rw [List.mem_singleton.1 hv]
      exact priority_of_not_isInFlight h.inFlight hu

theorem Leads.merge (h : Leads order back l) {other : TaskList}
    (hother : ∀ u ∈ other.tasks, u.isInFlight = false) : Leads order back (l.merge other).1 := by
  refine List.foldlRecOn (motive := fun merged => Leads order back merged.1) (b := (l, 0))
    other.tasks mergeTask h fun merged hmerged u hu => ?_
  rw [mergeTask_of_not_isInFlight (hother u hu)]
  exact hmerged.add (hother u hu)

theorem Leads.exists_popNext? (h : Leads order back l) :
    ∃ later, l.popNext? order = some (back, later) := by
  obtain ⟨before, after, hsplit⟩ := List.append_of_mem h.mem
  have hperm : l.tasks.Perm (back :: (before ++ after)) := hsplit ▸ List.perm_middle
  have hnodup : (back.key :: (before ++ after).map Task.key).Nodup :=
    (hperm.map Task.key).nodup_iff.1 h.distinct
  obtain ⟨later, hpop, -⟩ := popNext?_of_perm_cons hperm fun u hu => by
    refine h.first u (hperm.symm.subset (List.mem_cons_of_mem _ hu)) fun heq => ?_
    exact (List.nodup_cons.1 hnodup).1 (heq ▸ List.mem_map_of_mem hu)
  exact ⟨later, hpop⟩

/-- The task that has been taken out leads the list when it is put back in flight. -/
theorem leads_add_back (hl : l.Distinct) (hpop : l.popNext? order = some (t, rest))
    (hkey : back.key = t.key) (hflight : back.isInFlight = true) :
    Leads order back (rest.add back) := by
  obtain ⟨hgone, hrest⟩ := distinct_popNext? hpop hl
  have hnew : back.key ∉ rest.keys := hkey ▸ hgone
  have hdistinct := distinct_add hrest back
  rw [add_of_not_mem hnew] at hdistinct ⊢
  refine ⟨hdistinct, hflight, List.mem_append_right _ (List.mem_singleton_self back), ?_⟩
  intro u hu hne
  rcases List.mem_append.1 hu with hu | hu
  · refine priority_of_isInFlight hkey hflight ?_
    rcases Ordering.isLE_iff_eq_lt_or_eq_eq.1 (isLE_of_popNext? hpop u hu) with hlt | heq
    · exact hlt
    · exact absurd ((key_eq_of_priority_eq heq).symm.trans hkey.symm) hne
  · exact absurd (congrArg Task.key (List.mem_singleton.1 hu)) hne

/-! ## Going on after more work has come in -/

/-- The list with further lists merged into it, one after the other. -/
def mergeAll (l : TaskList) (more : List TaskList) : TaskList :=
  more.foldl (fun merged other => (merged.merge other).1) l

theorem Leads.mergeAll {more : List TaskList} (h : Leads order back l)
    (hmore : ∀ other ∈ more, ∀ u ∈ other.tasks, u.isInFlight = false) :
    Leads order back (l.mergeAll more) :=
  List.foldlRecOn more _ h fun _ hmerged other hother => hmerged.merge (hmore other hother)

/-- **Work that has begun is not interrupted by work that has not.**  The task that has been taken
out is put back, or its next sub-step is added, and any number of lists are merged that have no task
in flight.  Then it is taken out next, as it has been put back. -/
theorem popNext?_resumed {more : List TaskList} (hl : l.Distinct)
    (hpop : l.popNext? order = some (t, rest)) (hback : t.Resumes back)
    (hmore : ∀ other ∈ more, ∀ u ∈ other.tasks, u.isInFlight = false) :
    ∃ later, ((rest.add back).mergeAll more).popNext? order = some (back, later) :=
  ((leads_add_back hl hpop hback.key_eq hback.isInFlight).mergeAll hmore).exists_popNext?

/-- An index to be built in several steps, and what is to be done after it. -/
def indexing : TaskList :=
  ⟨[{ phase := "DEPLOY", destination := "rollout" }, { phase := "INDEX", destination := "build" }]⟩

/-- Two triggers, one for an earlier phase and one for the same index again. -/
def triggers : List TaskList :=
  [⟨[{ phase := "DOWNLOAD", destination := "fetch" }]⟩,
    ⟨[{ phase := "INDEX", destination := "build" }, { phase := "CONVERT", destination := "tiles" }]⟩]

/-- The next step of the index comes before all that has been triggered in the meantime. -/
theorem popNext?_resumed_indexing :
    let build : Task := { phase := "INDEX", destination := "build" }
    (indexing.Distinct ∧
      indexing.popNext? .standard = some (build, ⟨[{ phase := "DEPLOY", destination := "rollout" }]⟩) ∧
      build.Resumes build.nextSubStep ∧
      ∀ other ∈ triggers, ∀ u ∈ other.tasks, u.isInFlight = false) ∧
    ∃ later, ((add ⟨[{ phase := "DEPLOY", destination := "rollout" }]⟩ build.nextSubStep).mergeAll
      triggers).popNext? .standard = some (build.nextSubStep, later) := by
  intro build
  have hdistinct : indexing.Distinct := by decide
  have hpop : indexing.popNext? .standard =
      some (build, ⟨[{ phase := "DEPLOY", destination := "rollout" }]⟩) := by decide +kernel
  have hresumes : build.Resumes build.nextSubStep := .nextSubStep (by decide)
  have hfresh : ∀ other ∈ triggers, ∀ u ∈ other.tasks, u.isInFlight = false := by decide +kernel
  exact ⟨⟨hdistinct, hpop, hresumes, hfresh⟩, popNext?_resumed hdistinct hpop hresumes hfresh⟩

end TaskList

end TaskRelay
