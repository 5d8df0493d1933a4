import TaskRelay.TaskList.Basic

/-!
# The units of work in a task list

What a task list is about are the keys of its tasks.  Here is what each operation does to them:
adding puts a key at the end unless it is there (`keys_add`), merging is the union of the keys
(`mem_keys_merge`), and taking out the next task takes out its key (`popNext?_split`).  A list
whose keys are distinct stays so under all of them.
-/

namespace TaskRelay.TaskList

/-- The units of work, in the order of the tasks. -/
def keys (l : TaskList) : List TaskKey :=
  l.tasks.map Task.key

/-- No unit of work occurs twice. -/
def Distinct (l : TaskList) : Prop :=
  l.keys.Nodup

instance (l : TaskList) : Decidable l.Distinct :=
  inferInstanceAs (Decidable l.keys.Nodup)

theorem keys_mk (tasks : List Task) : keys ⟨tasks⟩ = tasks.map Task.key := rfl

theorem keys_empty : keys ∅ = [] := rfl

theorem distinct_empty : Distinct ∅ := List.nodup_nil

theorem contains_iff {l : TaskList} {key : TaskKey} : l.contains key = true ↔ key ∈ l.keys := by
  rw [contains, List.any_eq_true, keys, List.mem_map]
  constructor
  · rintro ⟨t, ht, heq⟩
    exact ⟨t, ht, eq_of_beq heq⟩
  · rintro ⟨t, ht, rfl⟩
    exact ⟨t, ht, beq_self_eq_true _⟩

theorem contains_eq_false_iff {l : TaskList} {key : TaskKey} :
    l.contains key = false ↔ key ∉ l.keys := by
  rw [← contains_iff, Bool.not_eq_true]

/-! ## Adding -/

/-- A task whose unit of work is not in the list is put at the end: it is not refused. -/
theorem add_of_not_mem {l : TaskList} {t : Task} (h : t.key ∉ l.keys) :
    l.add t = ⟨l.tasks ++ [t]⟩ := by
  rw [add, contains_eq_false_iff.2 h, if_neg (by decide)]

theorem add_of_mem {l : TaskList} {t : Task} (h : t.key ∈ l.keys) : l.add t = l := by
  rw [add, contains_iff.2 h, if_pos rfl]

theorem keys_add (l : TaskList) (t : Task) :
    (l.add t).keys = if t.key ∈ l.keys then l.keys else l.keys ++ [t.key] := by
  by_cases h : t.key ∈ l.keys
  · rw [add_of_mem h, if_pos h]
  · rw [add_of_not_mem h, if_neg h, keys_mk, List.map_append]
    rfl

theorem mem_keys_add {l : TaskList} {t : Task} {key : TaskKey} :
    key ∈ (l.add t).keys ↔ key ∈ l.keys ∨ key = t.key := by
  rw [keys_add]
  split
  · next h =>
    constructor
    · exact .inl
    · rintro (hkey | rfl)
      · exact hkey
      · exact h
  · simp

theorem distinct_add {l : TaskList} (h : l.Distinct) (t : Task) : (l.add t).Distinct := by
  rw [Distinct, keys_add]
  split
  · exact h
  · next hnew =>
    refine List.nodup_append.2 ⟨h, List.pairwise_singleton _ _, ?_⟩
    intro key hkey other hother heq
    rw [List.mem_singleton] at hother
    exact hnew (hother ▸ heq ▸ hkey)

theorem mem_keys_foldl_add {tasks : List Task} {l : TaskList} {key : TaskKey} :
    key ∈ (tasks.foldl add l).keys ↔ key ∈ l.keys ∨ key ∈ tasks.map Task.key := by
  induction tasks generalizing l with
  | nil => simp
  | cons t tasks ih =>
    rw [List.foldl_cons, ih, mem_keys_add, List.map_cons, List.mem_cons, or_assoc]

theorem distinct_foldl_add {l : TaskList} (h : l.Distinct) (tasks : List Task) :
    (tasks.foldl add l).Distinct := by
  induction tasks generalizing l with
  | nil => exact h
  | cons t tasks ih => exact ih (distinct_add h t)

/-- Tasks of different units of work are all taken, in their order. -/
theorem foldl_add_of_nodup {tasks : List Task} {l : TaskList}
    (h : (l.keys ++ tasks.map Task.key).Nodup) : tasks.foldl add l = ⟨l.tasks ++ tasks⟩ := by
  induction tasks generalizing l with
  | nil => rw [List.foldl_nil, List.append_nil]
  | cons t tasks ih =>
    have hnew : t.key ∉ l.keys := by
      intro hmem
      exact (List.nodup_append.1 h).2.2 _ hmem _ (List.mem_map.2 ⟨t, List.mem_cons_self, rfl⟩) rfl
    rw [List.foldl_cons, add_of_not_mem hnew, ih]
    · rw [List.append_assoc, List.singleton_append]
    · simpa [keys] using h

theorem mem_keys_ofList {tasks : List Task} {key : TaskKey} :
    key ∈ (ofList tasks).keys ↔ key ∈ tasks.map Task.key := by
  rw [ofList, mem_keys_foldl_add, keys_empty]
  simp

theorem distinct_ofList (tasks : List Task) : (ofList tasks).Distinct :=
  distinct_foldl_add distinct_empty tasks

theorem ofList_tasks {l : TaskList} (h : l.Distinct) : ofList l.tasks = l := by
  have hnodup : (keys ∅ ++ l.tasks.map Task.key).Nodup := h
  exact foldl_add_of_nodup hnodup

/-! ## Merging -/

theorem advance?_eq_none_iff {t : Task} {tasks : List Task} :
    advance? t tasks = none ↔ t.key ∉ tasks.map Task.key := by
  induction tasks with
  | nil => simp [advance?]
  | cons u tasks ih =>
    rw [advance?, List.map_cons, List.mem_cons, not_or]
    split
    · next heq => simp [heq]
    · next hne =>
      rw [Option.map_eq_none_iff, ih]
      exact ⟨fun h => ⟨Ne.symm hne, h⟩, And.right⟩

/-- Replacing an entry by one that has come further leaves the keys as they are. -/
theorem map_key_advance? {t : Task} {tasks after : List Task} (h : advance? t tasks = some after) :
    after.map Task.key = tasks.map Task.key := by
  induction tasks generalizing after with
  | nil => cases h
  | cons u tasks ih =>
    rw [advance?] at h
    split at h
    · next heq =>
      cases h
      rw [List.map_cons, List.map_cons]
      split
      · rw [heq]
      · rfl
    · obtain ⟨rest, hrest, rfl⟩ := Option.map_eq_some_iff.1 h
      rw [List.map_cons, List.map_cons, ih hrest]

theorem keys_mergeTask (l : TaskList) (added : Nat) (t : Task) :
    (mergeTask (l, added) t).1.keys = (l.add t).keys := by
  by_cases hmem : t.key ∈ l.keys
  · obtain ⟨after, hafter⟩ := Option.ne_none_iff_exists'.1 fun h => advance?_eq_none_iff.1 h hmem
    rw [mergeTask, hafter, add_of_mem hmem]
    exact map_key_advance? hafter
  · rw [mergeTask, advance?_eq_none_iff.2 hmem, add_of_not_mem hmem]

theorem mem_keys_foldl_mergeTask {tasks : List Task} {merged : TaskList × Nat} {key : TaskKey} :
    key ∈ (tasks.foldl mergeTask merged).1.keys ↔
      key ∈ merged.1.keys ∨ key ∈ tasks.map Task.key := by
  induction tasks generalizing merged with
  | nil => simp
  | cons t tasks ih =>
    rw [List.foldl_cons, ih, keys_mergeTask, mem_keys_add, List.map_cons, List.mem_cons, or_assoc]

/-- Merging is the union of the units of work. -/
theorem mem_keys_merge {l other : TaskList} {key : TaskKey} :
    key ∈ (l.merge other).1.keys ↔ key ∈ l.keys ∨ key ∈ other.keys :=
  mem_keys_foldl_mergeTask

theorem distinct_mergeTask {merged : TaskList × Nat} (h : merged.1.Distinct) (t : Task) :
    (mergeTask merged t).1.Distinct := by
  rw [Distinct, keys_mergeTask]
  exact distinct_add h t

theorem distinct_merge {l : TaskList} (h : l.Distinct) (other : TaskList) :
    (l.merge other).1.Distinct := by
  have hfold : ∀ (tasks : List Task) (merged : TaskList × Nat), merged.1.Distinct →
      (tasks.foldl mergeTask merged).1.Distinct := by
    intro tasks
    induction tasks with
    | nil => exact fun _ hmerged => hmerged
    | cons t tasks ih => exact fun merged hmerged => ih _ (distinct_mergeTask hmerged t)
  exact hfold other.tasks (l, 0) h

/-- A task of a new unit of work is merged by putting it at the end. -/
theorem mergeTask_of_not_mem {l : TaskList} {added : Nat} {t : Task} (h : t.key ∉ l.keys) :
    mergeTask (l, added) t = (⟨l.tasks ++ [t]⟩, added + 1) := by
  rw [mergeTask, advance?_eq_none_iff.2 h]

theorem foldl_mergeTask_of_nodup {tasks : List Task} {l : TaskList} (added : Nat)
    (h : (l.keys ++ tasks.map Task.key).Nodup) :
    tasks.foldl mergeTask (l, added) = (⟨l.tasks ++ tasks⟩, added + tasks.length) := by
  induction tasks generalizing l added with
  | nil => rw [List.foldl_nil, List.append_nil, List.length_nil, Nat.add_zero]
  | cons t tasks ih =>
    have hnew : t.key ∉ l.keys := by
      intro hmem
      exact (List.nodup_append.1 h).2.2 _ hmem _ (List.mem_map.2 ⟨t, List.mem_cons_self, rfl⟩) rfl
    rw [List.foldl_cons, mergeTask_of_not_mem hnew, ih]
    · rw [List.append_assoc, List.singleton_append, List.length_cons, Nat.add_assoc,
        Nat.add_comm 1]
    · simpa [keys] using h

/-- Merging into an empty list gives the list itself. -/
theorem merge_empty {l : TaskList} (h : l.Distinct) : merge ∅ l = (l, l.size) := by
  have hnodup : (keys ∅ ++ l.tasks.map Task.key).Nodup := h
  have hfold := foldl_mergeTask_of_nodup 0 hnodup
  rw [Nat.zero_add] at hfold
  exact hfold

/-! ## Taking out the next task -/

theorem popTask?_eq_none_iff {order : PhaseOrder} {tasks : List Task} :
    popTask? order tasks = none ↔ tasks = [] := by
  cases tasks with
  | nil => simp [popTask?]
  | cons t rest =>
    simp only [popTask?, reduceCtorEq, iff_false]
    split
    · simp
    · split <;> simp

/-- The task that is taken out leaves the others in their places, and those before it are done after
it. -/
theorem popTask?_split {order : PhaseOrder} {tasks rest : List Task} {t : Task}
    (h : popTask? order tasks = some (t, rest)) :
    ∃ before after, tasks = before ++ t :: after ∧ rest = before ++ after ∧
      ∀ u ∈ before, priority order t u = .lt := by
  induction tasks generalizing t rest with
  | nil => cases h
  | cons u tasks ih =>
    rw [popTask?] at h
    cases hpop : popTask? order tasks with
    | none =>
      rw [hpop] at h
      cases h
      exact ⟨[], [], by rw [popTask?_eq_none_iff.1 hpop]; rfl, rfl, List.forall_mem_nil _⟩
    | some found =>
      obtain ⟨next, others⟩ := found
      obtain ⟨before, after, htasks, hothers, hbefore⟩ := ih hpop
      rw [hpop] at h
      simp only at h
      split at h
      · next hlt =>
        cases h
        exact ⟨u :: before, after, by rw [htasks]; rfl, by rw [hothers]; rfl,
          List.forall_mem_cons.2 ⟨hlt, hbefore⟩⟩
      · cases h
        exact ⟨[], tasks, rfl, rfl, List.forall_mem_nil _⟩

theorem popNext?_eq_none_iff {order : PhaseOrder} {l : TaskList} :
    l.popNext? order = none ↔ l.tasks = [] := by
  rw [popNext?, Option.map_eq_none_iff, popTask?_eq_none_iff]

theorem popNext?_split {order : PhaseOrder} {l rest : TaskList} {t : Task}
    (h : l.popNext? order = some (t, rest)) :
    ∃ before after, l.tasks = before ++ t :: after ∧ rest.tasks = before ++ after ∧
      ∀ u ∈ before, priority order t u = .lt := by
  obtain ⟨⟨u, others⟩, hpop, heq⟩ := Option.map_eq_some_iff.1 h
  cases heq
  exact popTask?_split hpop

theorem mem_tasks_popNext? {order : PhaseOrder} {l rest : TaskList} {t u : Task}
    (h : l.popNext? order = some (t, rest)) : u ∈ l.tasks ↔ u = t ∨ u ∈ rest.tasks := by
  obtain ⟨before, after, hl, hrest, -⟩ := popNext?_split h
  simp only [hl, hrest, List.mem_append, List.mem_cons]
  exact or_left_comm

theorem mem_keys_popNext? {order : PhaseOrder} {l rest : TaskList} {t : Task}
    (h : l.popNext? order = some (t, rest)) {key : TaskKey} :
    key ∈ l.keys ↔ key = t.key ∨ key ∈ rest.keys := by
  obtain ⟨before, after, hl, hrest, -⟩ := popNext?_split h
  simp only [keys, hl, hrest, List.map_append, List.map_cons, List.mem_append, List.mem_cons]
  exact or_left_comm

/-- In a list of distinct units of work, the one that is taken out is not among the rest. -/
theorem distinct_popNext? {order : PhaseOrder} {l rest : TaskList} {t : Task}
    (h : l.popNext? order = some (t, rest)) (hl : l.Distinct) :
    t.key ∉ rest.keys ∧ rest.Distinct := by
  obtain ⟨before, after, hsplit, hrest, -⟩ := popNext?_split h
  have hperm : l.keys.Perm (t.key :: rest.keys) := by
    rw [keys, keys, hsplit, hrest, List.map_append, List.map_append, List.map_cons]
    exact List.perm_middle
  exact List.nodup_cons.1 (hperm.nodup_iff.1 hl)

end TaskRelay.TaskList
