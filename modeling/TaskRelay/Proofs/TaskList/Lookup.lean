import TaskRelay.Proofs.TaskList.Keys

/-!
# Looking up a unit of work

A list of distinct units of work is its keys, in their order, and for each of them a task
(`ext_get?`).  So each operation on lists is described by two equations, one for the keys and one for
the task of a key.
-/

namespace TaskRelay.TaskList

variable {l other : TaskList} {key : TaskKey}

/-- The task of a unit of work. -/
def get? (l : TaskList) (key : TaskKey) : Option Task :=
  l.tasks.find? fun t => t.key == key

theorem get?_cons (t : Task) (tasks : List Task) (key : TaskKey) :
    get? ⟨t :: tasks⟩ key = if t.key = key then some t else get? ⟨tasks⟩ key := by
  rw [get?, List.find?_cons, get?]
  by_cases h : t.key = key
  · rw [beq_iff_eq.2 h, if_pos h]
  · rw [beq_eq_false_iff_ne.2 h, if_neg h]

theorem get?_append_singleton (tasks : List Task) (t : Task) (key : TaskKey) :
    get? ⟨tasks ++ [t]⟩ key = (get? ⟨tasks⟩ key).or (if t.key = key then some t else none) := by
  have happend : get? ⟨tasks ++ [t]⟩ key = (get? ⟨tasks⟩ key).or (get? ⟨[t]⟩ key) :=
    List.find?_append
  rw [happend, get?_cons]
  rfl

theorem get?_eq_none_iff : l.get? key = none ↔ key ∉ l.keys := by
  rw [get?, List.find?_eq_none, keys, List.mem_map]
  simp

theorem mem_of_get? {t : Task} (h : l.get? key = some t) : t ∈ l.tasks :=
  List.mem_of_find?_eq_some h

theorem key_of_get? {t : Task} (h : l.get? key = some t) : t.key = key := by
  have hkey := List.find?_some h
  exact eq_of_beq hkey

theorem get?_of_mem (h : l.Distinct) {t : Task} (ht : t ∈ l.tasks) : l.get? t.key = some t := by
  obtain ⟨tasks⟩ := l
  induction tasks with
  | nil => cases ht
  | cons u tasks ih =>
    obtain ⟨hnew, hrest⟩ := List.nodup_cons.1 h
    rw [get?_cons]
    rcases List.mem_cons.1 ht with rfl | ht
    · rw [if_pos rfl]
    · have hne : u.key ≠ t.key := fun heq => hnew (heq ▸ List.mem_map_of_mem ht)
      rw [if_neg hne, ih hrest ht]

theorem get?_eq_some_iff (h : l.Distinct) {t : Task} :
    l.get? key = some t ↔ t ∈ l.tasks ∧ t.key = key := by
  constructor
  · exact fun ht => ⟨mem_of_get? ht, key_of_get? ht⟩
  · rintro ⟨ht, rfl⟩
    exact get?_of_mem h ht

/-- The tasks of distinct units of work, looked up one by one. -/
theorem map_get?_keys (h : l.Distinct) : l.keys.map l.get? = l.tasks.map some := by
  rw [keys, List.map_map]
  exact List.map_congr_left fun t ht => get?_of_mem h ht

/-- Lists of the same distinct keys with the same task for each are equal. -/
theorem ext_get? (hl : l.Distinct) (hkeys : l.keys = other.keys)
    (h : ∀ key, l.get? key = other.get? key) : l = other := by
  have hother : other.Distinct := by
    rw [Distinct, ← hkeys]
    exact hl
  have htasks : l.tasks.map some = other.tasks.map some := by
    rw [← map_get?_keys hl, ← map_get?_keys hother, hkeys]
    exact List.map_congr_left fun key _ => h key
  exact congrArg mk ((List.map_inj_right fun _ _ => Option.some.inj).1 htasks)

/-! ## Adding -/

/-- A task that is added does not displace another. -/
theorem get?_add (l : TaskList) (t : Task) (key : TaskKey) :
    (l.add t).get? key = (l.get? key).or (if t.key = key then some t else none) := by
  by_cases hmem : t.key ∈ l.keys
  · rw [add_of_mem hmem]
    by_cases hkey : t.key = key
    · obtain ⟨u, hu⟩ := Option.ne_none_iff_exists'.1
        fun hnone => get?_eq_none_iff.1 hnone (hkey ▸ hmem : key ∈ l.keys)
      rw [hu, Option.some_or]
    · rw [if_neg hkey, Option.or_none]
  · rw [add_of_not_mem hmem]
    exact get?_append_singleton l.tasks t key

theorem get?_foldl_add (tasks : List Task) (l : TaskList) (key : TaskKey) :
    (tasks.foldl add l).get? key = (l.get? key).or (get? ⟨tasks⟩ key) := by
  induction tasks generalizing l with
  | nil => exact Option.or_none.symm
  | cons t tasks ih =>
    rw [List.foldl_cons, ih, get?_add, Option.or_assoc, get?_cons]
    split <;> rfl

/-- The task of a unit of work is the first one that is given. -/
theorem get?_ofList (tasks : List Task) (key : TaskKey) :
    (ofList tasks).get? key = get? ⟨tasks⟩ key :=
  get?_foldl_add tasks ∅ key

/-- A task of the list is the first one of its unit of work. -/
theorem find?_of_mem_ofList {tasks : List Task} {t : Task} (h : t ∈ (ofList tasks).tasks) :
    tasks.find? (·.key == t.key) = some t :=
  (get?_ofList tasks t.key).symm.trans (get?_of_mem (distinct_ofList tasks) h)

/-! ## Taking out the next task -/

theorem get?_popNext? {order : PhaseOrder} {rest : TaskList} {t : Task} (hl : l.Distinct)
    (h : l.popNext? order = some (t, rest)) (key : TaskKey) :
    rest.get? key = if key = t.key then none else l.get? key := by
  obtain ⟨hgone, hrest⟩ := distinct_popNext? h hl
  split
  · next heq => exact get?_eq_none_iff.2 (heq ▸ hgone)
  · next hne =>
    refine Option.ext fun u => ?_
    rw [get?_eq_some_iff hrest, get?_eq_some_iff hl, mem_tasks_popNext? h, or_and_right]
    refine (or_iff_right ?_).symm
    rintro ⟨rfl, hkey⟩
    exact hne hkey.symm

end TaskRelay.TaskList
