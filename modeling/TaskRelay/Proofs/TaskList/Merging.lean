import TaskRelay.Proofs.TaskList.Lookup

/-!
# Merging is a union in which the further task stays

Merging does not mix the keys of a list with the tasks that they have.  The keys of the one list come
first and the new ones of the other behind them (`keys_merge`), and for each key the further of two
tasks stays (`get?_merge`).  The further of two tasks, the first where neither is ahead, is an
associative operation, and so the laws of merging are laws of these two (`merge_union`).
-/

namespace TaskRelay

/-! ## The further of two tasks -/

namespace Task

namespace Progress

/-- Where the progress stands among all that there can be: a completed sub-step outweighs any number
of times that a task has been put back. -/
def rank (p : Progress) : Nat :=
  p.subStep.toNat * UInt32.size + p.loopCounter.toNat

theorem eq_of_rank_eq {a b : Progress} (h : a.rank = b.rank) : a = b := by
  obtain ⟨step, counter⟩ := a
  obtain ⟨step', counter'⟩ := b
  have hcounter := counter.toNat_lt
  have hcounter' := counter'.toNat_lt
  simp only [rank, UInt32.size] at h
  rw [Progress.mk.injEq, ← UInt32.toNat_inj, ← UInt32.toNat_inj]
  omega

theorem isAheadOf_iff {a b : Progress} : a.isAheadOf b = true ↔ b.rank < a.rank := by
  have ha := a.loopCounter.toNat_lt
  have hb := b.loopCounter.toNat_lt
  simp only [isAheadOf, rank, UInt32.size, Bool.or_eq_true, Bool.and_eq_true, decide_eq_true_eq,
    beq_iff_eq, UInt32.lt_iff_toNat_lt, ← UInt32.toNat_inj]
  omega

/-- The further of two, the first where neither is ahead of the other. -/
def further (a b : Progress) : Progress :=
  if b.isAheadOf a then b else a

theorem rank_further (a b : Progress) : (further a b).rank = max a.rank b.rank := by
  rw [further]
  split
  · next h =>
    have := isAheadOf_iff.1 h
    omega
  · next h =>
    have := mt isAheadOf_iff.2 h
    omega

end Progress

/-- The other task has come further, in the lexicographic order of sub-step and loop counter. -/
def IsBehind (t u : Task) : Prop :=
  Prod.Lex (· < ·) (· < ·) (t.subStep, t.loopCounter) (u.subStep, u.loopCounter)

theorem isBehind_iff {t u : Task} : t.IsBehind u ↔ t.progress.rank < u.progress.rank := by
  rw [← Progress.isAheadOf_iff, IsBehind, Prod.lex_def, Progress.isAheadOf, Bool.or_eq_true,
    Bool.and_eq_true, decide_eq_true_iff, decide_eq_true_iff, beq_iff_eq, eq_comm (a := t.subStep)]
  rfl

/-- The further of two tasks, the first where neither is ahead of the other. -/
def further (t u : Task) : Task :=
  if u.progress.isAheadOf t.progress then u else t

theorem further_eq (t u : Task) :
    t.further u = if t.progress.rank < u.progress.rank then u else t := by
  simp only [further, Progress.isAheadOf_iff]

theorem further_self (t : Task) : t.further t = t := ite_self _

theorem progress_further (t u : Task) :
    (t.further u).progress = t.progress.further u.progress := by
  rw [further, Progress.further]
  split <;> rfl

theorem rank_further (t u : Task) :
    (t.further u).progress.rank = max t.progress.rank u.progress.rank := by
  rw [progress_further, Progress.rank_further]

theorem key_further {t u : Task} (h : t.key = u.key) : (t.further u).key = t.key := by
  rw [further]
  split
  · exact h.symm
  · rfl

/-- Both ways it is the first of the three that is not behind another. -/
theorem further_assoc (t u v : Task) : (t.further u).further v = t.further (u.further v) := by
  rw [further_eq _ v, further_eq t (u.further v), rank_further, rank_further, further_eq, further_eq]
  generalize t.progress.rank = i, u.progress.rank = j, v.progress.rank = k
  split <;> split <;> grind

instance : Std.Associative further := ⟨further_assoc⟩

end Task

namespace TaskList

variable {l other : TaskList} {key : TaskKey}

/-! ## What a merge holds -/

theorem size_mergeTask (merged : TaskList × Nat) (t : Task) :
    (mergeTask merged t).1.size + merged.2 = merged.1.size + (mergeTask merged t).2 := by
  rw [mergeTask]
  split
  · next after h =>
    have hlength := congrArg List.length (map_key_advance? h)
    rw [List.length_map, List.length_map] at hlength
    rw [size, size, hlength]
  · simp only [size, List.length_append, List.length_singleton]
    omega

/-- As many units of work are counted as the list has grown by. -/
theorem size_merge (l other : TaskList) : (l.merge other).1.size = l.size + (l.merge other).2 := by
  have hfold : ∀ (tasks : List Task) (merged : TaskList × Nat),
      (tasks.foldl mergeTask merged).1.size + merged.2 =
        merged.1.size + (tasks.foldl mergeTask merged).2 := by
    intro tasks
    induction tasks with
    | nil => exact fun _ => rfl
    | cons t tasks ih =>
      intro merged
      have hstep := size_mergeTask merged t
      have hrest := ih (mergeTask merged t)
      rw [List.foldl_cons]
      omega
  exact hfold other.tasks (l, 0)

/-- The new keys come behind the others, in their order. -/
theorem keys_merge (l : TaskList) (h : other.Distinct) :
    (l.merge other).1.keys = l.keys ++ other.keys.filter (· ∉ l.keys) := by
  have hfold : ∀ (tasks : List Task) (merged : TaskList × Nat), Distinct ⟨tasks⟩ →
      (tasks.foldl mergeTask merged).1.keys =
        merged.1.keys ++ (keys ⟨tasks⟩).filter (· ∉ merged.1.keys) := by
    intro tasks
    induction tasks with
    | nil => exact fun merged _ => (List.append_nil _).symm
    | cons t tasks ih =>
      intro merged h
      obtain ⟨hnew, hrest⟩ := List.nodup_cons.1 h
      have hkeys : keys ⟨t :: tasks⟩ = t.key :: keys ⟨tasks⟩ := rfl
      rw [List.foldl_cons, ih _ hrest, keys_mergeTask, keys_add, hkeys, List.filter_cons]
      by_cases ht : t.key ∈ merged.1.keys
      · simp only [ht, if_true, not_true_eq_false, decide_false, Bool.false_eq_true, if_false]
      · -- the key has become one of the list, but it does not come again
        have hsame : (keys ⟨tasks⟩).filter (· ∉ merged.1.keys ++ [t.key]) =
            (keys ⟨tasks⟩).filter (· ∉ merged.1.keys) := by
          refine List.filter_congr fun key hkey => ?_
          have hne : key ≠ t.key := fun heq => hnew (heq ▸ hkey)
          simp [hne]
        rw [if_neg ht, if_pos (decide_eq_true ht), hsame, List.append_assoc, List.singleton_append]
  exact hfold other.tasks (l, 0) h

theorem get?_advance? {t : Task} {tasks after : List Task} (h : advance? t tasks = some after)
    (key : TaskKey) :
    get? ⟨after⟩ key =
      if t.key = key then (get? ⟨tasks⟩ key).map (·.further t) else get? ⟨tasks⟩ key := by
  induction tasks generalizing after with
  | nil => cases h
  | cons u tasks ih =>
    rw [advance?] at h
    split at h
    · next heq =>
      cases h
      have hfurther : (u.further t).key = u.key := Task.key_further heq
      show get? ⟨u.further t :: tasks⟩ key = _
      rw [get?_cons, get?_cons, hfurther, ← heq]
      by_cases hkey : u.key = key
      · simp only [if_pos hkey, Option.map_some]
      · simp only [if_neg hkey]
    · next hne =>
      obtain ⟨rest, hrest, rfl⟩ := Option.map_eq_some_iff.1 h
      rw [get?_cons, get?_cons, ih hrest]
      by_cases hkey : u.key = key
      · have ht : t.key ≠ key := fun ht => hne (hkey.trans ht.symm)
        rw [if_pos hkey, if_pos hkey, if_neg ht]
      · rw [if_neg hkey, if_neg hkey]

theorem get?_mergeTask (merged : TaskList × Nat) (t : Task) (key : TaskKey) :
    (mergeTask merged t).1.get? key =
      Option.merge Task.further (merged.1.get? key) (if t.key = key then some t else none) := by
  rw [mergeTask]
  split
  · next after h =>
    have hmem : t.key ∈ merged.1.keys := Classical.not_not.1 fun hnew => by
      rw [advance?_eq_none_iff.2 hnew] at h
      cases h
    rw [get?_advance? h]
    by_cases ht : t.key = key
    · obtain ⟨u, hu⟩ := Option.ne_none_iff_exists'.1
        fun hnone => get?_eq_none_iff.1 hnone (ht ▸ hmem : key ∈ merged.1.keys)
      rw [if_pos ht, if_pos ht, hu, Option.merge_some_some, Option.map_some]
    · rw [if_neg ht, if_neg ht, Option.merge_none_right]
  · next h =>
    have hnew : t.key ∉ merged.1.keys := advance?_eq_none_iff.1 h
    rw [get?_append_singleton]
    by_cases ht : t.key = key
    · have hnone : merged.1.get? key = none := get?_eq_none_iff.2 (ht ▸ hnew)
      rw [hnone, Option.merge_none_left]
      exact Option.none_or
    · rw [if_neg ht, Option.or_none, Option.merge_none_right]

/-- **For each unit of work the further task stays.** -/
theorem get?_merge (l : TaskList) (h : other.Distinct) (key : TaskKey) :
    (l.merge other).1.get? key = Option.merge Task.further (l.get? key) (other.get? key) := by
  have hfold : ∀ (tasks : List Task) (merged : TaskList × Nat), Distinct ⟨tasks⟩ →
      (tasks.foldl mergeTask merged).1.get? key =
        Option.merge Task.further (merged.1.get? key) (get? ⟨tasks⟩ key) := by
    intro tasks
    induction tasks with
    | nil => exact fun merged _ => Option.merge_none_right.symm
    | cons t tasks ih =>
      intro merged h
      obtain ⟨hnew, hrest⟩ := List.nodup_cons.1 h
      rw [List.foldl_cons, ih _ hrest, get?_mergeTask, get?_cons]
      by_cases ht : t.key = key
      · have hnone : get? ⟨tasks⟩ key = none := get?_eq_none_iff.2 (ht ▸ hnew)
        rw [if_pos ht, if_pos ht, hnone, Option.merge_none_right]
      · rw [if_neg ht, if_neg ht, Option.merge_none_right]
  exact hfold other.tasks (l, 0) h

/-! ## The laws of merging -/

theorem filter_not_mem_eq_nil {l other : List TaskKey} (h : ∀ key ∈ other, key ∈ l) :
    other.filter (· ∉ l) = [] := by
  refine List.filter_eq_nil_iff.2 fun key hkey => ?_
  simpa using h key hkey

/-- A list that brings nothing new and is nowhere ahead leaves the list as it is. -/
theorem merge_of_get? (hl : l.Distinct) (hother : other.Distinct)
    (h : ∀ key, Option.merge Task.further (l.get? key) (other.get? key) = l.get? key) :
    l.merge other = (l, 0) := by
  have hmerged : (l.merge other).1 = l := by
    refine ext_get? (distinct_merge hl other) ?_ fun key => (get?_merge l hother key).trans (h key)
    rw [keys_merge l hother, filter_not_mem_eq_nil, List.append_nil]
    intro key hkey
    refine Classical.not_not.1 fun hnew => ?_
    have hnone := h key
    rw [get?_eq_none_iff.2 hnew, Option.merge_none_left] at hnone
    exact get?_eq_none_iff.1 hnone hkey
  have hsize := size_merge l other
  rw [hmerged] at hsize
  exact Prod.ext hmerged (by omega)

theorem merge_self (h : l.Distinct) : l.merge l = (l, 0) := by
  refine merge_of_get? h h fun key => ?_
  cases l.get? key with
  | none => rfl
  | some t => rw [Option.merge_some_some, Task.further_self]

theorem merge_merge_self (hl : l.Distinct) (h : other.Distinct) :
    (l.merge other).1.merge other = ((l.merge other).1, 0) := by
  refine merge_of_get? (distinct_merge hl other) h fun key => ?_
  rw [get?_merge l h]
  cases l.get? key <;> cases other.get? key <;>
    simp only [Option.merge_none_left, Option.merge_none_right, Option.merge_some_some,
      Task.further_self, Task.further_assoc]

theorem merge_assoc {a b c : TaskList} (ha : a.Distinct) (hb : b.Distinct) (hc : c.Distinct) :
    ((a.merge b).1.merge c).1 = (a.merge (b.merge c).1).1 := by
  have hbc : (b.merge c).1.Distinct := distinct_merge hb c
  refine ext_get? (distinct_merge (distinct_merge ha b) c) ?_ fun key => ?_
  · rw [keys_merge _ hc, keys_merge _ hb, keys_merge _ hbc, keys_merge _ hc, List.filter_append,
      List.append_assoc, List.filter_filter]
    congr 2
    refine List.filter_congr fun key _ => ?_
    simp only [List.mem_append, List.mem_filter]
    grind
  · rw [get?_merge _ hc, get?_merge _ hb, get?_merge _ hbc, get?_merge _ hc]
    exact Std.Associative.assoc _ _ _

/-- All units of work of two lists, those of the first list in front.  Where both lists have a task
of one, it is the first list's unless that is behind. -/
structure IsUnion (l other merged : TaskList) : Prop where
  distinct : merged.Distinct
  keys_eq : merged.keys = l.keys ++ other.keys.filter (· ∉ l.keys)
  left : ∀ t ∈ l.tasks, t.key ∉ other.keys → t ∈ merged.tasks
  right : ∀ u ∈ other.tasks, u.key ∉ l.keys → u ∈ merged.tasks
  behind : ∀ t ∈ l.tasks, ∀ u ∈ other.tasks, t.key = u.key → t.IsBehind u → u ∈ merged.tasks
  notBehind : ∀ t ∈ l.tasks, ∀ u ∈ other.tasks, t.key = u.key → ¬ t.IsBehind u → t ∈ merged.tasks
  /-- No unit of work falls back. -/
  keepsUp : ∀ t, t ∈ l.tasks ∨ t ∈ other.tasks → ∃ m ∈ merged.tasks, m.key = t.key ∧ ¬ m.IsBehind t

theorem further_mem_merge (hl : l.Distinct) (h : other.Distinct) {t u : Task} (ht : t ∈ l.tasks)
    (hu : u ∈ other.tasks) (hkey : t.key = u.key) : t.further u ∈ (l.merge other).1.tasks := by
  have hget : (l.merge other).1.get? t.key = some (t.further u) := by
    rw [get?_merge l h, get?_of_mem hl ht, hkey, get?_of_mem h hu, Option.merge_some_some]
  exact mem_of_get? hget

/-- No unit of work falls back. -/
theorem exists_mem_merge (hl : l.Distinct) (h : other.Distinct) {t : Task}
    (ht : t ∈ l.tasks ∨ t ∈ other.tasks) :
    ∃ m ∈ (l.merge other).1.tasks, m.key = t.key ∧ t.progress.rank ≤ m.progress.rank := by
  suffices hget : ∃ m, (l.merge other).1.get? t.key = some m ∧
      t.progress.rank ≤ m.progress.rank by
    obtain ⟨m, hm, hrank⟩ := hget
    exact ⟨m, mem_of_get? hm, key_of_get? hm, hrank⟩
  rw [get?_merge l h]
  rcases ht with ht | ht
  · rw [get?_of_mem hl ht]
    cases other.get? t.key with
    | none => exact ⟨t, rfl, Nat.le_refl _⟩
    | some u => exact ⟨_, rfl, by rw [Task.rank_further]; exact Nat.le_max_left _ _⟩
  · rw [get?_of_mem h ht]
    cases l.get? t.key with
    | none => exact ⟨t, rfl, Nat.le_refl _⟩
    | some u => exact ⟨_, rfl, by rw [Task.rank_further]; exact Nat.le_max_right _ _⟩

theorem isUnion_merge (hl : l.Distinct) (h : other.Distinct) :
    IsUnion l other (l.merge other).1 where
  distinct := distinct_merge hl other
  keys_eq := keys_merge l h
  left t ht hnew := by
    have hget : (l.merge other).1.get? t.key = some t := by
      rw [get?_merge l h, get?_of_mem hl ht, get?_eq_none_iff.2 hnew, Option.merge_none_right]
    exact mem_of_get? hget
  right u hu hnew := by
    have hget : (l.merge other).1.get? u.key = some u := by
      rw [get?_merge l h, get?_of_mem h hu, get?_eq_none_iff.2 hnew, Option.merge_none_left]
    exact mem_of_get? hget
  behind t ht u hu hkey hbehind := by
    have hmem := further_mem_merge hl h ht hu hkey
    rwa [Task.further_eq, if_pos (Task.isBehind_iff.1 hbehind)] at hmem
  notBehind t ht u hu hkey hbehind := by
    have hmem := further_mem_merge hl h ht hu hkey
    rwa [Task.further_eq, if_neg (mt Task.isBehind_iff.2 hbehind)] at hmem
  keepsUp t ht := by
    obtain ⟨m, hm, hkey, hrank⟩ := exists_mem_merge hl h ht
    exact ⟨m, hm, hkey, mt Task.isBehind_iff.1 (Nat.not_lt.2 hrank)⟩

/-- **Merging is a union in which the further task stays.** -/
theorem merge_union {a b c : TaskList} (ha : a.Distinct) (hb : b.Distinct) (hc : c.Distinct) :
    IsUnion a b (a.merge b).1 ∧ (a.merge b).1.size = a.size + (a.merge b).2 ∧
      a.merge a = (a, 0) ∧ (a.merge b).1.merge b = ((a.merge b).1, 0) ∧
      ((a.merge b).1.merge c).1 = (a.merge (b.merge c).1).1 :=
  ⟨isUnion_merge ha hb, size_merge a b, merge_self ha, merge_merge_self ha hb, merge_assoc ha hb hc⟩

/-- A task that has been put back twice, and one that is new. -/
def retried : TaskList :=
  ⟨[{ phase := "LOAD", destination := "a", headers := .ofList [(loopCounterHeader, "2")] },
    { phase := "LOAD", destination := "b" }]⟩

/-- The first of these as triggered once more, and further work. -/
def triggeredAgain : TaskList :=
  ⟨[{ phase := "LOAD", destination := "c" }, { phase := "LOAD", destination := "a" }]⟩

/-- The other two, one of them as far as before and with a header. -/
def movedOn : TaskList :=
  ⟨[{ phase := "LOAD", destination := "c", headers := .ofList [("note", "late")] },
    { phase := "LOAD", subStep := 1, destination := "b" }]⟩

/-- Merged in either way, the three lists have the retries of the first, the tie of the second and the
sub-step of the third. -/
theorem merge_union_retried :
    (retried.Distinct ∧ triggeredAgain.Distinct ∧ movedOn.Distinct) ∧
      IsUnion retried triggeredAgain (retried.merge triggeredAgain).1 ∧
      (retried.merge triggeredAgain).2 = 1 ∧
      ((retried.merge triggeredAgain).1.merge movedOn).1 =
        (retried.merge (triggeredAgain.merge movedOn).1).1 ∧
      ((retried.merge triggeredAgain).1.merge movedOn).1.tasks.map
        (fun t => (t.display, t.loopCounter, t.header? "note")) =
          [("LOAD/a#0", 2, none), ("LOAD/b#1", 0, none), ("LOAD/c#0", 0, none)] := by
  have hretried : retried.Distinct := by decide
  have htriggered : triggeredAgain.Distinct := by decide
  have hmoved : movedOn.Distinct := by decide
  obtain ⟨hunion, -, -, -, hassoc⟩ := merge_union hretried htriggered hmoved
  exact ⟨⟨hretried, htriggered, hmoved⟩, hunion, by decide +kernel, hassoc, by decide +kernel⟩

end TaskList

end TaskRelay
