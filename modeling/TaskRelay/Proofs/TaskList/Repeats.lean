import TaskRelay.Proofs.TaskList.Wire

/-!
# Units of work that occur more than once

No operation on a task list adds an entry for a unit of work that has one, so the entries beyond the
first come from where the list itself comes from (`repeats_changeAll`).  Only the strict reader makes
such entries, because it takes a text as it stands, and only taking out tasks removes them: a list is
without them exactly if all of them have been taken out (`distinct_changeAll_iff`).
-/

namespace TaskRelay.TaskList

/-- How many entries there are for a unit of work beyond the first. -/
def repeats (l : TaskList) (key : TaskKey) : Nat :=
  l.keys.count key - 1

theorem distinct_iff_repeats {l : TaskList} : l.Distinct ↔ ∀ key, l.repeats key = 0 := by
  rw [Distinct, List.nodup_iff_count]
  exact forall_congr' fun key => Nat.sub_eq_zero_iff_le.symm

/-! ## What the operations do -/

theorem repeats_add (l : TaskList) (t : Task) (key : TaskKey) :
    (l.add t).repeats key = l.repeats key := by
  rw [repeats, repeats, keys_add]
  split
  · rfl
  · next hnew =>
    rw [List.count_append, List.count_singleton]
    by_cases heq : t.key = key
    · -- the unit of work has had no entry so far, so there is now one and none beyond it
      have hcount : l.keys.count key = 0 := List.count_eq_zero.2 (heq ▸ hnew)
      rw [hcount, if_pos (beq_iff_eq.2 heq)]
    · rw [if_neg (mt beq_iff_eq.1 heq), Nat.add_zero]

theorem repeats_mergeTask (merged : TaskList × Nat) (t : Task) (key : TaskKey) :
    (mergeTask merged t).1.repeats key = merged.1.repeats key := by
  rw [repeats, keys_mergeTask]
  exact repeats_add merged.1 t key

/-- Merging never adds an entry beyond the first, whatever the other list holds. -/
theorem repeats_merge (l other : TaskList) (key : TaskKey) :
    (l.merge other).1.repeats key = l.repeats key :=
  List.foldlRecOn (motive := fun merged => merged.1.repeats key = l.repeats key) other.tasks
    mergeTask rfl fun merged hmerged t _ => (repeats_mergeTask merged t key).trans hmerged

theorem repeats_mergeText? {l merged : TaskList} {s : String} {counts : Nat × Nat}
    (h : l.mergeText? s = some (merged, counts)) (key : TaskKey) :
    merged.repeats key = l.repeats key := by
  obtain ⟨⟨other, skipped⟩, -, heq⟩ := Option.bind_eq_some_iff.1 h
  cases heq
  exact repeats_merge l other key

theorem repeats_popNext? {order : PhaseOrder} {l rest : TaskList} {t : Task}
    (h : l.popNext? order = some (t, rest)) (key : TaskKey) :
    rest.repeats key = l.repeats key - [t.key].count key := by
  obtain ⟨before, after, hl, hrest, -⟩ := popNext?_split h
  have hcount : l.keys.count key = rest.keys.count key + [t.key].count key := by
    simp only [keys, hl, hrest, List.map_append, List.map_cons, List.count_append, List.count_cons,
      List.count_nil]
    omega
  rw [repeats, repeats, hcount]
  omega

/-! ## Histories -/

/-- Where a list comes from. -/
inductive Origin where
  | new
  | collected (tasks : List Task)
  /-- A text for the strict reader. -/
  | text (s : String)
  /-- A text for the lenient reader. -/
  | lenientText (s : String)
deriving DecidableEq, Repr

/-- The list, if the text is one. -/
def Origin.list? : Origin → Option TaskList
  | .new => some ∅
  | .collected tasks => some (ofList tasks)
  | .text s => decode? s
  | .lenientText s => (decodeLenient? s).map Prod.fst

def Origin.isStrict : Origin → Bool
  | .text _ => true
  | _ => false

theorem Origin.distinct_of_not_isStrict {o : Origin} {l : TaskList} (h : o.list? = some l)
    (ho : o.isStrict = false) : l.Distinct := by
  cases o with
  | new =>
    cases h
    exact distinct_empty
  | collected tasks =>
    cases h
    exact distinct_ofList tasks
  | text s => cases ho
  | lenientText s =>
    obtain ⟨⟨read, skipped⟩, hread, rfl⟩ := Option.map_eq_some_iff.1 h
    exact distinct_decodeLenient? hread

/-- What can be done with a list. -/
inductive Change where
  | add (t : Task)
  | merge (other : TaskList)
  | mergeText (s : String)
  | popNext (order : PhaseOrder)

/-- The list after a change, and the task that has been taken out, if any.  A text that is no task list
changes nothing. -/
def change (l : TaskList) : Change → TaskList × Option Task
  | .add t => (l.add t, none)
  | .merge other => ((l.merge other).1, none)
  | .mergeText s => ((l.mergeText? s).elim l Prod.fst, none)
  | .popNext order => (l.popNext? order).elim (l, none) fun (t, rest) => (rest, some t)

/-- The list after a row of changes, and the tasks that have been taken out. -/
def changeAll (l : TaskList) : List Change → TaskList × List Task
  | [] => (l, [])
  | c :: changes =>
    let (next, popped) := l.change c
    let (last, later) := next.changeAll changes
    (last, popped.toList ++ later)

theorem repeats_change (l : TaskList) (c : Change) (key : TaskKey) :
    (l.change c).1.repeats key =
      l.repeats key - ((l.change c).2.toList.map Task.key).count key := by
  cases c with
  | add t => exact repeats_add l t key
  | merge other => exact repeats_merge l other key
  | mergeText s =>
    rw [change]
    cases hmerge : l.mergeText? s with
    | none => rfl
    | some merged => exact repeats_mergeText? hmerge key
  | popNext order =>
    rw [change]
    cases hpop : l.popNext? order with
    | none => rfl
    | some popped => exact repeats_popNext? hpop key

/-- Entries beyond the first are never added, and every task that is taken out is one less of them. -/
theorem repeats_changeAll (l : TaskList) (changes : List Change) (key : TaskKey) :
    (l.changeAll changes).1.repeats key =
      l.repeats key - ((l.changeAll changes).2.map Task.key).count key := by
  induction changes generalizing l with
  | nil => rfl
  | cons c changes ih =>
    simp only [changeAll, ih, repeats_change, List.map_append, List.count_append, Nat.sub_sub]

/-- **A list is without repeated units of work exactly if all those have been taken out that its text
repeats.**  A list that is new, is put together from tasks, or has been read leniently never has any,
whatever is added, merged and taken out.  One that has been read strictly has them as its text does,
until for each unit of work at most one entry more has been there than has been taken out. -/
theorem distinct_changeAll_iff {o : Origin} {l : TaskList} (h : o.list? = some l)
    (changes : List Change) :
    (l.changeAll changes).1.Distinct ↔
      (o.isStrict = true → ∀ key,
        l.keys.count key ≤ ((l.changeAll changes).2.map Task.key).count key + 1) := by
  have hrepeats : (l.changeAll changes).1.Distinct ↔
      ∀ key, l.keys.count key ≤ ((l.changeAll changes).2.map Task.key).count key + 1 := by
    rw [distinct_iff_repeats]
    refine forall_congr' fun key => ?_
    rw [repeats_changeAll, repeats]
    omega
  cases ho : o.isStrict with
  | true => simpa using hrepeats
  | false =>
    have hdistinct : ∀ key, l.keys.count key ≤ 1 :=
      List.nodup_iff_count.1 (Origin.distinct_of_not_isStrict h ho)
    refine ⟨nofun, fun _ => hrepeats.2 fun key => ?_⟩
    exact Nat.le_trans (hdistinct key) (Nat.le_add_left 1 _)

/-- Two entries for one unit of work, the second of which has come further. -/
def doubled : String :=
  "\x7b\"tasks\":[\x7b\"phase\":\"p\",\"destination\":\"a\"\x7d," ++
    "\x7b\"phase\":\"p\",\"destination\":\"a\",\"subStep\":3\x7d]\x7d"

/-- As long as both entries are there, more work for the same unit does not make them one; when the
second has been taken out, the list is as it should be and stays so. -/
theorem distinct_changeAll_iff_doubled :
    let l : TaskList := ⟨[{ phase := "p", destination := "a" },
      { phase := "p", subStep := 3, destination := "a" }]⟩
    let more : Change := .merge ⟨[{ phase := "p", subStep := 4, destination := "a" }]⟩
    (Origin.text doubled).list? = some l ∧
      ¬ (l.changeAll [more]).1.Distinct ∧
      (l.changeAll [more, .popNext .standard, .add { phase := "p", destination := "a" }]).1.Distinct := by
  intro l more
  have hread : (Origin.text doubled).list? = some l := rfl
  refine ⟨hread, fun hdistinct => ?_, ?_⟩
  · have hcount := (distinct_changeAll_iff hread [more]).1 hdistinct rfl ⟨"p", "a"⟩
    revert hcount
    decide
  · refine (distinct_changeAll_iff hread _).2 fun _ key => ?_
    have hpopped : (l.changeAll [more, .popNext .standard,
        .add { phase := "p", destination := "a" }]).2.map Task.key = [⟨"p", "a"⟩] := by decide +kernel
    rw [hpopped]
    show [⟨"p", "a"⟩, ⟨"p", "a"⟩].count key ≤ _
    rw [List.count_cons, List.count_singleton]
    split <;> decide

/-- The strict reader makes a list in which a unit of work occurs twice. -/
theorem not_distinct_doubled :
    let l : TaskList := ⟨[{ phase := "p", destination := "a" },
      { phase := "p", subStep := 3, destination := "a" }]⟩
    (Origin.text doubled).list? = some l ∧ ¬ (l.changeAll []).1.Distinct :=
  ⟨rfl, by decide⟩

end TaskRelay.TaskList
