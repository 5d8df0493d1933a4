import TaskRelay.Proofs.Batch
import TaskRelay.Proofs.TaskList.Readers

/-!
# Bad entries and bad messages do no harm

A text that is read leniently comes to the tasks among its entries, and to the number of the entries
that are none (`TaskList.decodeLenient?_of_entryValues?`).  So wherever entries stand that are no
tasks, and however many, the list is the same without them.  It is the same with messages that hold
no task list: a batch that takes them in counts them, and is otherwise what it would be without them
(`Batch.absorbAll_withRejected`).
-/

namespace TaskRelay

/-! ## Entries -/

namespace TaskList

/-- The entries of a text, as values for general use. -/
def entryValues? (s : String) : Option (List (Json String)) :=
  ((Json.read? s).bind entries?).bind fun items => items.mapM entry?

theorem decodeLenient?_eq (s : String) :
    decodeLenient? s = (entryValues? s).map fun values => values.foldl addEntry (∅, 0) := by
  rw [decodeLenient?, entryValues?]
  cases Json.read? s with
  | none => rfl
  | some j =>
    rw [Option.bind_eq_bind, Option.bind_some, Option.bind_some]
    cases entries? j with
    | none => rfl
    | some items =>
      rw [Option.bind_eq_bind, Option.bind_some, Option.bind_some]
      cases items.mapM entry? <;> rfl

/-- **A lenient reading comes to the tasks among the entries**, of each unit of work to the first. -/
theorem decodeLenient?_of_entryValues? {s : String} {values : List (Json String)}
    (h : entryValues? s = some values) :
    decodeLenient? s =
      some (⟨(values.filterMap Task.ofValue?).eraseDupsBy fun t u => t.key == u.key⟩,
        values.countP fun v => (Task.ofValue? v).isNone) := by
  rw [decodeLenient?_eq, h, Option.map_some, foldl_addEntry, Nat.zero_add, ← ofList_eq]
  rfl

/-- Entries that are no tasks are of no account. -/
theorem filterMap_ofValue?_congr {values values' : List (Json String)}
    (h : values'.filter (fun v => (Task.ofValue? v).isSome) =
      values.filter fun v => (Task.ofValue? v).isSome) :
    values'.filterMap Task.ofValue? = values.filterMap Task.ofValue? := by
  have hfilter : ∀ values : List (Json String), values.filterMap Task.ofValue? =
      (values.filter fun v => (Task.ofValue? v).isSome).filterMap Task.ofValue? := by
    intro values
    rw [List.filterMap_filter]
    refine List.filterMap_congr fun v _ => ?_
    cases Task.ofValue? v <;> rfl
  rw [hfilter values', hfilter values, h]

/-- Whatever is done with entries that are no tasks, the tasks that are read stay the same. -/
theorem tasks_decodeLenient?_congr {s s' : String} {values values' : List (Json String)}
    (h : entryValues? s = some values) (h' : entryValues? s' = some values')
    (hsame : values'.filter (fun v => (Task.ofValue? v).isSome) =
      values.filter fun v => (Task.ofValue? v).isSome) :
    (decodeLenient? s').map Prod.fst = (decodeLenient? s).map Prod.fst := by
  rw [decodeLenient?_of_entryValues? h, decodeLenient?_of_entryValues? h',
    filterMap_ofValue?_congr hsame, Option.map_some, Option.map_some]

/-! ### Writing any entries -/

/-- The text with the given entries. -/
def encodeEntries (values : List (Json String)) : String :=
  (Json.object [("tasks", .array values)]).write

/-- A value that can be an entry: it is within the bounds of general use and not nested too deep. -/
structure IsEntry (v : Json String) : Prop where
  isSound : v.IsSound
  nests : v.raw.nestsWithin entryDepth = true

theorem entryValues?_encodeEntries {values : List (Json String)} (h : ∀ v ∈ values, IsEntry v) :
    entryValues? (encodeEntries values) = some values := by
  have hread : Json.read? (encodeEntries values) =
      some (.object [(some "tasks", .array (values.map Json.raw))]) := by
    rw [encodeEntries, Json.read?_write, ← Json.rawItems_eq_map]
    rfl
  have hentry : ∀ v ∈ values, entry? v.raw = some (id v) := by
    intro v hv
    rw [ entry?, if_pos (h v hv).nests, Json.sound?_raw (h v hv).isSound]
    rfl
  rw [entryValues?, hread, Option.bind_some]
  exact (mapM_map hentry).trans (congrArg some (List.map_id values))

end TaskList

/-! ## Messages -/

namespace Batch

theorem absorb_of_not_holdsTasks {m : Message} (h : m.holdsTasks = false) (b : Batch) :
    b.absorb m = { b with rejected := b.rejected + 1 } := by
  rw [Message.holdsTasks, Option.isSome_eq_false_iff, Option.isNone_iff_eq_none] at h
  rw [absorb, TaskList.mergeText?, h]
  rfl

/-- Taking in a message with a task list has nothing to do with how many have been rejected. -/
theorem absorb_withRejected {m : Message} (h : m.holdsTasks = true) (b : Batch) (n : Nat) :
    ({ b with rejected := n } : Batch).absorb m = { b.absorb m with rejected := n } := by
  obtain ⟨read, hread⟩ := Option.isSome_iff_exists.1 h
  rw [absorb, absorb, TaskList.mergeText?, hread]
  rfl

/-- **Messages without a task list are counted**, and are otherwise of no account. -/
theorem absorbAll_withRejected (b : Batch) (messages : List Message) (n : Nat) :
    ({ b with rejected := n } : Batch).absorbAll messages =
      { b.absorbAll (messages.filter Message.holdsTasks) with
        rejected := n + messages.countP (!·.holdsTasks) } := by
  induction messages generalizing b n with
  | nil => rfl
  | cons m messages ih =>
    rw [absorbAll, List.foldl_cons, ← absorbAll, List.filter_cons, List.countP_cons]
    cases hm : m.holdsTasks with
    | true =>
      rw [absorb_withRejected hm, ih]
      rfl
    | false =>
      rw [absorb_of_not_holdsTasks hm]
      refine (ih b (n + 1)).trans ?_
      rw [Nat.add_right_comm, Nat.add_assoc]
      rfl

/-- Of each attribute a batch has the first value that has come with a task list. -/
theorem get?_attributes_absorbAll (b : Batch) (messages : List Message) (name : String) :
    (b.absorbAll messages).attributes.get? name = (b.attributes.get? name).or
      ((messages.filter Message.holdsTasks).findSome? (·.attributes.get? name)) := by
  induction messages generalizing b with
  | nil => exact Option.or_none.symm
  | cons m messages ih =>
    rw [absorbAll, List.foldl_cons, ← absorbAll, ih, List.filter_cons]
    cases hm : m.holdsTasks with
    | true =>
      obtain ⟨read, hread⟩ := Option.isSome_iff_exists.1 hm
      have hunion : (b.absorb m).attributes = b.attributes.union m.attributes := by
        rw [absorb, TaskList.mergeText?, hread]
        rfl
      rw [hunion, Headers.get?_union, if_pos rfl, List.findSome?_cons, Option.or_assoc]
      cases m.attributes.get? name <;> rfl
    | false =>
      rw [absorb_of_not_holdsTasks hm]
      rfl

/-- **Bad entries and bad messages do no harm.**  Any values can be the entries of a text.  Read
leniently, a text comes to those of its entries that are tasks, of each unit of work to the first,
and to the number of the others, which may stand anywhere.  A message that cannot be read counts as
rejected, and a batch is otherwise what it is without such messages: it has the tasks of the others,
as many messages as there are others, and of each attribute the value that has come first with one
of them. -/
theorem isolates :
    (∀ values : List (Json String), (∀ v ∈ values, TaskList.IsEntry v) →
      TaskList.entryValues? (TaskList.encodeEntries values) = some values) ∧
    (∀ s values, TaskList.entryValues? s = some values →
      TaskList.decodeLenient? s =
        some (⟨(values.filterMap Task.ofValue?).eraseDupsBy fun t u => t.key == u.key⟩,
          values.countP fun v => (Task.ofValue? v).isNone)) ∧
    (∀ s s' values values', TaskList.entryValues? s = some values →
      TaskList.entryValues? s' = some values' →
      values'.filter (fun v => (Task.ofValue? v).isSome) =
        values.filter (fun v => (Task.ofValue? v).isSome) →
      (TaskList.decodeLenient? s').map Prod.fst = (TaskList.decodeLenient? s).map Prod.fst) ∧
    (∀ (b : Batch) (m : Message), m.holdsTasks = false →
      b.absorb m = { b with rejected := b.rejected + 1 }) ∧
    ∀ (b : Batch) (messages : List Message),
      b.absorbAll messages =
        { b.absorbAll (messages.filter Message.holdsTasks) with
          rejected := b.rejected + messages.countP (!·.holdsTasks) } ∧
      (b.absorbAll messages).messages = b.messages + messages.countP Message.holdsTasks ∧
      ∀ name, (b.absorbAll messages).attributes.get? name = (b.attributes.get? name).or
        ((messages.filter Message.holdsTasks).findSome? (·.attributes.get? name)) :=
  ⟨fun _ => TaskList.entryValues?_encodeEntries,
    fun _ _ => TaskList.decodeLenient?_of_entryValues?,
    fun _ _ _ _ => TaskList.tasks_decodeLenient?_congr,
    fun b _ h => absorb_of_not_holdsTasks h b,
    fun b messages => ⟨absorbAll_withRejected b messages b.rejected, messages_absorbAll b messages,
      get?_attributes_absorbAll b messages⟩⟩

/-- A task as a list of its fields, one without a destination, a number, a task with a member that is
none of its fields, and the first task once more. -/
def assorted : List (Json String) :=
  [.array [.text "LOAD", .number (.ofNat 2), .text "a"],
    .object [("phase", .text "LOAD")],
    .number (.ofNat 42),
    .object [("phase", .text "LOAD"), ("destination", .text "b"), ("color", .null)],
    .object [("phase", .text "LOAD"), ("destination", .text "a"), ("subStep", .number (.ofNat 3))]]

/-- A message that holds no task list, between two that do, if only one without a task. -/
def interrupted : List Message :=
  [{ attributes := .ofList [("source", "first")], payload := "\x7b\x7d" },
    { attributes := .ofList [("source", "second")], payload := "no list" },
    { attributes := .ofList [("source", "third"), ("note", "third")]
      payload := "\x7b\"tasks\":[42]\x7d" }]

/-- Two of the five entries are not read, and one does not count; and the batch is that of two
messages. -/
theorem isolates_assorted :
    (∀ v ∈ assorted, TaskList.IsEntry v) ∧
    TaskList.decodeLenient? (TaskList.encodeEntries assorted) =
      some (⟨[{ phase := "LOAD", subStep := 2, destination := "a" },
        { phase := "LOAD", destination := "b" }]⟩, 2) ∧
    (absorbAll ∅ interrupted).messages = 2 ∧ (absorbAll ∅ interrupted).rejected = 1 ∧
    (absorbAll ∅ interrupted).attributes.get? "source" = some "first" ∧
    (absorbAll ∅ interrupted).attributes.get? "note" = some "third" := by
  have hentries : ∀ v ∈ assorted, TaskList.IsEntry v := by
    simp only [assorted, List.forall_mem_cons, List.not_mem_nil, IsEmpty.forall_iff, implies_true,
      and_true]
    refine ⟨⟨?_, rfl⟩, ⟨?_, rfl⟩, ⟨?_, rfl⟩, ⟨?_, rfl⟩, ⟨?_, rfl⟩⟩ <;>
      simp [Json.IsSound, Json.AreSound, Json.MembersAreSound, Json.inRange_ofNat]
  obtain ⟨hread, hlenient, -, -, hbatch⟩ := isolates
  obtain ⟨hisolated, hmessages, hattributes⟩ := hbatch ∅ interrupted
  refine ⟨hentries, (hlenient _ _ (hread _ hentries)).trans ?_, hmessages.trans ?_,
    (congrArg rejected hisolated).trans ?_, (hattributes "source").trans ?_,
    (hattributes "note").trans ?_⟩ <;>
    decide +kernel

end Batch

end TaskRelay
