import TaskRelay.Batch
import TaskRelay.Proofs.Headers
import TaskRelay.Proofs.Json.RoundTrip
import TaskRelay.Proofs.TaskList.Keys

/-!
# Task lists survive the wire

The text of a task list, read strictly, gives the list again (`decode?_encode`).  Read leniently it gives
the list with each unit of work once (`decodeLenient?_encode`); for a list of distinct units of work
that is the list itself.  No entry is left out on the way: the record of a task lies within the bounds
of general use and is read as the task (`entry?_toJson`, `ofJson?_toJson`).
-/

namespace TaskRelay

/-! ## Headers -/

namespace Headers

theorem entriesOfJson?_raw (entries : List (String × String)) :
    entriesOfJson? (Json.rawMembers (entries.map fun (k, v) => (k, .text v))) = some entries := by
  induction entries with
  | nil => rfl
  | cons e entries ih =>
    obtain ⟨k, v⟩ := e
    rw [List.map_cons, Json.rawMembers, entriesOfJson?, ih]
    rfl

theorem ofJson?_toJson (h : Headers) : ofJson? h.toJson.raw = some h := by
  rw [toJson, Json.raw, ofJson?, entriesOfJson?_raw, Option.map_some, ofList_entries]

theorem isSound_toJson (h : Headers) : h.toJson.IsSound := by
  have hmembers : ∀ entries : List (String × String),
      Json.MembersAreSound (entries.map fun (k, v) => (k, .text v)) := by
    intro entries
    induction entries with
    | nil => trivial
    | cons e entries ih => exact ⟨trivial, ih⟩
  refine ⟨?_, hmembers h.entries⟩
  rw [List.map_map]
  exact Keyed.nodup_of_rising h.rising

theorem nestsWithin_toJson (h : Headers) (limit : Nat) :
    h.toJson.raw.nestsWithin (limit + 1) = true := by
  rw [toJson, Json.raw, Json.rawMembers_eq_map, Json.nestsWithin, List.map_map, List.all_map,
    List.all_eq_true]
  intro e _
  simp [Json.raw, Json.nestsWithin]

end Headers

/-! ## Tasks -/

namespace Task

/-- A task from a value for general use. -/
def ofValue? (v : Json String) : Option Task :=
  ofJson? v.raw

theorem word32?_ofNat (n : UInt32) :
    (Json.number (.ofNat n.toNat) : RawJson).word32? = some n := by
  have hn : n.toNat ≤ 4294967295 := by
    have := n.toNat_lt
    omega
  simp [Json.word32?, Json.natural?, Numeral.natural?, Numeral.ofNat, hn, Option.filter]

/-- A task is read from its record as it was. -/
theorem ofJson?_toJson (t : Task) : ofJson? t.toJson.raw = some t := by
  obtain ⟨phase, subStep, destination, headers⟩ := t
  by_cases hempty : headers.isEmpty = true
  · have hnone : headers = ∅ := Headers.ext (List.isEmpty_iff.1 hempty)
    subst hnone
    simp [toJson, hempty, ofJson?, Json.raw, Json.rawMembers, Json.fields?, Json.fieldMembers?,
      fieldNames, List.lookup_cons, Json.text?, word32?_ofNat]
  · have hheaders := Headers.ofJson?_toJson headers
    simp [toJson, hempty, ofJson?, Json.raw, Json.rawMembers, Json.fields?, Json.fieldMembers?,
      fieldNames, List.lookup_cons, Json.text?, word32?_ofNat, hheaders]

/-- The record of a task repeats no name, and its sub-step is within range. -/
theorem isSound_toJson (t : Task) : t.toJson.IsSound := by
  have hrange : (Numeral.ofNat t.subStep.toNat).inRange = true :=
    Json.inRange_ofNat t.subStep.toNat_lt
  by_cases hempty : t.headers.isEmpty = true
  · simp [toJson, hempty, Json.IsSound, Json.MembersAreSound, hrange]
  · simp [toJson, hempty, Json.IsSound, Json.MembersAreSound, hrange,
      Headers.isSound_toJson t.headers]

theorem nestsWithin_toJson (t : Task) (limit : Nat) :
    t.toJson.raw.nestsWithin (limit + 2) = true := by
  have hheaders := Headers.nestsWithin_toJson t.headers limit
  by_cases hempty : t.headers.isEmpty = true
  · simp [toJson, hempty, Json.raw, Json.rawMembers, Json.nestsWithin]
  · simp [toJson, hempty, Json.raw, Json.rawMembers, Json.nestsWithin, hheaders]

end Task

/-! ## Lists -/

namespace TaskList

/-- The record of a task is an entry that is not left out. -/
theorem entry?_toJson (t : Task) : entry? t.toJson.raw = some t.toJson := by
  have hdepth : t.toJson.raw.nestsWithin entryDepth = true := Task.nestsWithin_toJson t 123
  rw [ entry?, if_pos hdepth, Json.sound?_raw t.isSound_toJson]

theorem entries?_toJson (l : TaskList) :
    entries? l.toJson.raw = some (l.tasks.map fun t => t.toJson.raw) := by
  simp [entries?, toJson, Json.raw, Json.rawMembers, Json.rawItems_eq_map, Json.fields?,
    Json.fieldMembers?]

/-- Reading records one by one that are read one by one. -/
theorem mapM_map {α β γ : Type} {write : α → β} {read : β → Option γ} {value : α → γ} {l : List α}
    (h : ∀ a ∈ l, read (write a) = some (value a)) :
    (l.map write).mapM read = some (l.map value) := by
  induction l with
  | nil => rfl
  | cons a l ih =>
    obtain ⟨ha, hl⟩ := List.forall_mem_cons.1 h
    rw [List.map_cons, List.mapM_cons, ha, ih hl]
    rfl

/-- What is written is read strictly as it was, repeated units of work included. -/
theorem decode?_encode (l : TaskList) : decode? l.encode = some l := by
  have hread : Json.read? l.encode = some l.toJson.raw := Json.read?_write l.toJson
  rw [decode?, hread, Option.bind_eq_bind, Option.bind_some, entries?_toJson, Option.bind_eq_bind,
    Option.bind_some, mapM_map fun t _ => Task.ofJson?_toJson t, List.map_id']
  rfl

/-- The entries that are tasks are added in their order, and the others are counted. -/
theorem foldl_addEntry (values : List (Json String)) (l : TaskList) (skipped : Nat) :
    values.foldl addEntry (l, skipped) =
      ((values.filterMap Task.ofValue?).foldl add l,
        skipped + values.countP fun v => (Task.ofValue? v).isNone) := by
  induction values generalizing l skipped with
  | nil => rfl
  | cons v values ih =>
    rw [List.foldl_cons, addEntry, List.filterMap_cons, List.countP_cons, ← Task.ofValue?]
    cases Task.ofValue? v with
    | none =>
      rw [ih, Option.isNone_none, if_pos rfl, Nat.add_right_comm, Nat.add_assoc]
    | some t => exact ih (l.add t) skipped

/-- Where all entries are tasks, these are added. -/
theorem foldl_addEntry_of_map {values : List (Json String)} {tasks : List Task}
    (h : values.map Task.ofValue? = tasks.map some) (l : TaskList) (skipped : Nat) :
    values.foldl addEntry (l, skipped) = (tasks.foldl add l, skipped) := by
  have htasks : values.filterMap Task.ofValue? = tasks := by
    show values.filterMap (id ∘ Task.ofValue?) = tasks
    rw [← List.filterMap_map, h, List.filterMap_map]
    exact List.filterMap_some
  have hskipped : (values.countP fun v => (Task.ofValue? v).isNone) = 0 := by
    show values.countP (Option.isNone ∘ Task.ofValue?) = 0
    rw [← List.countP_map, h]
    simp
  rw [foldl_addEntry, htasks, hskipped, Nat.add_zero]

/-- **What is written is read leniently as it was**, with each unit of work once and nothing left
out. -/
theorem decodeLenient?_encode (l : TaskList) :
    decodeLenient? l.encode = some (ofList l.tasks, 0) := by
  have hread : Json.read? l.encode = some l.toJson.raw := Json.read?_write l.toJson
  have htasks : (l.tasks.map Task.toJson).map Task.ofValue? = l.tasks.map some := by
    rw [List.map_map]
    exact List.map_congr_left fun t _ => Task.ofJson?_toJson t
  rw [decodeLenient?, hread, Option.bind_eq_bind, Option.bind_some, entries?_toJson,
    Option.bind_eq_bind, Option.bind_some, mapM_map fun t _ => entry?_toJson t, Option.bind_eq_bind,
    Option.bind_some, foldl_addEntry_of_map htasks]
  rfl

theorem mergeText?_encode (l other : TaskList) :
    l.mergeText? other.encode =
      some ((l.merge (ofList other.tasks)).1, (l.merge (ofList other.tasks)).2, 0) := by
  simp [mergeText?, decodeLenient?_encode]

/-- **A task list survives the wire**: read strictly it is as it was, and if its units of work are
distinct, so is it read leniently or merged into an empty list. -/
theorem survives_wire (l : TaskList) :
    decode? l.encode = some l ∧
      (l.Distinct → decodeLenient? l.encode = some (l, 0) ∧
        mergeText? ∅ l.encode = some (l, l.size, 0)) := by
  refine ⟨decode?_encode l, fun hdistinct => ⟨?_, ?_⟩⟩
  · rw [decodeLenient?_encode, ofList_tasks hdistinct]
  · rw [mergeText?_encode, ofList_tasks hdistinct, merge_empty hdistinct]

/-- A task whose texts have to be escaped, and one that has come as far as a task can. -/
def unwieldy : TaskList :=
  ⟨[{ phase := "a \"quoted\" phase", destination := "x\ny",
      headers := .ofList [("\\", "\x00\x1f"), ("", "𝄞")] },
    { phase := "", subStep := 4294967295, destination := "" }]⟩

theorem survives_wire_unwieldy :
    unwieldy.Distinct ∧ decodeLenient? unwieldy.encode = some (unwieldy, 0) ∧
      mergeText? ∅ unwieldy.encode = some (unwieldy, 2, 0) := by
  have hdistinct : unwieldy.Distinct := by decide
  exact ⟨hdistinct, (survives_wire unwieldy).2 hdistinct⟩

/-- Whatever is read leniently has distinct units of work. -/
theorem distinct_decodeLenient? {s : String} {l : TaskList} {skipped : Nat}
    (h : decodeLenient? s = some (l, skipped)) : l.Distinct := by
  simp only [decodeLenient?, Option.bind_eq_bind, Option.bind_eq_some_iff] at h
  obtain ⟨_, _, items, _, values, _, hfinal⟩ := h
  have hl : (values.foldl addEntry (∅, 0)).1 = l := by
    rw [Option.some.inj hfinal]
  rw [← hl, foldl_addEntry]
  exact distinct_ofList _

end TaskList

/-! ## Messages -/

namespace Message

/-- The units of work in a message; a message that is no task list has none. -/
def keys (m : Message) : List TaskKey :=
  ((TaskList.decodeLenient? m.payload).map fun read => read.1.keys).getD []

theorem mem_keys_encode {l : TaskList} {attributes : Headers} {key : TaskKey} :
    key ∈ keys { attributes, payload := l.encode } ↔ key ∈ l.keys := by
  rw [keys, TaskList.decodeLenient?_encode]
  exact TaskList.mem_keys_ofList

end Message

namespace Batch

theorem absorb_of_mergeText? {b : Batch} {m : Message} {tasks : TaskList} {added skipped : Nat}
    (h : b.tasks.mergeText? m.payload = some (tasks, added, skipped)) :
    b.absorb m =
      { b with tasks, attributes := b.attributes.union m.attributes, messages := b.messages + 1 } := by
  rw [absorb, h]

/-- A task list that has been written is merged, whatever the batch holds. -/
theorem absorb_encode (b : Batch) (l : TaskList) (attributes : Headers) :
    b.absorb { attributes, payload := l.encode } =
      { b with
        tasks := (b.tasks.merge (TaskList.ofList l.tasks)).1
        attributes := b.attributes.union attributes
        messages := b.messages + 1 } :=
  absorb_of_mergeText? (TaskList.mergeText?_encode b.tasks l)

/-- A batch takes in all units of work of a message and keeps those it has. -/
theorem mem_keys_absorb (b : Batch) (m : Message) {key : TaskKey} :
    key ∈ (b.absorb m).tasks.keys ↔ key ∈ b.tasks.keys ∨ key ∈ m.keys := by
  rw [absorb, TaskList.mergeText?, Message.keys]
  cases h : TaskList.decodeLenient? m.payload with
  | none => simp
  | some read => exact TaskList.mem_keys_merge

/-- The units of work of a batch are distinct, whatever it has taken in. -/
theorem distinct_absorb {b : Batch} (h : b.tasks.Distinct) (m : Message) :
    (b.absorb m).tasks.Distinct := by
  rw [absorb, TaskList.mergeText?]
  cases TaskList.decodeLenient? m.payload with
  | none => exact h
  | some read => exact TaskList.distinct_merge h read.1

/-- As long as no message held a task list, there are no tasks. -/
def Counts (b : Batch) : Prop :=
  b.isRejectedOnly = true → b.tasks = ∅

theorem counts_absorb {b : Batch} (h : b.Counts) (m : Message) : (b.absorb m).Counts := by
  rw [absorb]
  cases b.tasks.mergeText? m.payload with
  | none => exact h
  | some read =>
    intro hrejected
    simp [isRejectedOnly] at hrejected

end Batch

end TaskRelay
