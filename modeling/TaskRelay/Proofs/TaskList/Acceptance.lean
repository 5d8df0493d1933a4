import TaskRelay.Proofs.Batch
import TaskRelay.Proofs.TaskList.Readers

/-!
# Which texts are task lists

A task list is a record, and a record may be an object or an array (`TaskList.entries?_eq_some_iff`).
The lenient reader takes a text exactly if it is either of them and each entry is a value for general
use (`TaskList.decodeLenient?_ne_none_iff`), and it takes the entries of an array as it takes those of
an object.  So of all texts that are no objects it takes the empty array, and the array whose only item
is an array of entries.
-/

namespace TaskRelay

namespace Json

/-- The fields of an object are those of its members that are named like fields, and all its names
have to be texts. -/
theorem fieldMembers?_eq_some_iff {names : List String} {members : List (Option String × RawJson)}
    {fields : Fields} :
    fieldMembers? names members = some fields ↔
      ∃ named : Fields, members = named.map (fun m => (some m.1, m.2)) ∧
        fields = named.filter fun m => names.contains m.1 := by
  induction members generalizing fields with
  | nil =>
    constructor
    · rintro ⟨⟩
      exact ⟨[], rfl, rfl⟩
    · rintro ⟨named, hnil, rfl⟩
      rw [List.map_eq_nil_iff.1 hnil.symm]
      rfl
  | cons first members ih =>
    obtain ⟨name, value⟩ := first
    simp only [fieldMembers?, Option.bind_eq_bind, Option.bind_eq_some_iff, ih]
    constructor
    · rintro ⟨key, rfl, others, ⟨named, rfl, rfl⟩, heq⟩
      cases heq
      refine ⟨(key, value) :: named, rfl, ?_⟩
      rw [List.filter_cons]
    · rintro ⟨named, hcons, rfl⟩
      obtain ⟨⟨key, _⟩, others, rfl, hfirst, rfl⟩ := List.map_eq_cons_iff.1 hcons.symm
      cases hfirst
      refine ⟨key, rfl, _, ⟨others, rfl, rfl⟩, ?_⟩
      rw [List.filter_cons]
      rfl

end Json

namespace TaskList

/-- An object whose names are all texts, with these entries in its only member for tasks, or without
such a member and without entries. -/
def IsObject (j : RawJson) (items : List RawJson) : Prop :=
  ∃ members : Json.Fields, j = .object (members.map fun m => (some m.1, m.2)) ∧
    (members.filter (·.1 == "tasks") = [("tasks", .array items)] ∨
      members.filter (·.1 == "tasks") = [] ∧ items = [])

/-- An array with an array of these entries for its only item, or without any item and without
entries. -/
def IsRow (j : RawJson) (items : List RawJson) : Prop :=
  j = .array [.array items] ∨ j = .array [] ∧ items = []

theorem fields?_tasks (members : Json.Fields) :
    Json.fields? ["tasks"] (.object (members.map fun m => (some m.1, m.2))) =
      if ((members.filter (·.1 == "tasks")).map (·.1)).Nodup then
        some (members.filter (·.1 == "tasks"))
      else none := by
  have hnamed : ∀ m : String × RawJson, ["tasks"].contains m.1 = (m.1 == "tasks") := fun m => by
    rw [List.contains_cons, List.contains_nil, Bool.or_false]
  have hfields : Json.fieldMembers? ["tasks"] (members.map fun m => (some m.1, m.2)) =
      some (members.filter (·.1 == "tasks")) :=
    Json.fieldMembers?_eq_some_iff.2 ⟨members, rfl, by simp only [hnamed]⟩
  rw [Json.fields?, hfields]
  rfl

theorem entries?_object_iff {members : Json.Fields} {items : List RawJson} :
    entries? (.object (members.map fun m => (some m.1, m.2))) = some items ↔
      members.filter (·.1 == "tasks") = [("tasks", .array items)] ∨
        members.filter (·.1 == "tasks") = [] ∧ items = [] := by
  have hname : ∀ m ∈ members.filter (·.1 == "tasks"), m.1 = "tasks" := fun m hm =>
    beq_iff_eq.1 (List.mem_filter.1 hm).2
  rw [entries?, fields?_tasks]
  generalize members.filter (·.1 == "tasks") = fields at hname ⊢
  rcases fields with _ | ⟨⟨name, value⟩, _ | ⟨second, fields⟩⟩
  · simp [eq_comm]
  · obtain rfl : name = "tasks" := hname _ List.mem_cons_self
    cases value <;> simp
  · -- a name that occurs twice is refused
    obtain rfl : name = "tasks" := hname _ List.mem_cons_self
    have htwice : ¬ ((("tasks", value) :: second :: fields).map (·.1)).Nodup := by
      simp [hname second]
    rw [if_neg htwice]
    simp

theorem entries?_array_iff {row items : List RawJson} :
    entries? (.array row) = some items ↔ IsRow (.array row) items := by
  match row with
  | [] => simp [entries?, Json.fields?, IsRow, eq_comm]
  | [item] => cases item <;> simp [entries?, Json.fields?, IsRow]
  | first :: second :: row => simp [entries?, Json.fields?, IsRow]

/-- **What entries a value holds**, if it is a record at all. -/
theorem entries?_eq_some_iff {j : RawJson} {items : List RawJson} :
    entries? j = some items ↔ IsObject j items ∨ IsRow j items := by
  cases j with
  | object members =>
    have hrow : ¬ IsRow (.object members) items := by rintro (⟨⟨⟩⟩ | ⟨⟨⟩, -⟩)
    rw [or_iff_left hrow]
    constructor
    · intro h
      obtain ⟨fields, hfields, -⟩ := Option.bind_eq_some_iff.1 h
      obtain ⟨found, hfound, -⟩ := Option.bind_eq_some_iff.1 hfields
      obtain ⟨named, rfl, -⟩ := Json.fieldMembers?_eq_some_iff.1 hfound
      exact ⟨named, rfl, entries?_object_iff.1 h⟩
    · rintro ⟨named, heq, h⟩
      cases heq
      exact entries?_object_iff.2 h
  | array row =>
    have hobject : ¬ IsObject (.array row) items := by rintro ⟨members, ⟨⟩, -⟩
    rw [or_iff_right hobject, entries?_array_iff]
  | null | bool | number | text =>
    constructor
    · rintro ⟨⟩
    · rintro (⟨members, ⟨⟩, -⟩ | ⟨⟨⟩⟩ | ⟨⟨⟩, -⟩)

theorem mapM_ne_none_iff {α β : Type} {f : α → Option β} {l : List α} :
    l.mapM f ≠ none ↔ ∀ a ∈ l, f a ≠ none := by
  constructor
  · exact fun h a ha hnone => h (mapM_eq_none ha hnone)
  · induction l with
    | nil => exact fun _ => nofun
    | cons a l ih =>
      intro h
      obtain ⟨b, hb⟩ := Option.ne_none_iff_exists'.1 (h a List.mem_cons_self)
      obtain ⟨bs, hbs⟩ := Option.ne_none_iff_exists'.1
        (ih fun c hc => h c (List.mem_cons_of_mem _ hc))
      rw [List.mapM_cons, hb, hbs]
      nofun

/-- **The lenient reader takes a text exactly if it is a record**, be it an object or an array, and all
its entries are values for general use and do not lie too deep. -/
theorem decodeLenient?_ne_none_iff {s : String} :
    decodeLenient? s ≠ none ↔
      ∃ j items, Json.read? s = some j ∧ (IsObject j items ∨ IsRow j items) ∧
        ∀ item ∈ items, item.Fits entryDepth := by
  have hfits : ∀ items : List RawJson,
      items.mapM entry? ≠ none ↔ ∀ item ∈ items, item.Fits entryDepth := fun items => by
    simp only [mapM_ne_none_iff, entry?_ne_none_iff_fits]
  simp only [← hfits, ← entries?_eq_some_iff, decodeLenient?, Option.bind_eq_bind]
  constructor
  · intro h
    obtain ⟨read, hread⟩ := Option.ne_none_iff_exists'.1 h
    obtain ⟨j, hj, hread⟩ := Option.bind_eq_some_iff.1 hread
    obtain ⟨items, hitems, hread⟩ := Option.bind_eq_some_iff.1 hread
    obtain ⟨values, hvalues, -⟩ := Option.bind_eq_some_iff.1 hread
    exact ⟨j, items, hj, hitems, Option.ne_none_iff_exists'.2 ⟨values, hvalues⟩⟩
  · rintro ⟨j, items, hj, hitems, hvalues⟩
    obtain ⟨values, hvalues⟩ := Option.ne_none_iff_exists'.1 hvalues
    rw [hj, Option.bind_some, hitems, Option.bind_some, hvalues]
    exact Option.some_ne_none _

/-- A text that is an array of entries, or the empty array, and that the lenient reader takes. -/
def IsRowText (s : String) : Prop :=
  ∃ j items, Json.read? s = some j ∧ IsRow j items ∧ ∀ item ∈ items, item.Fits entryDepth

/-- **Only objects are taken for task lists, but for rows of entries.**  The lenient reader takes an
object with its entries, provided that they fit, and a row of such entries, and nothing else; whatever
it takes a batch counts as a message.  So a text that is taken is an object exactly if it is no row. -/
theorem takes_objects_only_iff (s : String) :
    (decodeLenient? s ≠ none ↔
      (∃ j items, Json.read? s = some j ∧ IsObject j items ∧ ∀ item ∈ items, item.Fits entryDepth) ∨
        IsRowText s) ∧
    (∀ (b : Batch) (attributes : Headers),
      (b.absorb { attributes, payload := s }).messages = b.messages + 1 ↔ decodeLenient? s ≠ none) ∧
    ((decodeLenient? s ≠ none → ∃ members, Json.read? s = some (.object members)) ↔
      ¬ IsRowText s) := by
  have htakes : decodeLenient? s ≠ none ↔
      (∃ j items, Json.read? s = some j ∧ IsObject j items ∧ ∀ item ∈ items, item.Fits entryDepth) ∨
        IsRowText s := by
    simp only [decodeLenient?_ne_none_iff, IsRowText, or_and_right, and_or_left, exists_or]
  refine ⟨htakes, fun b attributes => ?_, ?_, ?_⟩
  · rw [Batch.messages_absorb, Message.holdsTasks, Option.ne_none_iff_isSome]
    cases (decodeLenient? s).isSome <;> simp
  · intro hobject hrow
    obtain ⟨members, hmembers⟩ := hobject (htakes.2 (.inr hrow))
    obtain ⟨j, items, hj, hrow, -⟩ := hrow
    cases hmembers.symm.trans hj
    rcases hrow with ⟨⟨⟩⟩ | ⟨⟨⟩, -⟩
  · intro hrow htaken
    rcases htakes.1 htaken with ⟨j, items, hj, ⟨members, rfl, -⟩, -⟩ | hrow'
    · exact ⟨_, hj⟩
    · exact absurd hrow' hrow

/-- An array with an array of one task for its only item. -/
def rowText : String :=
  "[[\x7b\"phase\":\"p\",\"destination\":\"a\"\x7d]]"

/-- The lenient reader takes a text that is no object, and a batch counts it as a message. -/
theorem not_object_rowText :
    (∃ row, Json.read? rowText = some (.array row)) ∧
      decodeLenient? rowText = some (⟨[{ phase := "p", destination := "a" }]⟩, 0) ∧
      ((∅ : Batch).absorb { payload := rowText }).messages = 1 := by
  have hread : Json.read? rowText = some (.array [.array [.object
      [(some "phase", .text (some "p")), (some "destination", .text (some "a"))]]]) := rfl
  have hentry : entry? (.object
      [(some "phase", .text (some "p")), (some "destination", .text (some "a"))]) =
      some (.object [("phase", .text "p"), ("destination", .text "a")]) := rfl
  have htaken : decodeLenient? rowText =
      some (⟨[{ phase := "p", destination := "a" }]⟩, 0) := by
    rw [decodeLenient?, hread, Option.bind_eq_bind, Option.bind_some,
      entries?_eq_some_iff.2 (.inr (.inl rfl)), Option.bind_eq_bind, Option.bind_some,
      List.mapM_cons, hentry]
    rfl
  refine ⟨⟨_, hread⟩, htaken, ?_⟩
  rw [Batch.messages_absorb, Message.holdsTasks, htaken]
  rfl

end TaskList

end TaskRelay
