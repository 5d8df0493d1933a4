import Mathlib.Data.List.Forall2
import TaskRelay.Json.Record
import TaskRelay.Proofs.Json.RoundTrip

/-!
# Values for general use

A value that has been read can be put to general use exactly if its texts are sound and its numbers
within range, however deep they lie (`isSome_sound?_iff`).  Of several members with one name only the
last stays then.  A record does not see the difference: since no field of a record may occur twice, its
fields are the same before and after, each as the value for general use that it is (`fields?_raw`).
-/

namespace TaskRelay.Json

/-- All texts in the value are sound, names included, and all numbers are within range. -/
inductive IsGeneral : RawJson → Prop
  | null : IsGeneral .null
  | bool (b : Bool) : IsGeneral (.bool b)
  | number {n : Numeral} (h : n.inRange = true) : IsGeneral (.number n)
  | text (s : String) : IsGeneral (.text (some s))
  | array {items : List RawJson} (h : ∀ item ∈ items, IsGeneral item) : IsGeneral (.array items)
  | object {members : List (Option String × RawJson)}
      (hnames : ∀ m ∈ members, m.1.isSome = true) (hvalues : ∀ m ∈ members, IsGeneral m.2) :
      IsGeneral (.object members)

/-! ## What makes a value one for general use -/

theorem isGeneral_number_iff {n : Numeral} : IsGeneral (.number n) ↔ n.inRange = true :=
  ⟨fun h => by cases h; assumption, .number⟩

theorem isGeneral_text_iff {s : Option String} : IsGeneral (.text s) ↔ s.isSome = true := by
  constructor
  · rintro ⟨⟩
    rfl
  · intro h
    obtain ⟨s, rfl⟩ := Option.isSome_iff_exists.1 h
    exact .text s

theorem isGeneral_array_iff {items : List RawJson} :
    IsGeneral (.array items) ↔ ∀ item ∈ items, item.IsGeneral :=
  ⟨fun h => by cases h; assumption, .array⟩

theorem isGeneral_object_iff {members : List (Option String × RawJson)} :
    IsGeneral (.object members) ↔ ∀ m ∈ members, m.1.isSome = true ∧ m.2.IsGeneral := by
  constructor
  · rintro (_ | _ | _ | _ | _ | ⟨hnames, hvalues⟩) m hm
    exact ⟨hnames m hm, hvalues m hm⟩
  · exact fun h => .object (fun m hm => (h m hm).1) fun m hm => (h m hm).2

mutual

/-- **A value can be put to general use exactly if its texts are sound and its numbers within
range.** -/
theorem isSome_sound?_iff (j : RawJson) : j.sound?.isSome = true ↔ j.IsGeneral := by
  match j with
  | .null => exact ⟨fun _ => .null, fun _ => rfl⟩
  | .bool b => exact ⟨fun _ => .bool b, fun _ => rfl⟩
  | .number n =>
    rw [isGeneral_number_iff, sound?]
    split <;> simp_all
  | .text s => rw [isGeneral_text_iff, sound?, Option.isSome_map]
  | .array items => rw [isGeneral_array_iff, sound?, Option.isSome_map, isSome_soundItems?_iff]
  | .object members =>
    rw [isGeneral_object_iff, sound?, Option.isSome_map, isSome_soundMembers?_iff]

theorem isSome_soundItems?_iff (items : List RawJson) :
    (soundItems? items).isSome = true ↔ ∀ item ∈ items, item.IsGeneral := by
  match items with
  | [] => simp [soundItems?]
  | item :: items =>
    have hitem := isSome_sound?_iff item
    have hitems := isSome_soundItems?_iff items
    rw [List.forall_mem_cons, ← hitem, ← hitems, soundItems?]
    cases item.sound? <;> cases soundItems? items <;> simp

theorem isSome_soundMembers?_iff (members : List (Option String × RawJson)) :
    (soundMembers? members).isSome = true ↔
      ∀ m ∈ members, m.1.isSome = true ∧ m.2.IsGeneral := by
  match members with
  | [] => simp [soundMembers?]
  | (name, value) :: members =>
    have hvalue := isSome_sound?_iff value
    have hmembers := isSome_soundMembers?_iff members
    rw [List.forall_mem_cons, ← hvalue, ← hmembers, soundMembers?]
    cases name <;> cases value.sound? <;> cases soundMembers? members <;> simp

end

/-! ## Settled values -/

/-- The second value is what general use makes of the first. -/
def Settles (before after : RawJson) : Prop :=
  ∃ v, before.sound? = some v ∧ v.raw = after

theorem Settles.text?_eq {before after : RawJson} {s : String} (h : Settles before after)
    (htext : before.text? = some s) : after.text? = some s := by
  obtain ⟨v, hv, rfl⟩ := h
  cases before with
  | text t =>
    have ht : t = some s := htext
    rw [ht, sound?] at hv
    cases hv
    rfl
  | null | bool | number | array | object => cases htext

theorem Settles.word32?_eq {before after : RawJson} {n : UInt32} (h : Settles before after)
    (hword : before.word32? = some n) : after.word32? = some n := by
  obtain ⟨v, hv, rfl⟩ := h
  cases before with
  | number m =>
    rw [sound?] at hv
    split at hv
    · cases hv
      exact hword
    · cases hv
  | null | bool | text | array | object => cases hword

theorem forall₂_soundItems? {items : List RawJson} {values : List (Json String)}
    (h : soundItems? items = some values) : List.Forall₂ Settles items (rawItems values) := by
  induction items generalizing values with
  | nil =>
    cases h
    exact .nil
  | cons item items ih =>
    simp only [soundItems?, Option.bind_eq_bind, Option.bind_eq_some_iff] at h
    obtain ⟨value, hvalue, rest, hrest, heq⟩ := h
    cases heq
    exact .cons ⟨value, hvalue, rfl⟩ (ih hrest)

/-- General use makes the second fields of the first, one by one. -/
def FieldsSettle (before after : Fields) : Prop :=
  List.Forall₂ (fun b a => b.1 = a.1 ∧ Settles b.2 a.2) before after

/-- The fields among the members of an object, and what becomes of them. -/
theorem fieldsSettle_fieldMembers? {names : List String} {members : List (Option String × RawJson)}
    {fields : Fields} {values : List (String × Json String)}
    (hfields : fieldMembers? names members = some fields)
    (hvalues : soundMembers? members = some values) :
    FieldsSettle fields
      ((values.filter fun m => names.contains m.1).map fun m => (m.1, m.2.raw)) := by
  induction members generalizing fields values with
  | nil =>
    cases hfields
    cases hvalues
    exact .nil
  | cons m members ih =>
    obtain ⟨name, value⟩ := m
    simp only [fieldMembers?, Option.bind_eq_bind, Option.bind_eq_some_iff] at hfields
    obtain ⟨key, rfl, others, hothers, heq⟩ := hfields
    simp only [soundMembers?, Option.bind_eq_bind, Option.bind_eq_some_iff] at hvalues
    obtain ⟨_, hkey, v, hv, rest, hrest, hall⟩ := hvalues
    cases hkey
    cases hall
    have hmore := ih hothers hrest
    cases heq
    by_cases hfield : names.contains key = true
    · rw [if_pos hfield, List.filter_cons, if_pos hfield, List.map_cons]
      exact .cons ⟨rfl, v, hv, rfl⟩ hmore
    · rw [if_neg hfield, List.filter_cons, if_neg hfield]
      exact hmore

/-! ## Records -/

theorem fieldMembers?_rawMembers (names : List String) (members : List (String × Json String)) :
    fieldMembers? names (rawMembers members) =
      some ((members.filter fun m => names.contains m.1).map fun m => (m.1, m.2.raw)) := by
  induction members with
  | nil => rfl
  | cons m members ih =>
    obtain ⟨name, value⟩ := m
    rw [rawMembers, fieldMembers?, ih, Option.bind_eq_bind, Option.bind_some, Option.bind_eq_bind,
      Option.bind_some]
    by_cases hfield : names.contains name = true
    · rw [if_pos hfield, List.filter_cons, if_pos hfield]
      rfl
    · rw [if_neg hfield, List.filter_cons, if_neg hfield]
      rfl

/-- Where all members are fields and none occurs twice, the fields are the members. -/
theorem fields?_object {names : List String} {members : List (String × Json String)}
    (hnames : ∀ m ∈ members, names.contains m.1 = true) (hdistinct : (members.map (·.1)).Nodup) :
    (Json.object members).raw.fields? names = some (members.map fun m => (m.1, m.2.raw)) := by
  have hall : (members.filter fun m => names.contains m.1) = members := List.filter_eq_self.2 hnames
  have hsame : ((members.map fun m => (m.1, m.2.raw)).map (·.1)).Nodup := by
    rw [List.map_map]
    exact hdistinct
  rw [raw, fields?, fieldMembers?_rawMembers, hall, Option.bind_eq_bind, Option.bind_some,
    if_pos hsame]

/-- Names that occur once stay where they are when only the last member of each name stays. -/
theorem filter_lastMembers {α β : Type} [BEq α] [LawfulBEq α] (p : α → Bool)
    {members : List (α × β)} (h : ((members.filter fun m => p m.1).map (·.1)).Nodup) :
    (lastMembers members).filter (fun m => p m.1) = members.filter fun m => p m.1 := by
  induction members with
  | nil => rfl
  | cons m members ih =>
    obtain ⟨name, value⟩ := m
    have hrest : ((members.filter fun m => p m.1).map (·.1)).Nodup :=
      h.sublist (((List.sublist_cons_self _ _).filter _).map _)
    rw [lastMembers]
    split
    · next hagain =>
      -- The name occurs again, so it is not one of those that occur once.
      obtain ⟨other, hother, heq⟩ := List.any_eq_true.1 hagain
      have hskip : ¬ p name = true := by
        intro hp
        rw [List.filter_cons, if_pos hp, List.map_cons, List.nodup_cons] at h
        have hname : other.1 = name := eq_of_beq heq
        refine h.1 (List.mem_map.2 ⟨other, List.mem_filter.2 ⟨hother, ?_⟩, hname⟩)
        rw [hname]
        exact hp
      rw [ih hrest, List.filter_cons, if_neg hskip]
    · rw [List.filter_cons, List.filter_cons, ih hrest]

theorem FieldsSettle.names_eq {before after : Fields} (h : FieldsSettle before after) :
    before.map (·.1) = after.map (·.1) := by
  induction h with
  | nil => rfl
  | cons hhead _ ih => rw [List.map_cons, List.map_cons, hhead.1, ih]

theorem fieldsSettle_zip {before after : List RawJson} (h : List.Forall₂ Settles before after)
    (names : List String) : FieldsSettle (names.zip before) (names.zip after) := by
  induction h generalizing names with
  | nil =>
    rw [List.zip_nil_right]
    exact .nil
  | cons hitem _ ih =>
    cases names with
    | nil => exact .nil
    | cons name names => exact .cons ⟨rfl, hitem⟩ (ih names)

/-- **General use keeps the fields of a record**, each as what it makes of the field. -/
theorem fields?_raw {names : List String} {j : RawJson} {fields : Fields} {v : Json String}
    (hfields : j.fields? names = some fields) (hv : j.sound? = some v) :
    ∃ settled, v.raw.fields? names = some settled ∧ FieldsSettle fields settled := by
  match j with
  | .null | .bool _ | .number _ | .text _ => cases hfields
  | .array items =>
    obtain ⟨values, hvalues, rfl⟩ := Option.map_eq_some_iff.1 hv
    have hitems := forall₂_soundItems? hvalues
    rw [fields?] at hfields
    split at hfields
    · next hlength =>
      cases hfields
      refine ⟨names.zip (rawItems values), ?_, fieldsSettle_zip hitems names⟩
      rw [raw, fields?, if_pos (hitems.length_eq ▸ hlength)]
    · cases hfields
  | .object members =>
    obtain ⟨values, hvalues, rfl⟩ := Option.map_eq_some_iff.1 hv
    simp only [fields?, Option.bind_eq_bind, Option.bind_eq_some_iff] at hfields
    obtain ⟨found, hfound, hnodup⟩ := hfields
    split at hnodup
    · next hnames =>
      cases hnodup
      have hsettles := fieldsSettle_fieldMembers? hfound hvalues
      have hmap := hsettles.names_eq
      have honce : ((values.filter fun m => names.contains m.1).map (·.1)).Nodup := by
        rw [hmap, List.map_map] at hnames
        exact hnames
      refine ⟨_, ?_, hsettles⟩
      rw [raw, fields?, fieldMembers?_rawMembers, filter_lastMembers _ honce, Option.bind_eq_bind,
        Option.bind_some, ← hmap, if_pos hnames]
    · cases hnodup

/-- A field that is looked up after has settled, and a field that is missing stays so. -/
theorem FieldsSettle.lookup {before after : Fields} (h : FieldsSettle before after)
    (name : String) : Option.Rel Settles (before.lookup name) (after.lookup name) := by
  induction h with
  | nil => exact .none
  | @cons b a _ _ hhead _ ih =>
    rw [List.lookup_cons, List.lookup_cons, ← hhead.1]
    cases name == b.1 with
    | true => exact .some hhead.2
    | false => exact ih

end TaskRelay.Json
