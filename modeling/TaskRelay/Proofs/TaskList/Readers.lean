import TaskRelay.Proofs.Json.General
import TaskRelay.Proofs.TaskList.Wire

/-!
# The two readers of task lists

Whatever the strict reader takes as a task the lenient reader takes as the same task, if it takes the
entry at all (`ofJson?_of_sound?`).  It takes the entry exactly if the members that are no fields of a
task are values for general use and do not lie too deep (`isSome_entry?_iff`): the strict reader
looks over such members, the lenient one has to make values of them.  One that is none costs the
whole text (`decodeLenient?_of_decode?`).
-/

namespace TaskRelay

/-! ## Headers -/

namespace Headers

/-- What stood under a name before does not matter where the name is set anew. -/
theorem insertMany_congr {entries : List (String × String)} {h h' : Headers}
    (heq : ∀ key, key ∉ entries.map (·.1) → h.get? key = h'.get? key) :
    h.insertMany entries = h'.insertMany entries := by
  induction entries generalizing h h' with
  | nil => exact ext_get? fun key => heq key List.not_mem_nil
  | cons e entries ih =>
    refine ih fun key hkey => ?_
    rw [get?_insert, get?_insert]
    by_cases he : e.1 = key
    · rw [if_pos he, if_pos he]
    · rw [if_neg he, if_neg he]
      refine heq key ?_
      rw [List.map_cons, List.mem_cons, not_or]
      exact ⟨Ne.symm he, hkey⟩

theorem insertMany_lastMembers (entries : List (String × String)) (h : Headers) :
    h.insertMany (Json.lastMembers entries) = h.insertMany entries := by
  induction entries generalizing h with
  | nil => rfl
  | cons e entries ih =>
    obtain ⟨name, value⟩ := e
    rw [Json.lastMembers]
    split
    · next hagain =>
      rw [ih]
      refine insertMany_congr fun key hkey => ?_
      rw [get?_insert, if_neg]
      rintro rfl
      obtain ⟨other, hother, heq⟩ := List.any_eq_true.1 hagain
      exact hkey (List.mem_map.2 ⟨other, hother, eq_of_beq heq⟩)
    · exact ih _

theorem lastMembers_map {α β γ : Type} [BEq α] (f : β → γ) (members : List (α × β)) :
    Json.lastMembers (members.map fun m => (m.1, f m.2)) =
      (Json.lastMembers members).map fun m => (m.1, f m.2) := by
  induction members with
  | nil => rfl
  | cons m members ih =>
    obtain ⟨name, value⟩ := m
    have hany : (members.map fun m => (m.1, f m.2)).any (·.1 == name) =
        members.any (·.1 == name) := List.any_map
    rw [List.map_cons, Json.lastMembers, Json.lastMembers, hany, ih]
    split <;> rfl

/-- The members of headers become members that are texts. -/
theorem soundMembers?_of_entriesOfJson? {members : List (Option String × RawJson)}
    {entries : List (String × String)} (h : entriesOfJson? members = some entries) :
    Json.soundMembers? members = some (entries.map fun e => (e.1, .text e.2)) := by
  induction members generalizing entries with
  | nil =>
    cases h
    rfl
  | cons m members ih =>
    obtain ⟨name, value⟩ := m
    simp only [entriesOfJson?, Option.bind_eq_bind, Option.bind_eq_some_iff] at h
    obtain ⟨key, rfl, s, hs, rest, hrest, heq⟩ := h
    cases heq
    cases value with
    | text t =>
      have ht : t = some s := hs
      rw [ht, Json.soundMembers?, Json.sound?, ih hrest]
      rfl
    | null | bool | number | array | object => cases hs

/-- Headers are read alike, since of a repeated name the last member counts in either case. -/
theorem ofJson?_of_settles {before after : RawJson} {headers : Headers}
    (h : Json.Settles before after) (hread : ofJson? before = some headers) :
    ofJson? after = some headers := by
  obtain ⟨v, hv, rfl⟩ := h
  cases before with
  | object members =>
    obtain ⟨entries, hentries, rfl⟩ := Option.map_eq_some_iff.1 hread
    rw [Json.sound?, soundMembers?_of_entriesOfJson? hentries] at hv
    cases hv
    have hentries := entriesOfJson?_raw (Json.lastMembers entries)
    rw [← lastMembers_map] at hentries
    rw [Json.raw, ofJson?, hentries, Option.map_some, ofList, insertMany_lastMembers]
    rfl
  | null | bool | number | text | array => cases hread

end Headers

/-! ## Tasks -/

namespace Task

/-- The task is what the fields of a record say.  Phase and destination may not be missing. -/
structure IsRead (fields : Json.Fields) (t : Task) : Prop where
  phase : (fields.lookup "phase").elim none Json.text? = some t.phase
  subStep : (fields.lookup "subStep").elim (some 0) Json.word32? = some t.subStep
  destination : (fields.lookup "destination").elim none Json.text? = some t.destination
  headers : (fields.lookup "headers").elim (some ∅) Headers.ofJson? = some t.headers

/-- A task is read from the fields of its record, one after the other. -/
theorem ofJson?_eq (j : RawJson) :
    ofJson? j = (j.fields? fieldNames).bind fun fields =>
      ((fields.lookup "phase").elim none Json.text?).bind fun phase =>
      ((fields.lookup "subStep").elim (some 0) Json.word32?).bind fun subStep =>
      ((fields.lookup "destination").elim none Json.text?).bind fun destination =>
      ((fields.lookup "headers").elim (some ∅) Headers.ofJson?).bind fun headers =>
        some { phase, subStep, destination, headers } := by
  rw [ofJson?, Option.bind_eq_bind]
  congr 1
  funext fields
  cases fields.lookup "phase" with
  | none => rfl
  | some phase =>
    cases fields.lookup "subStep" <;> cases fields.lookup "destination" <;>
      cases fields.lookup "headers" <;> simp

theorem ofJson?_eq_some_iff {j : RawJson} {t : Task} :
    ofJson? j = some t ↔ ∃ fields, j.fields? fieldNames = some fields ∧ t.IsRead fields := by
  simp only [ofJson?_eq, Option.bind_eq_some_iff]
  constructor
  · rintro ⟨fields, hfields, _, hphase, _, hsub, _, hdest, _, hheaders, heq⟩
    cases heq
    exact ⟨fields, hfields, hphase, hsub, hdest, hheaders⟩
  · rintro ⟨fields, hfields, hphase, hsub, hdest, hheaders⟩
    exact ⟨fields, hfields, _, hphase, _, hsub, _, hdest, _, hheaders, rfl⟩

theorem elim_of_rel {α : Type} {before after : Option RawJson} {missing : Option α}
    {read : RawJson → Option α} {a : α} (h : Option.Rel Json.Settles before after)
    (hsettle : ∀ {b c}, Json.Settles b c → read b = some a → read c = some a)
    (hread : before.elim missing read = some a) : after.elim missing read = some a := by
  cases h with
  | none => exact hread
  | some hrel => exact hsettle hrel hread

theorem IsRead.settled {before after : Json.Fields} {t : Task} (h : t.IsRead before)
    (hsettle : Json.FieldsSettle before after) : t.IsRead after where
  phase := elim_of_rel (hsettle.lookup _) Json.Settles.text?_eq h.phase
  subStep := elim_of_rel (hsettle.lookup _) Json.Settles.word32?_eq h.subStep
  destination := elim_of_rel (hsettle.lookup _) Json.Settles.text?_eq h.destination
  headers := elim_of_rel (hsettle.lookup _) Headers.ofJson?_of_settles h.headers

/-- **A task is read alike from an entry and from the value for general use that the entry is.** -/
theorem ofJson?_of_sound? {j : RawJson} {v : Json String} {t : Task} (h : ofJson? j = some t)
    (hv : j.sound? = some v) : ofJson? v.raw = some t := by
  obtain ⟨fields, hfields, hread⟩ := ofJson?_eq_some_iff.1 h
  obtain ⟨settled, hsettled, hsettle⟩ := Json.fields?_raw hfields hv
  exact ofJson?_eq_some_iff.2 ⟨settled, hsettled, hread.settled hsettle⟩

end Task

/-! ## Values that fit -/

namespace Json

/-- A value for general use in which at most `limit` containers lie inside one another. -/
structure Fits (limit : Nat) (j : RawJson) : Prop where
  nests : j.nestsWithin limit = true
  isGeneral : j.IsGeneral

theorem fits_of_text? {j : RawJson} {s : String} (h : j.text? = some s) (limit : Nat) :
    j.Fits limit := by
  cases j with
  | text t => exact ⟨by cases limit <;> rfl, isGeneral_text_iff.2 (Option.isSome_of_eq_some h)⟩
  | null | bool | number | array | object => cases h

theorem fits_of_word32? {j : RawJson} {n : UInt32} (h : j.word32? = some n) (limit : Nat) :
    j.Fits limit := by
  cases j with
  | number m =>
    obtain ⟨k, hk, -⟩ := Option.map_eq_some_iff.1 h
    obtain ⟨hnatural, hlimit⟩ := Option.filter_eq_some_iff.1 hk
    obtain ⟨negative, whole, fraction, exponent⟩ := m
    -- Only digits without a sign, a point and an exponent make a natural number.
    have hplain : negative = false ∧ fraction = [] ∧ exponent = none ∧ whole = k := by
      simpa [Numeral.natural?, and_assoc] using hnatural
    obtain ⟨rfl, rfl, rfl, rfl⟩ := hplain
    have hsmall : whole < Nat.pow 2 32 := by
      have : whole ≤ 4294967295 := by simpa using hlimit
      have : Nat.pow 2 32 = 4294967296 := by decide
      omega
    exact ⟨by cases limit <;> rfl, .number (inRange_ofNat hsmall)⟩
  | null | bool | text | array | object => cases h

theorem fits_object_iff {limit : Nat} {members : List (Option String × RawJson)} :
    Fits (limit + 1) (.object members) ↔ ∀ m ∈ members, m.1.isSome = true ∧ m.2.Fits limit := by
  constructor
  · rintro ⟨hnests, hgeneral⟩ m hm
    rw [nestsWithin, List.all_eq_true] at hnests
    obtain ⟨hname, hvalue⟩ := isGeneral_object_iff.1 hgeneral m hm
    exact ⟨hname, hnests m hm, hvalue⟩
  · intro h
    refine ⟨?_, isGeneral_object_iff.2 fun m hm => ⟨(h m hm).1, (h m hm).2.isGeneral⟩⟩
    rw [nestsWithin, List.all_eq_true]
    exact fun m hm => (h m hm).2.nests

theorem fits_array_iff {limit : Nat} {items : List RawJson} :
    Fits (limit + 1) (.array items) ↔ ∀ item ∈ items, item.Fits limit := by
  constructor
  · rintro ⟨hnests, hgeneral⟩ item hitem
    rw [nestsWithin, List.all_eq_true] at hnests
    exact ⟨hnests item hitem, isGeneral_array_iff.1 hgeneral item hitem⟩
  · intro h
    refine ⟨?_, isGeneral_array_iff.2 fun item hitem => (h item hitem).isGeneral⟩
    rw [nestsWithin, List.all_eq_true]
    exact fun item hitem => (h item hitem).nests

theorem fits_of_headers {j : RawJson} {headers : Headers} (h : Headers.ofJson? j = some headers)
    (limit : Nat) : j.Fits (limit + 1) := by
  cases j with
  | object members =>
    obtain ⟨entries, hentries, -⟩ := Option.map_eq_some_iff.1 h
    rw [fits_object_iff]
    clear h
    induction members generalizing entries with
    | nil => exact fun _ hm => absurd hm List.not_mem_nil
    | cons m members ih =>
      obtain ⟨name, value⟩ := m
      simp only [Headers.entriesOfJson?, Option.bind_eq_bind, Option.bind_eq_some_iff] at hentries
      obtain ⟨key, rfl, s, hs, rest, hrest, -⟩ := hentries
      exact List.forall_mem_cons.2 ⟨⟨rfl, fits_of_text? hs limit⟩, ih rest hrest⟩
  | null | bool | number | text | array => cases h

/-! ## Fields of records -/

/-- The members of an object that are fields are among its fields, and all its names are sound. -/
theorem exists_name_of_fieldMembers? {names : List String}
    {members : List (Option String × RawJson)} {fields : Fields}
    (h : fieldMembers? names members = some fields) {m : Option String × RawJson}
    (hm : m ∈ members) :
    ∃ name, m.1 = some name ∧ (names.contains name = true → (name, m.2) ∈ fields) := by
  induction members generalizing fields with
  | nil => cases hm
  | cons first members ih =>
    obtain ⟨name, value⟩ := first
    simp only [fieldMembers?, Option.bind_eq_bind, Option.bind_eq_some_iff] at h
    obtain ⟨key, rfl, others, hothers, heq⟩ := h
    cases heq
    rcases List.mem_cons.1 hm with rfl | hm
    · refine ⟨key, rfl, fun hkey => ?_⟩
      rw [if_pos hkey]
      exact List.mem_cons_self
    · obtain ⟨name, hname, hmem⟩ := ih hothers hm
      refine ⟨name, hname, fun hfield => ?_⟩
      split
      · exact List.mem_cons_of_mem _ (hmem hfield)
      · exact hmem hfield

theorem map_fst_zip_sublist {α β : Type} (names : List α) (items : List β) :
    ((names.zip items).map (·.1)).Sublist names := by
  induction names generalizing items with
  | nil => exact List.Sublist.refl _
  | cons name names ih =>
    cases items with
    | nil => exact List.nil_sublist _
    | cons item items => exact (ih items).cons_cons name

/-- A field of a record is found under its name, because no field occurs twice. -/
theorem lookup_of_mem_fields? {names : List String} (hnames : names.Nodup) {j : RawJson}
    {fields : Fields} (h : j.fields? names = some fields) {name : String} {value : RawJson}
    (hmem : (name, value) ∈ fields) : fields.lookup name = some value := by
  have hnodup : (fields.map (·.1)).Nodup := by
    cases j with
    | object members =>
      simp only [fields?, Option.bind_eq_bind, Option.bind_eq_some_iff] at h
      obtain ⟨found, _, hfound⟩ := h
      split at hfound
      · next hfoundNodup =>
        cases hfound
        exact hfoundNodup
      · cases hfound
    | array items =>
      rw [fields?] at h
      split at h
      · cases h
        exact hnames.sublist (map_fst_zip_sublist names items)
      · cases h
    | null | bool | number | text => cases h
  obtain ⟨first, last, rfl⟩ := List.append_of_mem hmem
  refine List.lookup_eq_some_iff.2 ⟨first, last, rfl, fun other hother => ?_⟩
  rw [List.map_append, List.map_cons, List.nodup_append] at hnodup
  have hne := hnodup.2.2 other.1 (List.mem_map.2 ⟨other, hother, rfl⟩) name List.mem_cons_self
  exact bne_iff_ne.2 (Ne.symm hne)

end Json

/-! ## What the lenient reader needs -/

namespace Task

/-- The values in a task record that no field of a task holds. -/
def overlooked : RawJson → List RawJson
  | .object members =>
    (members.filter fun m => !m.1.any fun name => fieldNames.contains name).map (·.2)
  | _ => []

/-- How many containers of an overlooked value may lie inside one another.  Its entry is one more
around it. -/
def overlookedDepth : Nat := 124

/-- The fields from which a task is read fit. -/
theorem IsRead.fits {fields : Json.Fields} {t : Task} (h : t.IsRead fields) {name : String}
    (hname : fieldNames.contains name = true) {value : RawJson}
    (hlookup : fields.lookup name = some value) : value.Fits overlookedDepth := by
  have hmem : name ∈ fieldNames := List.contains_iff_mem.1 hname
  rw [fieldNames, List.mem_cons, List.mem_cons, List.mem_cons, List.mem_singleton] at hmem
  rcases hmem with rfl | rfl | rfl | rfl
  · have hread := h.phase
    rw [hlookup] at hread
    exact Json.fits_of_text? hread _
  · have hread := h.subStep
    rw [hlookup] at hread
    exact Json.fits_of_word32? hread _
  · have hread := h.destination
    rw [hlookup] at hread
    exact Json.fits_of_text? hread _
  · have hread := h.headers
    rw [hlookup] at hread
    exact Json.fits_of_headers hread 123

end Task

namespace TaskList

theorem entry?_ne_none_iff_fits (j : RawJson) : entry? j ≠ none ↔ j.Fits entryDepth := by
  unfold entry?
  split
  · next hnests =>
    rw [Option.ne_none_iff_isSome, Json.isSome_sound?_iff]
    exact ⟨fun hgeneral => ⟨hnests, hgeneral⟩, fun hfits => hfits.isGeneral⟩
  · next hdeep =>
    constructor
    · exact fun h => absurd rfl h
    · exact fun hfits => absurd hfits.nests hdeep

/-- **An entry that is a task is a value for general use exactly if the members that are no fields
are.** -/
theorem entry?_ne_none_iff {j : RawJson} {t : Task} (h : Task.ofJson? j = some t) :
    entry? j ≠ none ↔ ∀ value ∈ Task.overlooked j, value.Fits Task.overlookedDepth := by
  rw [entry?_ne_none_iff_fits]
  obtain ⟨fields, hfields, hread⟩ := Task.ofJson?_eq_some_iff.1 h
  have hfield : ∀ {name value}, Task.fieldNames.contains name = true → (name, value) ∈ fields →
      value.Fits Task.overlookedDepth := fun hname hmem =>
    hread.fits hname (Json.lookup_of_mem_fields? (by decide) hfields hmem)
  cases j with
  | object members =>
    rw [entryDepth, Json.fits_object_iff]
    simp only [Json.fields?, Option.bind_eq_bind, Option.bind_eq_some_iff] at hfields
    obtain ⟨found, hfound, heq⟩ := hfields
    split at heq
    · cases heq
      constructor
      · intro hfits value hvalue
        obtain ⟨m, hm, rfl⟩ := List.mem_map.1 hvalue
        exact (hfits m (List.mem_filter.1 hm).1).2
      · intro hfits m hm
        obtain ⟨name, hname, hmem⟩ := Json.exists_name_of_fieldMembers? hfound hm
        refine ⟨Option.isSome_of_eq_some hname, ?_⟩
        by_cases hcontains : Task.fieldNames.contains name = true
        · exact hfield hcontains (hmem hcontains)
        · refine hfits m.2 (List.mem_map.2 ⟨m, List.mem_filter.2 ⟨hm, ?_⟩, rfl⟩)
          rw [hname, Option.any_some, Bool.eq_false_iff.2 hcontains]
          rfl
    · cases heq
  | array items =>
    have hnone : Task.overlooked (.array items) = [] := rfl
    rw [entryDepth, Json.fits_array_iff, hnone]
    refine ⟨fun _ _ hvalue => absurd hvalue List.not_mem_nil, fun _ item hitem => ?_⟩
    rw [Json.fields?] at hfields
    split at hfields
    · next hlength =>
      cases hfields
      obtain ⟨i, hi, rfl⟩ := List.mem_iff_getElem.1 hitem
      have hi' : i < Task.fieldNames.length := by omega
      have hname : Task.fieldNames.contains Task.fieldNames[i] = true :=
        List.contains_iff_mem.2 (List.getElem_mem hi')
      refine hfield hname (List.mem_iff_getElem.2 ⟨i, ?_, List.getElem_zip⟩)
      rw [List.length_zip]
      omega
    · cases hfields
  | null | bool | number | text => cases hfields

/-! ## Texts -/

/-- Tasks that are added one by one are taken once for each new unit of work. -/
theorem foldl_add_eq (tasks : List Task) (l : TaskList) :
    tasks.foldl add l = ⟨l.tasks ++
      (tasks.filter fun t => !l.contains t.key).eraseDupsBy fun t u => t.key == u.key⟩ := by
  induction tasks generalizing l with
  | nil => rw [List.foldl_nil, List.filter_nil, List.eraseDupsBy_nil, List.append_nil]
  | cons t tasks ih =>
    rw [List.foldl_cons, ih, List.filter_cons]
    cases hcontains : l.contains t.key with
    | true => rw [add_of_mem (contains_iff.1 hcontains), Bool.not_true, if_neg (by decide)]
    | false =>
      have hlater : ∀ u : Task, (!contains ⟨l.tasks ++ [t]⟩ u.key) =
          ((u.key == t.key) = false && !l.contains u.key) := by
        intro u
        rw [contains, List.any_append, List.any_cons, List.any_nil, Bool.or_false, Bool.not_or,
          Bool.and_comm, BEq.comm (a := t.key), contains]
        cases u.key == t.key <;> rfl
      rw [add_of_not_mem (contains_eq_false_iff.1 hcontains), Bool.not_false, if_pos rfl,
        List.eraseDupsBy_cons, List.filter_filter, List.append_assoc, List.singleton_append]
      simp only [hlater]

theorem ofList_eq (tasks : List Task) :
    ofList tasks = ⟨tasks.eraseDupsBy fun t u => t.key == u.key⟩ := by
  have hall : (tasks.filter fun t => !contains ∅ t.key) = tasks := List.filter_eq_self.2 fun _ _ => rfl
  rw [ofList, foldl_add_eq, hall]
  rfl

/-- Entries that are taken by both readers make the same tasks. -/
theorem exists_mapM_entry? {items : List RawJson} {tasks : List Task}
    (h : items.mapM Task.ofJson? = some tasks) (hentries : ∀ item ∈ items, entry? item ≠ none) :
    ∃ values, items.mapM entry? = some values ∧ values.map Task.ofValue? = tasks.map some := by
  induction items generalizing tasks with
  | nil =>
    cases h
    exact ⟨[], rfl, rfl⟩
  | cons item items ih =>
    simp only [List.mapM_cons, Option.bind_eq_bind, Option.bind_eq_some_iff] at h
    obtain ⟨t, ht, rest, hrest, heq⟩ := h
    cases heq
    obtain ⟨hitem, hmore⟩ := List.forall_mem_cons.1 hentries
    obtain ⟨value, hvalue⟩ := Option.ne_none_iff_exists'.1 hitem
    obtain ⟨values, hvalues, htasks⟩ := ih hrest hmore
    have hread : Task.ofValue? value = some t := by
      unfold entry? at hvalue
      split at hvalue
      · exact Task.ofJson?_of_sound? ht hvalue
      · cases hvalue
    refine ⟨value :: values, ?_, ?_⟩
    · rw [List.mapM_cons, hvalue, hvalues]
      rfl
    · rw [List.map_cons, List.map_cons, hread, htasks]

theorem mapM_eq_none {α β : Type} {f : α → Option β} {l : List α} {a : α} (ha : a ∈ l)
    (h : f a = none) : l.mapM f = none := by
  induction l with
  | nil => cases ha
  | cons b l ih =>
    rw [List.mapM_cons]
    rcases List.mem_cons.1 ha with rfl | ha
    · rw [h]
      rfl
    · rw [ih ha]
      cases f b <;> rfl

/-- The values in a text that lie in an entry where no field of a task holds them. -/
def overlooked (s : String) : List RawJson :=
  (((Json.read? s).bind entries?).getD []).flatMap Task.overlooked

/-- The lenient reader takes all entries of a text that the strict reader takes exactly if everything
fits that the strict reader overlooks. -/
theorem forall_entry?_ne_none_iff {items : List RawJson} {tasks : List Task}
    (h : items.mapM Task.ofJson? = some tasks) :
    (∀ item ∈ items, entry? item ≠ none) ↔
      ∀ value ∈ items.flatMap Task.overlooked, value.Fits Task.overlookedDepth := by
  have hitem : ∀ item ∈ items,
      entry? item ≠ none ↔ ∀ value ∈ Task.overlooked item, value.Fits Task.overlookedDepth := by
    intro item hmem
    obtain ⟨t, ht⟩ := Option.ne_none_iff_exists'.1 fun hnone => by
      rw [mapM_eq_none hmem hnone] at h
      cases h
    exact entry?_ne_none_iff ht
  constructor
  · intro hentries value hvalue
    obtain ⟨item, hmem, hin⟩ := List.mem_flatMap.1 hvalue
    exact (hitem item hmem).1 (hentries item hmem) value hin
  · intro hfits item hmem
    exact (hitem item hmem).2 fun value hvalue =>
      hfits value (List.mem_flatMap.2 ⟨item, hmem, hvalue⟩)

/-- **Of what the strict reader takes, the lenient reader takes the same tasks or nothing.**  If
everything fits that the strict reader overlooks, the lenient reader leaves out no entry, and takes the
first task of each unit of work.  If anything does not fit, it takes no entry at all. -/
theorem decodeLenient?_of_decode? {s : String} {l : TaskList} (h : decode? s = some l) :
    ((∀ value ∈ overlooked s, value.Fits Task.overlookedDepth) →
      decodeLenient? s = some (⟨l.tasks.eraseDupsBy fun t u => t.key == u.key⟩, 0)) ∧
    ((∃ value ∈ overlooked s, ¬ value.Fits Task.overlookedDepth) → decodeLenient? s = none) := by
  simp only [decode?, Option.bind_eq_bind, Option.bind_eq_some_iff] at h
  obtain ⟨j, hj, items, hitems, tasks, htasks, heq⟩ := h
  cases heq
  have hoverlooked : overlooked s = items.flatMap Task.overlooked := by
    rw [overlooked, hj, Option.bind_some, hitems, Option.getD_some]
  have hlenient : decodeLenient? s =
      (items.mapM entry?).map fun values => values.foldl addEntry (∅, 0) := by
    rw [decodeLenient?, hj, Option.bind_eq_bind, Option.bind_some, hitems, Option.bind_eq_bind,
      Option.bind_some]
    cases items.mapM entry? <;> rfl
  rw [hoverlooked, hlenient]
  constructor
  · intro hfits
    obtain ⟨values, hvalues, hread⟩ :=
      exists_mapM_entry? htasks ((forall_entry?_ne_none_iff htasks).2 hfits)
    rw [hvalues, Option.map_some, foldl_addEntry_of_map hread, ← ofList_eq]
    rfl
  · rintro ⟨value, hvalue, hunfit⟩
    have hsome : ¬ ∀ item ∈ items, entry? item ≠ none := fun hentries =>
      hunfit ((forall_entry?_ne_none_iff htasks).1 hentries value hvalue)
    push Not at hsome
    obtain ⟨item, hmem, hnone⟩ := hsome
    rw [mapM_eq_none hmem hnone, Option.map_none]

/-- Two entries for one unit of work, the first with a member that is no field of a task. -/
def annotated : String :=
  "\x7b\"tasks\":[\x7b\"phase\":\"p\",\"destination\":\"a\",\"note\":[true,\"x\"]\x7d," ++
    "\x7b\"phase\":\"p\",\"destination\":\"a\",\"subStep\":3\x7d]\x7d"

theorem decodeLenient?_of_decode?_annotated :
    decode? annotated =
        some ⟨[{ phase := "p", destination := "a" },
          { phase := "p", subStep := 3, destination := "a" }]⟩ ∧
      (∀ value ∈ overlooked annotated, value.Fits Task.overlookedDepth) ∧
      decodeLenient? annotated = some (⟨[{ phase := "p", destination := "a" }]⟩, 0) := by
  have hread : decode? annotated = some ⟨[{ phase := "p", destination := "a" },
      { phase := "p", subStep := 3, destination := "a" }]⟩ := rfl
  have hoverlooked : overlooked annotated = [.array [.bool true, .text (some "x")]] := rfl
  have hfits : ∀ value ∈ overlooked annotated, value.Fits Task.overlookedDepth := by
    rw [hoverlooked]
    intro value hvalue
    rw [List.mem_singleton.1 hvalue]
    exact ⟨rfl, (Json.isSome_sound?_iff _).1 rfl⟩
  exact ⟨hread, hfits, (decodeLenient?_of_decode? hread).1 hfits⟩

/-- One entry with a member that is no field of a task and a number that is out of range. -/
def outOfRange : String :=
  "\x7b\"tasks\":[\x7b\"phase\":\"p\",\"destination\":\"a\",\"note\":1e999\x7d]\x7d"

/-- The strict reader takes a task that the lenient reader does not take. -/
theorem decodeLenient?_eq_none_outOfRange :
    decode? outOfRange = some ⟨[{ phase := "p", destination := "a" }]⟩ ∧
      decodeLenient? outOfRange = none := by
  have hread : Json.read? outOfRange = some (.object [(some "tasks", .array [.object
      [(some "phase", .text (some "p")), (some "destination", .text (some "a")),
        (some "note", .number { whole := 1, exponent := some 999 })]])]) := rfl
  have hdigits : Numeral.leadingDigits 1 = (1, 0) := by
    rw [Numeral.leadingDigits, if_pos (by decide)]
  have hrange : Numeral.inRange { whole := 1, exponent := some 999 } = false := by
    rw [Numeral.inRange, Numeral.scaled, hdigits]
    rfl
  refine ⟨rfl, ?_⟩
  simp [decodeLenient?, hread, entries?, Json.fields?, Json.fieldMembers?, entry?, Json.sound?,
    Json.soundMembers?, hrange]

end TaskList

end TaskRelay
