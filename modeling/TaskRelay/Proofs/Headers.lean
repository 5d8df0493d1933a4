import TaskRelay.Headers

/-!
# Looking up headers

What each operation on headers does to the value of a header: `get?_insert`, `get?_erase`,
`get?_overlay`, `get?_union`.  The entries stand in rising order of their names, so headers that
agree on all values are equal (`ext_get?`).
-/

namespace TaskRelay

namespace Keyed

variable {α : Type} {key : String} {value : α} {entries : List (String × α)}

theorem find?_eq_none_iff : find? key entries = none ↔ ∀ e ∈ entries, e.1 ≠ key := by
  induction entries with
  | nil => simp [find?]
  | cons e entries ih =>
    obtain ⟨k, v⟩ := e
    rw [find?, List.forall_mem_cons]
    by_cases hk : k = key
    · simp [hk]
    · rw [if_neg hk, ih]
      exact ⟨fun h => ⟨hk, h⟩, And.right⟩

theorem find?_filter (q : String → Bool) (key : String) (entries : List (String × α)) :
    find? key (entries.filter fun e => q e.1) = if q key then find? key entries else none := by
  induction entries with
  | nil => simp [find?]
  | cons e entries ih =>
    obtain ⟨k, v⟩ := e
    rw [List.filter_cons, find?]
    by_cases hk : k = key
    · subst hk
      by_cases hq : q k = true
      · simp [hq, find?]
      · rw [if_neg hq, ih, if_neg hq]
        simp [hq]
    · by_cases hq : q k = true
      · rw [if_pos hq, find?, if_neg hk, ih, if_neg hk]
      · rw [if_neg hq, ih, if_neg hk]

/-- An entry whose name comes after all others is put at the end. -/
theorem insert_of_forall_lt (h : ∀ e ∈ entries, e.1 < key) :
    insert key value entries = entries ++ [(key, value)] := by
  induction entries with
  | nil => rfl
  | cons e entries ih =>
    obtain ⟨k, v⟩ := e
    have hlt : k < key := h _ List.mem_cons_self
    have hnot : ¬ key < k := fun hkey => String.lt_irrefl k (String.lt_trans hlt hkey)
    have hne : key ≠ k := fun heq => String.lt_irrefl k (heq ▸ hlt)
    rw [insert, if_neg hnot, if_neg hne, ih fun e he => h e (List.mem_cons_of_mem _ he)]
    rfl

theorem foldl_insert_of_rising {more : List (String × α)} (h : Rising (entries ++ more)) :
    more.foldl (fun acc e => insert e.1 e.2 acc) entries = entries ++ more := by
  induction more generalizing entries with
  | nil => rw [List.foldl_nil, List.append_nil]
  | cons e more ih =>
    have hlt : ∀ other ∈ entries, other.1 < e.1 := fun other hother =>
      (List.pairwise_append.1 h).2.2 _ hother _ List.mem_cons_self
    have hrising : Rising (entries ++ [e] ++ more) := by
      rwa [List.append_assoc, List.singleton_append]
    rw [List.foldl_cons, insert_of_forall_lt hlt, ih hrising, List.append_assoc,
      List.singleton_append]

theorem nodup_of_rising (h : Rising entries) : (entries.map Prod.fst).Nodup := by
  refine List.pairwise_map.2 (h.imp ?_)
  intro a b hlt heq
  exact String.lt_irrefl b.1 (heq ▸ hlt)

theorem find?_eq_none_of_forall_lt (h : ∀ e ∈ entries, key < e.1) : find? key entries = none :=
  find?_eq_none_iff.2 fun e he heq => String.lt_irrefl key (heq ▸ h e he)

/-- The name of the first entry is not looked up in vain in a list with the same values, so that
list does not begin with a later name. -/
theorem not_lt_of_find?_eq {k k' : String} {v v' : α} {rest rest' : List (String × α)}
    (hrising : Rising ((k', v') :: rest'))
    (h : find? k ((k, v) :: rest) = find? k ((k', v') :: rest')) : ¬ k < k' := by
  intro hlt
  have hnone : find? k ((k', v') :: rest') = none := by
    refine find?_eq_none_of_forall_lt fun e he => ?_
    rcases List.mem_cons.1 he with rfl | he
    · exact hlt
    · exact String.lt_trans hlt ((List.pairwise_cons.1 hrising).1 e he)
  rw [hnone, find?, if_pos rfl] at h
  cases h

theorem eq_of_find?_eq {entries' : List (String × α)} (hrising : Rising entries)
    (hrising' : Rising entries') (h : ∀ key, find? key entries = find? key entries') :
    entries = entries' := by
  induction entries generalizing entries' with
  | nil =>
    cases entries' with
    | nil => rfl
    | cons e' rest' =>
      have hfirst := h e'.1
      rw [find?, find?, if_pos rfl] at hfirst
      cases hfirst
  | cons e rest ih =>
    cases entries' with
    | nil =>
      have hfirst := h e.1
      rw [find?, find?, if_pos rfl] at hfirst
      cases hfirst
    | cons e' rest' =>
      obtain ⟨k, v⟩ := e
      obtain ⟨k', v'⟩ := e'
      have hk : k = k' := String.le_antisymm
        (String.not_lt.1 (not_lt_of_find?_eq hrising (h k').symm))
        (String.not_lt.1 (not_lt_of_find?_eq hrising' (h k)))
      subst hk
      obtain ⟨hhead, hrest⟩ := List.pairwise_cons.1 hrising
      obtain ⟨hhead', hrest'⟩ := List.pairwise_cons.1 hrising'
      have hv := h k
      rw [find?, find?, if_pos rfl, if_pos rfl] at hv
      cases hv
      rw [ih hrest hrest' fun key => ?_]
      by_cases hkey : k = key
      · rw [← hkey, find?_eq_none_of_forall_lt hhead, find?_eq_none_of_forall_lt hhead']
      · have hlater := h key
        rwa [find?, find?, if_neg hkey, if_neg hkey] at hlater

end Keyed

namespace Headers

theorem ext_get? {h h' : Headers} (heq : ∀ key, h.get? key = h'.get? key) : h = h' :=
  Headers.ext (Keyed.eq_of_find?_eq h.rising h'.rising heq)

theorem get?_empty (key : String) : (∅ : Headers).get? key = none := rfl

theorem get?_insert (h : Headers) (key value key' : String) :
    (h.insert key value).get? key' = if key = key' then some value else h.get? key' :=
  Keyed.find?_insert key key' value h.entries

theorem get?_filter (h : Headers) (q : String → Bool) (key : String) :
    (h.filter fun k _ => q k).get? key = if q key then h.get? key else none :=
  Keyed.find?_filter q key h.entries

theorem get?_erase (h : Headers) (key key' : String) :
    (h.erase key).get? key' = if key = key' then none else h.get? key' := by
  rw [erase, get?_filter h (fun k => decide (k ≠ key))]
  by_cases hkey : key = key'
  · simp [hkey]
  · simp [hkey, Ne.symm hkey, get?]

theorem get?_insertIfNew (h : Headers) (key value key' : String) :
    (h.insertIfNew key value).get? key' =
      (h.get? key').or (if key = key' then some value else none) := by
  rw [insertIfNew]
  split
  · next v hv =>
    by_cases hkey : key = key'
    · subst hkey
      rw [hv, Option.some_or]
    · rw [if_neg hkey, Option.or_none]
  · next hnone =>
    rw [get?_insert]
    by_cases hkey : key = key'
    · subst hkey
      rw [hnone, Option.none_or]
    · rw [if_neg hkey, if_neg hkey, Option.or_none]

theorem entries_insertMany (h : Headers) (entries : List (String × String)) :
    (h.insertMany entries).entries =
      entries.foldl (fun acc e => Keyed.insert e.1 e.2 acc) h.entries := by
  induction entries generalizing h with
  | nil => rfl
  | cons e entries ih => exact ih (h.insert e.1 e.2)

/-- Headers are the headers of their own entries. -/
theorem ofList_entries (h : Headers) : ofList h.entries = h := by
  refine Headers.ext ?_
  rw [ofList, entries_insertMany]
  exact Keyed.foldl_insert_of_rising h.rising

theorem get?_insertMany {entries : List (String × String)} (hrising : Keyed.Rising entries)
    (h : Headers) (key : String) :
    (h.insertMany entries).get? key = (Keyed.find? key entries).or (h.get? key) := by
  induction entries generalizing h with
  | nil => rfl
  | cons e entries ih =>
    obtain ⟨hhead, hrest⟩ := List.pairwise_cons.1 hrising
    rw [insertMany, List.foldl_cons, ← insertMany, ih hrest, get?_insert, Keyed.find?]
    by_cases hkey : e.1 = key
    · have hnone : Keyed.find? key entries = none :=
        Keyed.find?_eq_none_of_forall_lt (hkey ▸ hhead)
      rw [if_pos hkey, if_pos hkey, hnone]
      rfl
    · rw [if_neg hkey, if_neg hkey]

/-- Headers that are laid over others come first. -/
theorem get?_overlay (h upper : Headers) (key : String) :
    (h.overlay upper).get? key = (upper.get? key).or (h.get? key) :=
  get?_insertMany upper.rising h key

/-- Headers that are added to others come last. -/
theorem get?_union (h more : Headers) (key : String) :
    (h.union more).get? key = (h.get? key).or (more.get? key) := by
  have hfold : ∀ (entries : List (String × String)) (h : Headers),
      (entries.foldl (fun h e => h.insertIfNew e.1 e.2) h).get? key =
        (h.get? key).or (Keyed.find? key entries) := by
    intro entries
    induction entries with
    | nil => exact fun h => Option.or_none.symm
    | cons e entries ih =>
      intro h
      rw [List.foldl_cons, ih, get?_insertIfNew, Option.or_assoc, Keyed.find?]
      by_cases hkey : e.1 = key
      · rw [if_pos hkey, if_pos hkey, Option.some_or]
      · rw [if_neg hkey, if_neg hkey, Option.none_or]
  exact hfold more.entries h

theorem empty_union (h : Headers) : union ∅ h = h := by
  refine ext_get? fun key => ?_
  rw [get?_union, get?_empty, Option.none_or]

end Headers

end TaskRelay
