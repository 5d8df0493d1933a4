/-!
# Entries by name

Lists of named things, each name once, in the order of the names.  Two such lists
with the same content are equal.  The order of texts is the order of their code
points.
-/

namespace TaskRelay.Keyed

variable {α : Type}

/-- The entries stand in rising order of their names. -/
def Rising (entries : List (String × α)) : Prop :=
  entries.Pairwise fun a b => a.1 < b.1

instance (entries : List (String × α)) : Decidable (Rising entries) :=
  inferInstanceAs (Decidable (entries.Pairwise fun a b => a.1 < b.1))

/-- The thing with a name. -/
def find? (key : String) : List (String × α) → Option α
  | [] => none
  | (k, v) :: rest => if k = key then some v else find? key rest

/-- Puts an entry at its place, over one with the same name. -/
def insert (key : String) (value : α) : List (String × α) → List (String × α)
  | [] => [(key, value)]
  | (k, v) :: rest =>
    if key < k then (key, value) :: (k, v) :: rest
    else if key = k then (key, value) :: rest
    else (k, v) :: insert key value rest

theorem find?_insert (key key' : String) (value : α) (entries : List (String × α)) :
    find? key' (insert key value entries) = if key = key' then some value else find? key' entries := by
  induction entries with
  | nil => rfl
  | cons e entries ih =>
    obtain ⟨k, v⟩ := e
    rw [insert]
    split
    · rw [find?]
    · split
      · next heq =>
        rw [find?, find?, heq]
        by_cases hk : k = key'
        · rw [if_pos hk, if_pos hk]
        · rw [if_neg hk, if_neg hk, if_neg hk]
      · next hne =>
        rw [find?, find?, ih]
        by_cases hk : k = key'
        · rw [if_pos hk, if_pos hk, if_neg fun h => hne (h.trans hk.symm)]
        · rw [if_neg hk, if_neg hk]

theorem mem_insert {key : String} {value : α} {entries : List (String × α)} {p : String × α}
    (h : p ∈ insert key value entries) : p = (key, value) ∨ p ∈ entries := by
  induction entries with
  | nil => simpa [insert] using h
  | cons e rest ih =>
    obtain ⟨k, v⟩ := e
    simp only [insert] at h
    split at h
    · simpa using h
    · split at h
      · rcases List.mem_cons.1 h with h | h
        · exact .inl h
        · exact .inr (List.mem_cons_of_mem _ h)
      · rcases List.mem_cons.1 h with h | h
        · exact .inr (h ▸ List.mem_cons_self)
        · rcases ih h with h | h
          · exact .inl h
          · exact .inr (List.mem_cons_of_mem _ h)

theorem rising_nil : Rising ([] : List (String × α)) :=
  List.Pairwise.nil

theorem rising_insert {key : String} {value : α} {entries : List (String × α)}
    (h : Rising entries) : Rising (insert key value entries) := by
  induction entries with
  | nil => exact List.pairwise_singleton _ _
  | cons e rest ih =>
    obtain ⟨k, v⟩ := e
    obtain ⟨hhead, hrest⟩ := List.pairwise_cons.1 h
    simp only [insert]
    split
    · next hlt =>
      refine List.pairwise_cons.2 ⟨fun p hp => ?_, h⟩
      rcases List.mem_cons.1 hp with rfl | hp
      · exact hlt
      · exact String.lt_trans hlt (hhead p hp)
    · next hnot =>
      split
      · next heq =>
        exact List.pairwise_cons.2 ⟨fun p hp => heq ▸ hhead p hp, hrest⟩
      · next hne =>
        refine List.pairwise_cons.2 ⟨fun p hp => ?_, ih hrest⟩
        rcases mem_insert hp with rfl | hp
        · have hle : k ≤ key := String.not_lt.1 hnot
          by_cases hlt : k < key
          · exact hlt
          · exact absurd (String.le_antisymm (String.not_lt.1 hlt) hle) hne
        · exact hhead p hp

theorem rising_filter {p : String × α → Bool} {entries : List (String × α)}
    (h : Rising entries) : Rising (entries.filter p) :=
  List.Pairwise.filter p h

theorem rising_map {f : String × α → α} {entries : List (String × α)} (h : Rising entries) :
    Rising (entries.map fun e => (e.1, f e)) := by
  simpa [Rising, List.pairwise_map] using h

end TaskRelay.Keyed
