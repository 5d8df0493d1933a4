import TaskRelay.Keyed

/-!
# Phases

A run goes through phases.  `PhaseOrder` says which phase comes before which:
listed phases in the order of the list, and after them all other phases in the
order of their names.  A table also keeps the places of its phases by their
names, so that a phase need not be searched for.
-/

namespace TaskRelay

abbrev Phase := String

/-- A table of phases, first things first, with the place of each of them. -/
structure PhaseOrder where
  phases : List Phase
  places : List (Phase × Nat)
  rising : Keyed.Rising places
  find?_places : ∀ phase, Keyed.find? phase places = phases.idxOf? phase
  nodup : phases.Nodup
deriving DecidableEq, Repr

namespace PhaseOrder

def empty : PhaseOrder where
  phases := []
  places := []
  rising := Keyed.rising_nil
  find?_places _ := rfl
  nodup := List.nodup_nil

/-- The place of a phase in the table. -/
def rank? (order : PhaseOrder) (phase : Phase) : Option Nat :=
  Keyed.find? phase order.places

theorem rank?_eq_idxOf? (order : PhaseOrder) (phase : Phase) :
    order.rank? phase = order.phases.idxOf? phase :=
  order.find?_places phase

section New

variable {order : PhaseOrder} {phase : Phase}

theorem rank?_eq_none_iff : order.rank? phase = none ↔ phase ∉ order.phases := by
  rw [rank?_eq_idxOf?, List.idxOf?_eq_none_iff]

theorem find?_insert_places (h : order.rank? phase = none) (name : Phase) :
    Keyed.find? name (Keyed.insert phase order.phases.length order.places) =
      (order.phases ++ [phase]).idxOf? name := by
  rw [Keyed.find?_insert, order.find?_places, List.idxOf?, List.findIdx?_append, ← List.idxOf?]
  by_cases hname : phase = name
  · subst hname
    rw [← rank?_eq_idxOf?, h]
    simp
  · simp [hname]

theorem nodup_append_singleton (h : order.rank? phase = none) :
    (order.phases ++ [phase]).Nodup := by
  refine List.nodup_append.2 ⟨order.nodup, by simp, fun a ha b hb heq => ?_⟩
  have hphase : a = phase := heq.trans (List.mem_singleton.1 hb)
  exact rank?_eq_none_iff.1 h (hphase ▸ ha)

end New

/-- Puts a phase behind all others, unless it is in the table already. -/
def push (order : PhaseOrder) (phase : Phase) : PhaseOrder :=
  if h : order.rank? phase = none then
    { phases := order.phases ++ [phase]
      places := Keyed.insert phase order.phases.length order.places
      rising := Keyed.rising_insert order.rising
      find?_places := find?_insert_places h
      nodup := nodup_append_singleton h }
  else order

/-- The table with the given phases, each at its first place. -/
def ofList (phases : List Phase) : PhaseOrder :=
  phases.foldl push empty

def standard : PhaseOrder :=
  ofList ["DOWNLOAD", "CONVERT", "INDEX", "DEPLOY", "EXPORT"]

def compare (order : PhaseOrder) (a b : Phase) : Ordering :=
  match order.rank? a, order.rank? b with
  | some i, some j => Ord.compare i j
  | some _, none => .lt
  | none, some _ => .gt
  | none, none => Ord.compare a b

end PhaseOrder

end TaskRelay
