import TaskRelay.Json.Basic

/-!
# Records in JSON

A record is an object with the fields as members, other members being of no
account, or an array with the fields in their order, where fields may be missing
at the end.  Which fields have to be present is for the reader of the record to
say.
-/

namespace TaskRelay.Json

abbrev Fields := List (String × RawJson)

/-- The members of an object that are fields, with their names.  The names of
all members have to be sound texts. -/
def fieldMembers? (names : List String) :
    List (Option String × RawJson) → Option Fields
  | [] => some []
  | (name, value) :: members => do
    let name ← name
    let fields ← fieldMembers? names members
    return if names.contains name then (name, value) :: fields else fields

/-- The fields of a record with the field names `names`.  No field may occur
twice, and an array may not go on after the last field. -/
def fields? (names : List String) : RawJson → Option Fields
  | .object members => do
    let fields ← fieldMembers? names members
    if (fields.map (·.1)).Nodup then some fields else none
  | .array items =>
    if items.length ≤ names.length then some (names.zip items) else none
  | _ => none

end TaskRelay.Json
