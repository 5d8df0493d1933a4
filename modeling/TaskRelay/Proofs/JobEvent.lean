import TaskRelay.JobEvent
import TaskRelay.Proofs.Json.General
import TaskRelay.Proofs.Time.Rfc3339

/-!
# Events travel unchanged

An event is read from its record field by field: the state by its name, the time from its text, and
the detail where there is one.
-/

namespace TaskRelay

/-- A state is found by its name. -/
theorem JobState.ofName?_name (s : JobState) : ofName? s.name = some s := by
  cases s <;> decide

namespace JobEvent

theorem fields?_toJson (e : JobEvent) :
    e.toJson.raw.fields? fieldNames = some
      ([("correlationId", .text (some e.correlationId)), ("domain", .text (some e.domain)),
        ("action", .text (some e.action)), ("state", .text (some e.state.name)),
        ("eventTime", .text (some e.time.write))] ++
        match e.detail with
        | some detail => [("detail", .text (some detail))]
        | none => []) := by
  obtain ⟨correlationId, domain, action, state, time, detail⟩ := e
  cases detail with
  | none | some =>
    apply Json.fields?_object
    · simp [fieldNames]
    · simp

/-- An event is read from its record as it was, if its time is. -/
theorem ofJson?_toJson {e : JobEvent} (h : Instant.read? e.time.write = some e.time) :
    ofJson? e.toJson.raw = some e := by
  rw [ofJson?, fields?_toJson]
  obtain ⟨correlationId, domain, action, state, time, detail⟩ := e
  have htext (s : String) : (Json.text (some s) : RawJson).text? = some s := rfl
  have hstate : JobState.ofJson? (.text (some state.name)) = some state := state.ofName?_name
  cases detail with
  | none | some =>
    simp only [Option.bind_eq_bind, Option.bind_some, List.cons_append, List.nil_append,
      List.lookup_cons, List.lookup_nil, String.reduceBEq, htext, hstate, h, Option.map_some,
      Option.pure_def]

/-- **Events travel unchanged.**  Decoding the text of an event gives the event back, with its time to
the nanosecond, whatever its texts are and in all years that there are. -/
theorem round_trip (e : JobEvent) (hrange : e.time.isInRange = true)
    (hnanos : e.time.nanos < 1000000000) : decode? e.encode = some e := by
  have htime : Instant.read? e.time.write = some e.time := Instant.read?_write hrange hnanos
  rw [decode?, encode, Json.read?_write, Option.bind_some]
  exact ofJson?_toJson htime

/-- The first nanosecond after the first instant of all, and texts with characters that are escaped. -/
theorem round_trip_first_year :
    let e : JobEvent :=
      { correlationId := "a\nb", domain := "", action := "\\", state := .duplicate
        time := { seconds := -8334601228800, nanos := 1 }, detail := some "\t" }
    e.time.write = "-262143-01-01T00:00:00.000000001Z" ∧ e.time.isInRange = true ∧
      e.time.nanos < 1000000000 ∧ decode? e.encode = some e := by
  intro e
  have hrange : e.time.isInRange = true := by decide
  have hnanos : e.time.nanos < 1000000000 := by decide
  exact ⟨by decide +kernel, hrange, hnanos, round_trip e hrange hnanos⟩

end JobEvent

end TaskRelay
