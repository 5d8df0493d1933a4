import TaskRelay.Proofs.Run.Books
import TaskRelay.Proofs.Run.Protocol

/-!
# Which headers a step sees

What a step writes gets to other calls in three ways.  It stays with the task if that is put back, it
is handed on to the task that follows, where that has nothing of its own, and some of it the run
carries on to whatever task comes next.  In each call the headers of the task come first, and they are
what has come in the first two ways (`Holding`): while the task is in the list, only its own step adds
to them.  The third way is for names with the chosen prefixes alone, and it holds what the call before
has left there (`carriedOn`).  What steps see of what others have written follows from these two
(`HeadersSeen`).
-/

namespace TaskRelay

open Context (IsReserved lastWritten?)
open PlainRun (attributesAfter)

variable {σ : Type}

/-! ## What is carried on -/

/-- What a run carries on after some calls: at first what it has been triggered with, and then, of what
the last of the calls has left, the headers with the chosen prefixes. -/
def carriedOn (carry : CarryOver) (attributes : Headers) (calls : List (Call σ)) (name : String) :
    Option String :=
  match calls.getLast? with
  | none => attributes.get? name
  | some c => if carry.carries name then c.edited.header? name else none

section CarriedOn

variable {carry : CarryOver} {attributes : Headers} {before calls : List (Call σ)} {c : Call σ}
  {name : String}

theorem carriedOn_append_singleton (carry : CarryOver) (attributes : Headers)
    (before : List (Call σ)) (c : Call σ) (name : String) :
    carriedOn carry attributes (before ++ [c]) name =
      if carry.carries name then c.edited.header? name else none := by
  rw [carriedOn, List.getLast?_concat]

theorem carriedOn_of_not_carries (hcalls : calls ≠ []) (h : carry.carries name = false) :
    carriedOn carry attributes calls name = none := by
  obtain ⟨before, c, rfl⟩ := (List.eq_nil_or_concat' calls).resolve_left hcalls
  rw [carriedOn_append_singleton, h]
  rfl

/-- A step sees what it has written, and else what it has seen from the start. -/
theorem Call.header?_edited (h : ¬ IsReserved name) (c : Call σ) :
    c.edited.header? name = (lastWritten? name c.attempt.edits).or (c.context.header? name) :=
  Context.header?_editAll h c.context c.attempt.edits

theorem get?_attributesAfter (carry : CarryOver) (attributes : Headers) (calls : List (Call σ))
    (hname : name ≠ correlationHeader) :
    (attributesAfter carry attributes calls).get? name = carriedOn carry attributes calls name := by
  rw [attributesAfter, carriedOn]
  cases calls.getLast? with
  | none => rfl
  | some c => exact Context.get?_carriedAttributes_of_ne _ _ hname

theorem get?_attributesAfter_correlation (carry : CarryOver) (attributes : Headers)
    (h : calls.getLast? = some c) :
    (attributesAfter carry attributes calls).get? correlationHeader =
      some c.context.correlationId := by
  rw [attributesAfter, h]
  exact (Context.get?_carriedAttributes _ _).trans
    (congrArg some (Context.editAll_correlationId _ _))

end CarriedOn

/-! ## What tasks have of their own -/

/-- What a task in the list of a run has for headers. -/
structure Holding where
  /-- What it has come in with. -/
  entered : String → Option String
  /-- What its step has done in the calls after which it was put back. -/
  edits : List Context.Edit := []

namespace Holding

variable {name : String}

/-- What the step has written last, or else what the task has come in with. -/
def own? (h : Holding) (name : String) : Option String :=
  (lastWritten? name h.edits).or (h.entered name)

/-- A task that is triggered comes in with its headers.  One that follows comes in with its headers
and, where it has none, with what has been written by the step that lets it follow. -/
def keeping : Bookkeeping σ Holding where
  triggered t := { entered := t.header? }
  following c next :=
    { entered := fun name => (next.header? name).or (lastWritten? name c.attempt.edits) }
  again c h := { h with edits := h.edits ++ c.attempt.edits }

/-- What the tasks of a trigger, and those that have followed, have after some calls. -/
def after (tasks : TaskList) (calls : List (Call σ)) : Book Holding :=
  calls.foldl (Book.after keeping) (Book.start (keeping : Bookkeeping σ Holding) tasks)

/-- A task has the headers that are held, the program's own aside. -/
def Describes (t : Task) (h : Holding) : Prop :=
  ∀ name, ¬ IsReserved name → t.header? name = h.own? name

theorem fits_keeping (p : Pipeline) : (keeping : Bookkeeping σ Holding).Fits p Describes where
  triggered t := fun _ _ => rfl
  following c next hc := by
    intro name hname
    rw [Context.header?_handedOn _ _ fun heq => hname (.inl heq), Call.edited,
      Context.get?_writtenHeaders_editAll hname hc]
    rfl
  again c h hc _ ht := by
    intro name hname
    rw [Context.header?_retryTask _ _ fun heq => hname (.inl heq), Call.edited,
      Context.get?_writtenHeaders_editAll hname hc, Context.editAll_task, ht name hname, own?, own?,
      keeping, Context.lastWritten?_append, Option.or_assoc]

/-- What the step of a unit of work does in some calls. -/
def editsOf (key : TaskKey) (calls : List (Call σ)) : List Context.Edit :=
  (calls.filter (·.key = key)).flatMap (·.attempt.edits)

theorem own?_foldl_again (calls : List (Call σ)) (h : Holding) (name : String) :
    (calls.foldl (fun h c => keeping.again c h) h).own? name =
      (lastWritten? name (calls.flatMap (·.attempt.edits))).or (h.own? name) := by
  induction calls generalizing h with
  | nil => rfl
  | cons c calls ih =>
    rw [List.foldl_cons, ih, List.flatMap_cons, Context.lastWritten?_append, own?, own?, keeping,
      Context.lastWritten?_append, Option.or_assoc, Option.or_assoc]

/-- A task that stays in the list gets what its own step writes, and nothing else. -/
theorem exists_after_append {tasks : TaskList} {before later : List (Call σ)} {key : TaskKey}
    {own : Holding} (h : after tasks before key = some own)
    (hlater : ∀ c ∈ later, c.key = key → c.PutsBack) :
    ∃ own', after tasks (before ++ later) key = some own' ∧
      ∀ name, own'.own? name = (lastWritten? name (editsOf key later)).or (own.own? name) := by
  refine ⟨_, ?_, own?_foldl_again (later.filter (·.key = key)) own⟩
  rw [after, List.foldl_append]
  exact Book.foldl_after h hlater

end Holding

/-! ## What the calls of a run see -/

/-- In each call of a run the step sees the headers of its task, and under other names what the run
carries on. -/
def SeesOwnFirst (carry : CarryOver) (tasks : TaskList) (attributes : Headers)
    (calls : List (Call σ)) : Prop :=
  ∀ before c after, calls = before ++ c :: after →
    ∃ own, Holding.after tasks before c.key = some own ∧ ∀ name, ¬ IsReserved name →
      c.context.header? name = (own.own? name).or (carriedOn carry attributes before name)

/-- What the calls of a run see of headers other than the program's own. -/
structure HeadersSeen (carry : CarryOver) (tasks : TaskList) (attributes : Headers)
    (calls : List (Call σ)) : Prop where
  ownFirst : SeesOwnFirst carry tasks attributes calls
  /-- While a task is in the list, it gets whatever its own step writes.  Of what others write it gets
  nothing that is not carried on. -/
  waiting : ∀ before later d after own name, calls = before ++ (later ++ d :: after) →
    Holding.after tasks before d.key = some own →
    (∀ c ∈ later, c.key = d.key → c.PutsBack) → ¬ IsReserved name →
    (∀ value, lastWritten? name (Holding.editsOf d.key later) = some value →
      d.context.header? name = some value) ∧
    (later ≠ [] → carry.carries name = false → d.context.header? name =
      (lastWritten? name (Holding.editsOf d.key later)).or (own.own? name))
  /-- What is carried on and has been seen once is seen in all later calls, as it was last seen where
  the task has no such header of its own. -/
  carried : ∀ before c between d after name, calls = before ++ c :: (between ++ d :: after) →
    ¬ IsReserved name → carry.carries name = true →
    c.context.header? name ≠ none ∨ c.edited.header? name ≠ none →
    ∃ lastSeen own, carriedOn carry attributes (before ++ c :: between) name = some lastSeen ∧
      Holding.after tasks (before ++ c :: between) d.key = some own ∧
      d.context.header? name = some ((own.own? name).getD lastSeen)

section HeadersSeen

variable {carry : CarryOver} {tasks : TaskList} {attributes : Headers} {calls : List (Call σ)}
  {before between after : List (Call σ)} {c d : Call σ} {name : String}

/-- What is seen at the end of a call is still carried on after later ones. -/
theorem SeesOwnFirst.carriedOn_ne_none (h : SeesOwnFirst carry tasks attributes calls)
    (hcalls : calls = before ++ c :: (between ++ after)) (hname : ¬ IsReserved name)
    (hcarries : carry.carries name = true) (hseen : c.edited.header? name ≠ none) :
    carriedOn carry attributes (before ++ c :: between) name ≠ none := by
  induction between generalizing before c with
  | nil =>
    rw [carriedOn_append_singleton, if_pos hcarries]
    exact hseen
  | cons d between ih =>
    -- the next call sees it, be it that its task has a value of its own, and so it is seen in the end
    have hrest : calls = (before ++ [c]) ++ d :: (between ++ after) := by
      rw [hcalls, List.append_assoc]
      rfl
    obtain ⟨own, -, hheader⟩ := h (before ++ [c]) d (between ++ after) hrest
    have hnext : d.edited.header? name ≠ none := by
      rw [Call.header?_edited hname, hheader name hname, carriedOn_append_singleton,
        if_pos hcarries]
      simp [hseen]
    have hlater := ih hrest hnext
    rwa [List.append_assoc] at hlater

theorem SeesOwnFirst.headersSeen (h : SeesOwnFirst carry tasks attributes calls) :
    HeadersSeen carry tasks attributes calls where
  ownFirst := h
  waiting := by
    intro before later d after own name hcalls hown hlater hname
    obtain ⟨own', hown', hheader⟩ := h (before ++ later) d after (by simpa using hcalls)
    obtain ⟨own'', hown'', hgets⟩ := Holding.exists_after_append hown hlater
    cases hown'.symm.trans hown''
    refine ⟨fun value hvalue => ?_, fun hne hcarries => ?_⟩
    · rw [hheader name hname, hgets, hvalue, Option.some_or, Option.some_or]
    · have hnone : carriedOn carry attributes (before ++ later) name = none :=
        carriedOn_of_not_carries (List.append_ne_nil_of_right_ne_nil before hne) hcarries
      rw [hheader name hname, hgets, hnone, Option.or_none]
  carried := by
    intro before c between d after name hcalls hname hcarries hseen
    have hedited : c.edited.header? name ≠ none := by
      rcases hseen with hseen | hseen
      · rw [Call.header?_edited hname]
        simp [hseen]
      · exact hseen
    obtain ⟨lastSeen, hlast⟩ := Option.ne_none_iff_exists'.1
      (h.carriedOn_ne_none hcalls hname hcarries hedited)
    obtain ⟨own, hown, hheader⟩ := h (before ++ c :: between) d after (by simpa using hcalls)
    refine ⟨lastSeen, own, hlast, hown, ?_⟩
    rw [hheader name hname, hlast]
    cases own.own? name <;> rfl

end HeadersSeen

/-! ## Runs that are triggered -/

namespace Site

variable {p : Post} {e : Engine σ} {tasks : TaskList} {attributes : Headers} {n : Nat}
  {s t : Site σ}

theorem carriedOn_start (s : Site σ) (e : Engine σ) (tasks : TaskList) (attributes : Headers)
    (carry : CarryOver) (calls : List (Call σ)) {name : String} (hname : name ≠ correlationHeader) :
    carriedOn carry (PlainRun.start s e tasks attributes).attributes calls name =
      carriedOn carry attributes calls name := by
  rw [carriedOn, carriedOn, PlainRun.start, Headers.get?_insert, if_neg hname.symm]

theorem seesOwnFirst_calls (s : Site σ) (e : Engine σ) (tasks : TaskList) (attributes : Headers)
    (n : Nat) :
    SeesOwnFirst e.pipeline.carry tasks attributes
      ((PlainRun.start s e tasks attributes).calls e.pipeline e.service n) := by
  intro before c after hcalls
  have hsound := isSound_start s e tasks attributes
  obtain ⟨own, hown, hdescribes⟩ := PlainRun.exists_entry_of_calls n
    (Holding.fits_keeping e.pipeline) hsound
    (Book.agrees_start (Holding.fits_keeping e.pipeline).triggered tasks) hcalls
  obtain ⟨fresh, hcontext⟩ := PlainRun.exists_rehydrate_of_calls n hsound hcalls
  refine ⟨own, hown, fun name hname => ?_⟩
  have hcorrelation : name ≠ correlationHeader := fun heq => hname (.inr heq)
  rw [hcontext, Context.header?_rehydrate hname, hdescribes name hname,
    get?_attributesAfter _ _ _ hcorrelation, carriedOn_start _ _ _ _ _ _ hcorrelation]

/-- **What a step sees of headers.**  Whatever the steps of a run write and let follow, in every call
that is seen of it the step sees the headers of its task before what the run carries on, with all that
comes of that; and the message that the run goes on with has its correlation id and what it carries
on, and nothing else. -/
theorem Driven.visibility (h : Driven p e tasks attributes n s t) :
    let calls := (PlainRun.start s e tasks attributes).calls e.pipeline e.service n
    (∃ shown, t.observations = s.observations ++ shown ∧
        shown.filterMap Observation.context? = calls.map Call.context) ∧
      HeadersSeen e.pipeline.carry tasks attributes calls ∧
      ∀ m ∈ t.channel.messages p.topic,
        (∀ name, name ≠ correlationHeader →
          m.attributes.get? name = carriedOn e.pipeline.carry attributes calls name) ∧
        ∀ c, calls.getLast? = some c →
          m.attributes.get? correlationHeader = some c.context.correlationId := by
  intro calls
  have hsound := isSound_start s e tasks attributes
  obtain ⟨shown, -, hshown, -, hprotocol, -⟩ := h.exists_shown
  refine ⟨⟨shown, hshown, hprotocol.dispatched⟩,
    (seesOwnFirst_calls s e tasks attributes n).headersSeen, fun m hm => ?_⟩
  obtain ⟨last, hlast, hattributes⟩ := h.exists_last_of_message hm
  rw [hattributes, PlainRun.attributes_of_iterations n hsound hlast]
  refine ⟨fun name hname => ?_, fun c hc => get?_attributesAfter_correlation _ _ hc⟩
  rw [get?_attributesAfter _ _ _ hname, carriedOn_start _ _ _ _ _ _ hname]

/-- An engine with a step for `a` that is called twice, takes a note for itself the first time, and
hands a note on the second time; one header that it writes is carried on. -/
def noting : Engine Unit where
  pipeline := Sample.pipeline
  service := {
    supports := fun _ => true
    invoke := fun context state =>
      if context.task.destination ≠ "a" then ({ reply := .outcome .done }, state)
      else if context.loopCounter = 0 then
        ({ edits := [.setHeader "note" "draft", .setHeader "geoflow.source" "survey"]
           reply := .outcome .reschedule }, state)
      else
        ({ edits := [.setHeader "note" "final",
             .scheduleFollowUp { phase := "load", destination := "c" }]
           reply := .outcome .done }, state) }
  state := ()

def notingSite : Site Unit :=
  { leases := { ttl := 10 }, ids := Nat.repr, clock := .fixed 0, engines := [noting] }

/-- The note is seen by the step itself and by the task that follows, but not by the one that has been
waiting; what is carried on is seen by all. -/
theorem visibility_noting :
    ∃ t, Driven (Sample.post "a" {}) noting twoTasks ∅ 4 notingSite t ∧
      (t.observations.filterMap Observation.context?).map (fun context =>
          (context.task.destination, context.header? "note", context.header? "geoflow.source")) =
        [("a", none, none), ("a", some "draft", some "survey"), ("b", none, some "survey"),
          ("c", some "final", some "survey")] ∧
      HeadersSeen noting.pipeline.carry twoTasks ∅
        ((PlainRun.start notingSite noting twoTasks ∅).calls noting.pipeline noting.service 4) := by
  obtain ⟨t, hdriven⟩ := exists_driven (p := Sample.post "a" {}) (e := noting) (s := notingSite)
    twoTasks ∅ (fun _ => rfl) rfl rfl rfl 4 (by decide +kernel)
  obtain ⟨⟨shown, hshown, hcalls⟩, hheaders, -⟩ := hdriven.visibility
  refine ⟨t, hdriven, ?_, hheaders⟩
  have hseen : t.observations = shown := hshown
  rw [hseen, hcalls]
  decide +kernel

end Site

end TaskRelay
