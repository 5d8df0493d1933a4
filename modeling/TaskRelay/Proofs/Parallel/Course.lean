import TaskRelay.Parallel.Run

/-!
# Courses of a parallel run

A parallel run goes on by single moves: some branch does its next primitive, or the end of some
branch is taken note of.  In a `Course` these moves come in any order and at any instants, so a
course is what a scheduler with any number of threads may make of the run.  Its history tells
which branch did what.

What a course leaves is read off the history: a checkpoint has counted the answers that its branch
got, what has been put down about a branch is how it ended, and the flag has been raised exactly
if a branch raised it or a failure has been taken note of (`Course.tallies`).  From this follows
what the report says.  The run that keeps to the clock is one of the courses (`course_finish`).
-/

namespace TaskRelay.Parallel

/-! ## Histories -/

/-- What a branch does in one move. -/
inductive Deed where
  | worked (duration : Nat)
  | asked (proceed : Bool)
  | raised (first : Bool)
  | noted (remark : Remark)
  | ended (ending : Ending)

namespace Deed

/-- The branch is let through by its checkpoint. -/
@[simp] def isGoAhead : Deed → Bool
  | .asked proceed => proceed
  | _ => false

/-- The branch is told to stop by its checkpoint. -/
@[simp] def isRefusal : Deed → Bool
  | .asked proceed => !proceed
  | _ => false

end Deed

/-- What has been done, with the place of the branch that did it. -/
abbrev History := List (Nat × Deed)

/-- What one branch has done. -/
def History.of (history : History) (i : Nat) : List Deed :=
  (history.filter fun entry => entry.1 == i).map (·.2)

theorem History.of_append (history more : History) (i : Nat) :
    History.of (history ++ more) i = history.of i ++ more.of i := by
  rw [of, List.filter_append, List.map_append, ← of, ← of]

theorem History.of_singleton_self (i : Nat) (d : Deed) : History.of [(i, d)] i = [d] := by
  rw [of, List.filter_cons, if_pos (beq_self_eq_true i)]
  rfl

theorem History.of_singleton_of_ne {i j : Nat} (h : i ≠ j) (d : Deed) :
    History.of [(i, d)] j = [] := by
  rw [of, List.filter_cons, if_neg (by simpa using h)]
  rfl

theorem History.mem_of {history : History} {i : Nat} {d : Deed} :
    d ∈ history.of i ↔ (i, d) ∈ history := by
  rw [of, List.mem_map]
  constructor
  · rintro ⟨⟨j, d⟩, hmem, rfl⟩
    obtain ⟨hmem, hj⟩ := List.mem_filter.1 hmem
    have hji : j = i := eq_of_beq hj
    rwa [hji] at hmem
  · exact fun hmem => ⟨(i, d), List.mem_filter.2 ⟨hmem, beq_self_eq_true i⟩, rfl⟩

/-! ## Courses -/

/-- What a branch does with the next primitive of its program. -/
def BranchState.deed (b : BranchState) (program : Program) (flag : Flag) : Deed :=
  match program with
  | .finish ending => .ended ending
  | .work duration _ => .worked duration
  | .proceed _ => .asked (b.checkpoint.proceed flag).1
  | .raise _ => .raised flag.raise.1
  | .note remark _ => .noted remark

namespace Run

/-- What a move about a branch adds to the history.  Taking note of an end adds nothing. -/
def record (run : Run) (i : Nat) : History :=
  match run.branches[i]? with
  | some b =>
    match b.stage with
    | .running _ program => [(i, b.deed program run.flag)]
    | _ => []
  | none => []

/-- Whether the ends of all branches have been taken note of, so that the run gives its report. -/
def isOver (run : Run) : Bool :=
  run.branches.all fun b => b.stage matches .joined _

end Run

/-- The second run comes from the first by any moves at any instants; the list tells what the
branches did in them. -/
inductive Course (run : Run) : History → Run → Prop where
  | start : Course run [] run
  | move {history : History} {mid next : Run} (i t : Nat) (h : Course run history mid)
      (hmove : { mid with now := t }.moveOn? i = some next) :
      Course run (history ++ mid.record i) next

theorem Course.trans {first mid last : Run} {history more : History}
    (h : Course first history mid) (hmore : Course mid more last) :
    Course first (history ++ more) last := by
  induction hmore with
  | start => rwa [List.append_nil]
  | move i t _ hmove ih =>
    rw [← List.append_assoc]
    exact ih.move i t hmove

/-- The run after moves about the given branches at the given instants, if all of them can be made,
with what was done. -/
def Run.follow? (run : Run) : List (Nat × Nat) → Option (History × Run)
  | [] => some ([], run)
  | (i, t) :: schedule =>
    match { run with now := t }.moveOn? i with
    | none => none
    | some next =>
      (next.follow? schedule).map fun (history, last) => (run.record i ++ history, last)

theorem course_of_follow? {run last : Run} {schedule : List (Nat × Nat)} {history : History}
    (h : run.follow? schedule = some (history, last)) : Course run history last := by
  induction schedule generalizing run history with
  | nil =>
    cases h
    exact .start
  | cons move schedule ih =>
    obtain ⟨i, t⟩ := move
    rw [Run.follow?] at h
    cases hmove : { run with now := t }.moveOn? i with
    | none =>
      rw [hmove] at h
      cases h
    | some next =>
      rw [hmove] at h
      obtain ⟨⟨more, last'⟩, hmore, heq⟩ := Option.map_eq_some_iff.1 h
      cases heq
      exact (Course.start.move i t hmove).trans (ih hmore)

/-- A move is the next primitive of a branch that is running, or it takes note of an end. -/
theorem Run.moveOn?_cases {run next : Run} {i : Nat} (h : run.moveOn? i = some next) :
    (∃ b since program, run.branches[i]? = some b ∧ b.stage = .running since program ∧
      next = run.actOn i program b) ∨
    (∃ b ending, run.branches[i]? = some b ∧ b.stage = .ended ending ∧
      next = run.joinOn i ending b) := by
  unfold moveOn? at h
  split at h
  · cases h
  · next b hb =>
    split at h
    · next since program hstage =>
      exact .inl ⟨b, since, program, hb, hstage, (Option.some.inj h).symm⟩
    · next ending hstage => exact .inr ⟨b, ending, hb, hstage, (Option.some.inj h).symm⟩
    · cases h

theorem Run.record_of_running {run : Run} {i : Nat} {s : BranchState} {since : Nat}
    {program : Program} (hs : run.branches[i]? = some s)
    (hstage : s.stage = .running since program) :
    run.record i = [(i, s.deed program run.flag)] := by
  rw [record, hs]
  simp only [hstage]

theorem Run.record_of_ended {run : Run} {i : Nat} {s : BranchState} {ending : Ending}
    (hs : run.branches[i]? = some s) (hstage : s.stage = .ended ending) : run.record i = [] := by
  rw [record, hs]
  simp only [hstage]

theorem Run.record_of_ne (run : Run) {i j : Nat} (h : j ≠ i) :
    History.of (run.record i) j = [] := by
  rw [record]
  split
  · split
    · exact History.of_singleton_of_ne h.symm _
    · rfl
  · rfl

/-! ## The flag -/

/-- The flag is never lowered. -/
theorem Run.aborted_moveOn? {run next : Run} {i : Nat} (habort : run.flag.isAborted = true)
    (hmove : run.moveOn? i = some next) : next.flag.isAborted = true := by
  rcases moveOn?_cases hmove with ⟨s, since, program, -, -, rfl⟩ | ⟨s, ending, -, -, rfl⟩
  · rw [actOn]
    cases program <;> first | exact habort | rfl
  · rw [joinOn]
    cases ending.isFailure
    · exact habort
    · rfl

/-- No checkpoint lets a branch through while the flag is raised, and none refuses before. -/
theorem Run.answer_of_mem_record {run : Run} {i j : Nat} {proceed : Bool}
    (h : (j, Deed.asked proceed) ∈ run.record i) : proceed = !run.flag.isAborted := by
  rw [record] at h
  split at h
  · next s _ =>
    split at h
    · next program _ =>
      cases program with
      | proceed =>
        cases hflag : run.flag <;>
          simp_all [BranchState.deed, Checkpoint.proceed, Flag.isAborted]
      | _ => simp [BranchState.deed] at h
    · cases h
  · cases h

theorem Course.aborted {run last : Run} {history : History} (h : Course run history last)
    (habort : run.flag.isAborted = true) : last.flag.isAborted = true := by
  induction h with
  | start => exact habort
  | @move _ mid next i t _ hmove ih =>
    have hmid : ({ mid with now := t } : Run).flag.isAborted = true := ih
    exact Run.aborted_moveOn? hmid hmove

/-- Once the flag is raised, no checkpoint lets a branch through. -/
theorem Course.answer_of_aborted {run last : Run} {history : History} (h : Course run history last)
    (habort : run.flag.isAborted = true) {j : Nat} {proceed : Bool}
    (hmem : (j, Deed.asked proceed) ∈ history) : proceed = false := by
  induction h with
  | start => cases hmem
  | move i t hcourse _ ih =>
    rcases List.mem_append.1 hmem with hmem | hmem
    · exact ih hmem
    · rw [Run.answer_of_mem_record hmem, hcourse.aborted habort, Bool.not_true]

/-- Only a raised flag makes a checkpoint refuse. -/
theorem Course.aborted_of_refusal {run last : Run} {history : History} (h : Course run history last)
    {j : Nat} (hmem : (j, Deed.asked false) ∈ history) : last.flag.isAborted = true := by
  induction h with
  | start => cases hmem
  | @move _ mid next i t _ hmove ih =>
    have hmid : ({ mid with now := t } : Run).flag.isAborted = true := by
      rcases List.mem_append.1 hmem with hmem | hmem
      · exact ih hmem
      · simpa using Run.answer_of_mem_record hmem
    exact Run.aborted_moveOn? hmid hmove

/-! ## The way of one branch -/

/-- The program goes on as the second one after the given deeds. -/
inductive Program.Path : Program → List Deed → Program → Prop where
  | here (p : Program) : Path p [] p
  | worked {next q : Program} {ds : List Deed} (duration : Nat) (h : Path next ds q) :
      Path (.work duration next) (.worked duration :: ds) q
  | asked {next : Bool → Program} {q : Program} {ds : List Deed} (proceed : Bool)
      (h : Path (next proceed) ds q) : Path (.proceed next) (.asked proceed :: ds) q
  | raised {next : Bool → Program} {q : Program} {ds : List Deed} (first : Bool)
      (h : Path (next first) ds q) : Path (.raise next) (.raised first :: ds) q
  | noted {next q : Program} {ds : List Deed} (remark : Remark) (h : Path next ds q) :
      Path (.note remark next) (.noted remark :: ds) q

theorem Program.Path.trans {p q r : Program} {ds more : List Deed} (h : Path p ds q)
    (hmore : Path q more r) : Path p (ds ++ more) r := by
  induction h with
  | here => exact hmore
  | worked duration _ ih => exact .worked duration (ih hmore)
  | asked proceed _ ih => exact .asked proceed (ih hmore)
  | raised first _ ih => exact .raised first (ih hmore)
  | noted remark _ ih => exact .noted remark (ih hmore)

/-- The deeds lead a branch with the program to the stage.  The end is the last of them. -/
def Program.Leads (p : Program) (ds : List Deed) : Stage → Prop
  | .running _ q => p.Path ds q
  | .ended ending | .joined ending =>
    ∃ before, ds = before ++ [.ended ending] ∧ p.Path before (.finish ending)

namespace BranchState

/-- Where a branch stands after its deeds. -/
structure Stands (b : Branch) (ds : List Deed) (s : BranchState) : Prop where
  name_eq : s.name = b.name
  passed_eq : s.checkpoint.passed = ds.countP Deed.isGoAhead
  observedAbort_eq : s.checkpoint.observedAbort = ds.any Deed.isRefusal
  leads : b.program.Leads ds s.stage

variable {b : Branch} {ds : List Deed} {s : BranchState}

theorem stands_start (now : Nat) (b : Branch) : Stands b [] (start now b) :=
  ⟨rfl, rfl, rfl, .here b.program⟩

/-- A deed that has nothing to do with the checkpoint. -/
theorem Stands.later (h : Stands b ds s) {d : Deed} (hgo : d.isGoAhead = false)
    (hrefusal : d.isRefusal = false) {stage : Stage} (hleads : b.program.Leads (ds ++ [d]) stage) :
    Stands b (ds ++ [d]) { s with stage } where
  name_eq := h.name_eq
  passed_eq := by
    rw [List.countP_append, List.countP_singleton, hgo, if_neg (by decide), Nat.add_zero]
    exact h.passed_eq
  observedAbort_eq := by
    rw [List.any_append, List.any_cons, hrefusal, List.any_nil, Bool.or_false, Bool.or_false]
    exact h.observedAbort_eq
  leads := hleads

/-- The next primitive leads a branch on. -/
theorem Stands.act (h : Stands b ds s) {since : Nat} {program : Program}
    (hstage : s.stage = .running since program) (now : Nat) (flag : Flag) :
    Stands b (ds ++ [s.deed program flag]) (s.act program now flag).branch := by
  have hpath : b.program.Path ds program := by
    have hleads := h.leads
    rw [hstage] at hleads
    exact hleads
  cases program with
  | finish ending => exact h.later rfl rfl ⟨ds, rfl, hpath⟩
  | work duration next => exact h.later rfl rfl (hpath.trans (.worked duration (.here next)))
  | raise next => exact h.later rfl rfl (hpath.trans (.raised _ (.here _)))
  | note remark next => exact h.later rfl rfl (hpath.trans (.noted remark (.here next)))
  | proceed next =>
    refine ⟨h.name_eq, ?_, ?_, hpath.trans (.asked _ (.here _))⟩
    · cases flag <;>
        simp [BranchState.act, deed, Checkpoint.proceed, Flag.isAborted, h.passed_eq]
    · cases flag <;>
        simp [BranchState.act, deed, Checkpoint.proceed, Flag.isAborted, h.observedAbort_eq]

theorem Stands.join (h : Stands b ds s) {ending : Ending} (hstage : s.stage = .ended ending) :
    Stands b ds { s with stage := .joined ending } := by
  obtain ⟨hname, hpassed, hobserved, hleads⟩ := h
  rw [hstage] at hleads
  exact ⟨hname, hpassed, hobserved, hleads⟩

/-- What should have been put down about the branch by now. -/
def putDown? (s : BranchState) : Option BranchResult :=
  match s.stage with
  | .joined ending => s.result? ending
  | _ => none

/-- Whether a failure of the branch has been taken note of. -/
def hasFailed (s : BranchState) : Bool :=
  match s.stage with
  | .joined ending => ending.isFailure
  | _ => false

end BranchState

/-! ## What a course leaves -/

/-- The run stands as the history says. -/
structure Tallies (branches : List Branch) (history : History) (run : Run) : Prop where
  length_eq : run.branches.length = branches.length
  lt_length : ∀ {i : Nat} {d : Deed}, (i, d) ∈ history → i < branches.length
  stands : ∀ {i : Nat} {b : Branch} {s : BranchState}, branches[i]? = some b →
    run.branches[i]? = some s → s.Stands b (history.of i)
  results_eq : run.results = run.branches.map BranchState.putDown?
  aborted_iff : run.flag.isAborted = true ↔
    (∃ i first, (i, Deed.raised first) ∈ history) ∨
      ∃ s ∈ run.branches, s.hasFailed = true

/-- Changing an entry changes nothing about it that is as before. -/
theorem map_set_of_eq {α β : Type} {f : α → β} {l : List α} {i : Nat} {a new : α}
    (ha : l[i]? = some a) (h : f new = f a) : (l.set i new).map f = l.map f := by
  obtain ⟨hi, rfl⟩ := List.getElem?_eq_some_iff.1 ha
  have hi' : i < (l.map f).length := by rwa [List.length_map]
  rw [List.map_set, h, ← List.getElem_map f (h := hi'), List.set_getElem_self]

theorem getElem?_set_cases {α : Type} {l : List α} {i j : Nat} {new a : α}
    (h : (l.set i new)[j]? = some a) : j = i ∧ a = new ∨ j ≠ i ∧ l[j]? = some a := by
  rw [List.getElem?_set] at h
  split at h
  · next heq =>
    split at h
    · exact .inl ⟨heq.symm, (Option.some.inj h).symm⟩
    · cases h
  · next hne => exact .inr ⟨Ne.symm hne, h⟩

theorem mem_set_of_eq {α : Type} {p : α → Bool} {l : List α} {i : Nat} {a new : α}
    (ha : l[i]? = some a) (h : p new = p a) :
    (∃ b ∈ l.set i new, p b = true) ↔ ∃ b ∈ l, p b = true := by
  have hmap := map_set_of_eq ha h
  have hiff : ∀ l' : List α, (∃ b ∈ l', p b = true) ↔ true ∈ l'.map p := fun _ =>
    List.mem_map.symm
  rw [hiff, hiff, hmap]

namespace Tallies

variable {branches : List Branch} {history : History} {run next : Run} {i : Nat}

theorem start (now : Nat) (branches : List Branch) : Tallies branches [] (.start now branches) where
  length_eq := List.length_map _
  lt_length := fun hmem => nomatch hmem
  stands := by
    intro i b s hb hs
    rw [Run.start, List.getElem?_map, hb] at hs
    cases hs
    exact BranchState.stands_start now b
  results_eq := by
    have hnone : branches.map (BranchState.putDown? ∘ BranchState.start now) =
        branches.map fun _ => none := rfl
    rw [Run.start, List.map_map, hnone, List.map_const']
  aborted_iff := by
    constructor
    · exact fun h => absurd h (by simp [Run.start, Flag.isAborted])
    · rintro (⟨i, first, hmem⟩ | ⟨s, hs, hfailed⟩)
      · cases hmem
      · obtain ⟨b, -, rfl⟩ := List.mem_map.1 hs
        cases hfailed

/-- The next primitive of a branch. -/
theorem actOn (h : Tallies branches history run) {s : BranchState} {since : Nat} {program : Program}
    (hs : run.branches[i]? = some s) (hstage : s.stage = .running since program) :
    Tallies branches (history ++ [(i, s.deed program run.flag)]) (run.actOn i program s) where
  length_eq := by
    rw [Run.actOn, List.length_set]
    exact h.length_eq
  lt_length := by
    intro j d hmem
    rcases List.mem_append.1 hmem with hmem | hmem
    · exact h.lt_length hmem
    · cases List.mem_singleton.1 hmem
      rw [← h.length_eq]
      exact (List.getElem?_eq_some_iff.1 hs).1
  stands := by
    intro j b s' hb hs'
    rw [History.of_append]
    rcases getElem?_set_cases hs' with ⟨rfl, rfl⟩ | ⟨hne, hs'⟩
    · rw [History.of_singleton_self]
      exact (h.stands hb hs).act hstage run.now run.flag
    · rw [History.of_singleton_of_ne hne.symm, List.append_nil]
      exact h.stands hb hs'
  results_eq := by
    have hsame : (s.act program run.now run.flag).branch.putDown? = s.putDown? := by
      rw [BranchState.putDown?, BranchState.putDown?, hstage]
      cases program <;> rfl
    rw [Run.actOn, map_set_of_eq hs hsame]
    exact h.results_eq
  aborted_iff := by
    have hsame : (s.act program run.now run.flag).branch.hasFailed = s.hasFailed := by
      rw [BranchState.hasFailed, BranchState.hasFailed, hstage]
      cases program <;> rfl
    have hflag : (s.act program run.now run.flag).flag.isAborted = true ↔
        run.flag.isAborted = true ∨ ∃ first, s.deed program run.flag = .raised first := by
      cases program <;> simp [BranchState.act, BranchState.deed, Flag.raise, Flag.isAborted]
    have hraised :
        (∃ j first, (j, Deed.raised first) ∈ history ++ [(i, s.deed program run.flag)]) ↔
        (∃ j first, (j, Deed.raised first) ∈ history) ∨
          ∃ first, s.deed program run.flag = .raised first := by
      simp only [List.mem_append, List.mem_singleton, Prod.mk.injEq, exists_or]
      refine or_congr_right ⟨?_, ?_⟩
      · rintro ⟨_, first, -, heq⟩
        exact ⟨first, heq.symm⟩
      · rintro ⟨first, heq⟩
        exact ⟨i, first, rfl, heq.symm⟩
    rw [Run.actOn, hflag, hraised, mem_set_of_eq hs hsame, h.aborted_iff, or_right_comm]

/-- Taking note of an end. -/
theorem joinOn (h : Tallies branches history run) {s : BranchState} {ending : Ending}
    (hs : run.branches[i]? = some s) (hstage : s.stage = .ended ending) :
    Tallies branches history (run.joinOn i ending s) where
  length_eq := by
    rw [Run.joinOn, List.length_set]
    exact h.length_eq
  lt_length := h.lt_length
  stands := by
    intro j b s' hb hs'
    rcases getElem?_set_cases hs' with ⟨rfl, rfl⟩ | ⟨-, hs'⟩
    · exact (h.stands hb hs).join hstage
    · exact h.stands hb hs'
  results_eq := by
    have hput : ({ s with stage := .joined ending } : BranchState).putDown? = s.result? ending :=
      rfl
    rw [Run.joinOn, List.map_set, hput, ← h.results_eq]
    cases hresult : s.result? ending with
    | some result => rfl
    | none =>
      -- A branch that broke off leaves its place as it was.
      have hempty : s.putDown? = none := by rw [BranchState.putDown?, hstage]
      have hslot : run.results[i]? = some none := by
        rw [h.results_eq, List.getElem?_map, hs, Option.map_some, hempty]
      obtain ⟨hi, heq⟩ := List.getElem?_eq_some_iff.1 hslot
      have hkept := List.set_getElem_self hi
      rw [heq] at hkept
      exact hkept.symm
  aborted_iff := by
    have hbefore : s.hasFailed = false := by rw [BranchState.hasFailed, hstage]
    have hafter : ({ s with stage := .joined ending } : BranchState).hasFailed = ending.isFailure :=
      rfl
    rw [Run.joinOn]
    cases hfails : ending.isFailure with
    | true =>
      refine ⟨fun _ => .inr ⟨_, ?_, hafter.trans hfails⟩, fun _ => rfl⟩
      exact List.mem_set (List.getElem?_eq_some_iff.1 hs).1 _
    | false =>
      rw [mem_set_of_eq hs (hafter.trans (hfails.trans hbefore.symm))]
      exact h.aborted_iff

theorem at_instant (h : Tallies branches history run) (t : Nat) :
    Tallies branches history { run with now := t } :=
  ⟨h.length_eq, h.lt_length, h.stands, h.results_eq, h.aborted_iff⟩

/-- **A move keeps the books.** -/
theorem moveOn? (h : Tallies branches history run) (hmove : run.moveOn? i = some next) :
    Tallies branches (history ++ run.record i) next := by
  rcases Run.moveOn?_cases hmove with
    ⟨s, since, program, hs, hstage, rfl⟩ | ⟨s, ending, hs, hstage, rfl⟩
  · rw [Run.record_of_running hs hstage]
    exact h.actOn hs hstage
  · rw [Run.record_of_ended hs hstage, List.append_nil]
    exact h.joinOn hs hstage

end Tallies

/-- **A course leaves what its history says.** -/
theorem Course.tallies {now : Nat} {branches : List Branch} {history : History} {run : Run}
    (h : Course (.start now branches) history run) : Tallies branches history run := by
  induction h with
  | start => exact .start now branches
  | move i t _ hmove ih => exact (ih.at_instant t).moveOn? hmove

/-! ## The end of a course -/

/-- Something can be done about a branch until its end has been taken note of. -/
theorem Run.moveOn?_ne_none {run : Run} {i : Nat} {s : BranchState}
    (hs : run.branches[i]? = some s) (hstage : ∀ ending, s.stage ≠ .joined ending) :
    run.moveOn? i ≠ none := by
  rw [moveOn?, hs]
  cases h : s.stage with
  | running since program => simp only [h, ne_eq, reduceCtorEq, not_false_eq_true]
  | ended ending => simp only [h, ne_eq, reduceCtorEq, not_false_eq_true]
  | joined ending => exact absurd h (hstage ending)

theorem Run.isOver_iff_stage (run : Run) :
    run.isOver = true ↔ ∀ s ∈ run.branches, ∃ ending, s.stage = .joined ending := by
  rw [isOver, List.all_eq_true]
  refine forall₂_congr fun s _ => ?_
  cases s.stage <;> simp

/-- A run is over when no move is left. -/
theorem Run.isOver_iff (run : Run) :
    run.isOver = true ↔ ∀ i t, { run with now := t }.moveOn? i = none := by
  rw [isOver_iff_stage]
  constructor
  · intro h i t
    rw [moveOn?]
    cases hs : run.branches[i]? with
    | none => rfl
    | some s =>
      obtain ⟨ending, hstage⟩ := h s (List.mem_of_getElem? hs)
      simp only [hstage]
  · intro h s hs
    obtain ⟨i, hi⟩ := List.getElem?_of_mem hs
    refine Classical.byContradiction fun hnot => ?_
    exact moveOn?_ne_none hi (not_exists.1 hnot) (h i run.now)

/-! ## The run by the clock -/

theorem Run.mem_of_readyBranch? {run : Run} {i t : Nat} (h : run.readyBranch? t = some i) :
    ∃ s, run.branches[i]? = some s ∧ ∃ since, s.readyAt? = some since := by
  obtain ⟨hi, hready, -⟩ := List.findIdx?_eq_some_iff_getElem.1 h
  refine ⟨_, List.getElem?_eq_getElem hi, ?_⟩
  cases hsince : run.branches[i].readyAt? with
  | some since => exact ⟨since, rfl⟩
  | none => rw [hsince] at hready; cases hready

theorem Run.mem_of_endedBranch? {run : Run} {i : Nat} (h : run.endedBranch? = some i) :
    ∃ s, run.branches[i]? = some s ∧ ∃ ending, s.stage = .ended ending := by
  obtain ⟨hi, hended, -⟩ := List.findIdx?_eq_some_iff_getElem.1 h
  refine ⟨_, List.getElem?_eq_getElem hi, ?_⟩
  cases hstage : run.branches[i].stage with
  | ended ending => exact ⟨ending, rfl⟩
  | running => simp [hstage] at hended
  | joined => simp [hstage] at hended

theorem BranchState.ne_joined_of_readyAt? {s : BranchState} {since : Nat}
    (h : s.readyAt? = some since) (ending : Ending) : s.stage ≠ .joined ending := by
  intro hstage
  rw [readyAt?, hstage] at h
  cases h

/-- What happens next by the clock is a move of the first branch that can go on now; without one,
it takes note of an end, or it is a move of the first branch that can go on later. -/
theorem Run.step?_cases {run next : Run} (h : run.step? = some next) :
    ∃ i t, { run with now := t }.moveOn? i = some next ∧
      (t = run.now ∧ run.readyBranch? t = some i ∨
        run.readyBranch? run.now = none ∧
          (run.endedBranch? = some i ∨ run.readyBranch? t = some i)) := by
  unfold step? at h
  split at h
  · next i hready => exact ⟨i, run.now, h, .inl ⟨rfl, hready⟩⟩
  · next hready =>
    split at h
    · next i hended => exact ⟨i, run.now, h, .inr ⟨hready, .inl hended⟩⟩
    · split at h
      · cases h
      · next t _ =>
        split at h
        · next i hlater => exact ⟨i, t, h, .inr ⟨hready, .inr hlater⟩⟩
        · cases h

/-- The clock never leaves a branch behind. -/
theorem Run.isOver_of_step? {run : Run} (h : run.step? = none) : run.isOver = true := by
  unfold step? at h
  split at h
  · next i hready =>
    obtain ⟨s, hs, since, hsince⟩ := mem_of_readyBranch? hready
    exact absurd h (moveOn?_ne_none hs (BranchState.ne_joined_of_readyAt? hsince))
  split at h
  · next i hended =>
    obtain ⟨s, hs, ending, hstage⟩ := mem_of_endedBranch? hended
    exact absurd h (moveOn?_ne_none hs (by simp [hstage]))
  next hended =>
  split at h
  · next hnext =>
    -- No branch is running and none has just ended.
    rw [isOver_iff_stage]
    intro s hs
    have hidle := List.filterMap_eq_nil_iff.1 (List.min?_eq_none_iff.1 hnext) s hs
    have hseen := List.findIdx?_eq_none_iff.1 hended s hs
    cases hstage : s.stage with
    | joined ending => exact ⟨ending, rfl⟩
    | running => simp [BranchState.readyAt?, hstage] at hidle
    | ended => simp [hstage] at hseen
  · next t hnext =>
    obtain ⟨s, hs, hsince⟩ := List.mem_filterMap.1 (List.min?_mem hnext)
    split at h
    · next i hready =>
      obtain ⟨s, hs, since, hsince⟩ := mem_of_readyBranch? hready
      have hmoves : { run with now := t }.moveOn? i ≠ none :=
        moveOn?_ne_none hs (BranchState.ne_joined_of_readyAt? hsince)
      exact absurd h hmoves
    · next hready =>
      have hnot := List.findIdx?_eq_none_iff.1 hready s hs
      simp [hsince] at hnot

/-- **The run by the clock is a course, and it goes on until the ends of all branches have been
taken note of.** -/
theorem course_finish (run : Run) :
    ∃ history, Course run history run.finish ∧ run.finish.isOver = true := by
  induction run using Run.finish.induct with
  | case1 run hstep =>
    rw [Run.finish, hstep]
    exact ⟨[], .start, Run.isOver_of_step? hstep⟩
  | case2 run next hstep ih =>
    obtain ⟨history, hcourse, hover⟩ := ih
    obtain ⟨i, t, hmove, -⟩ := Run.step?_cases hstep
    have hfinish : run.finish = next.finish := by rw [Run.finish, hstep]
    rw [hfinish]
    exact ⟨_, (Course.start.move i t hmove).trans hcourse, hover⟩

/-! ## Reports -/

/-- What is reported of a branch, by how it ended and whether it had been told to stop. -/
def Ending.result (refused : Bool) : Ending → BranchResult
  | .ok => if refused then .stopped else .completed
  | .error e => .failed e.message
  | .panic => .panicked

/-- A branch does nothing after its end. -/
theorem Program.Path.not_mem_ended {p q : Program} {ds : List Deed} (h : Path p ds q)
    (ending : Ending) : Deed.ended ending ∉ ds := by
  induction h with
  | here => exact List.not_mem_nil
  | worked _ _ ih | asked _ _ ih | raised _ _ ih | noted _ _ ih =>
    rw [List.mem_cons, not_or]
    exact ⟨nofun, ih⟩

theorem Program.Path.eq_of_mem_ended {p q : Program} {before : List Deed} (h : Path p before q)
    {ending last : Ending} (hmem : Deed.ended ending ∈ before ++ [.ended last]) :
    ending = last := by
  rcases List.mem_append.1 hmem with hmem | hmem
  · exact absurd hmem (h.not_mem_ended ending)
  · exact Deed.ended.inj (List.mem_singleton.1 hmem)

/-- What is reported of a branch whose end has been taken note of. -/
theorem BranchState.Stands.report {b : Branch} {ds : List Deed} {s : BranchState}
    (h : Stands b ds s) {ending : Ending} (hstage : s.stage = .joined ending) :
    ∃ before, ds = before ++ [.ended ending] ∧ b.program.Path before (.finish ending) ∧
      s.report s.putDown? =
        { name := b.name
          result := ending.result (before.any Deed.isRefusal)
          checkpoints := before.countP Deed.isGoAhead } := by
  have hleads := h.leads
  rw [hstage] at hleads
  obtain ⟨before, rfl, hpath⟩ := hleads
  have hpassed : s.checkpoint.passed = before.countP Deed.isGoAhead := by
    rw [h.passed_eq, List.countP_append, List.countP_singleton, if_neg (by simp [Deed.isGoAhead]),
      Nat.add_zero]
  have hrefused : s.checkpoint.observedAbort = before.any Deed.isRefusal := by
    rw [h.observedAbort_eq, List.any_append]
    simp [Deed.isRefusal]
  refine ⟨before, rfl, hpath, ?_⟩
  rw [BranchState.report, putDown?, hstage, h.name_eq, hpassed, ← hrefused]
  cases ending <;> rfl

namespace Tallies

variable {branches : List Branch} {history : History} {run : Run}

theorem report_branches (h : Tallies branches history run) :
    run.report.branches = run.branches.map fun s => s.report s.putDown? := by
  have hzip : run.branches.zip (run.branches.map BranchState.putDown?) =
      run.branches.map fun s => (s, s.putDown?) := by
    conv => lhs; arg 1; rw [← List.map_id run.branches]
    exact List.zip_map'
  rw [Run.report, h.results_eq, hzip, List.map_map]
  rfl

/-- Of each branch there is a report, in the order of the branches. -/
theorem report (h : Tallies branches history run) (hover : run.isOver = true) {i : Nat} {b : Branch}
    (hb : branches[i]? = some b) :
    ∃ before ending, history.of i = before ++ [.ended ending] ∧
      b.program.Path before (.finish ending) ∧
      run.report.branches[i]? = some
        { name := b.name
          result := ending.result (before.any Deed.isRefusal)
          checkpoints := before.countP Deed.isGoAhead } := by
  have hi : i < run.branches.length := by
    rw [h.length_eq]
    exact (List.getElem?_eq_some_iff.1 hb).1
  have hs := List.getElem?_eq_getElem hi
  obtain ⟨ending, hstage⟩ := (Run.isOver_iff_stage run).1 hover _ (List.getElem_mem hi)
  obtain ⟨before, hof, hpath, hreport⟩ := (h.stands hb hs).report hstage
  refine ⟨before, ending, hof, hpath, ?_⟩
  rw [h.report_branches, List.getElem?_map, hs, Option.map_some, hreport]

/-- A branch ends once. -/
theorem ending_unique (h : Tallies branches history run) (hover : run.isOver = true) {i : Nat}
    {ending other : Ending} (hending : (i, Deed.ended ending) ∈ history)
    (hother : (i, Deed.ended other) ∈ history) : ending = other := by
  obtain ⟨before, last, hof, hpath, -⟩ :=
    h.report hover (List.getElem?_eq_getElem (h.lt_length hending))
  rw [← History.mem_of, hof] at hending hother
  exact (hpath.eq_of_mem_ended hending).trans (hpath.eq_of_mem_ended hother).symm

/-- In the end the flag tells of the failures too. -/
theorem failed_iff (h : Tallies branches history run) (hover : run.isOver = true) :
    run.report.failed = true ↔
      (∃ i first, (i, Deed.raised first) ∈ history) ∨
        ∃ i ending, (i, Deed.ended ending) ∈ history ∧ ending.isFailure = true := by
  rw [Run.report, h.aborted_iff]
  refine or_congr_right ⟨?_, ?_⟩
  · rintro ⟨s, hs, hfailed⟩
    obtain ⟨i, hi⟩ := List.getElem?_of_mem hs
    obtain ⟨ending, hstage⟩ := (Run.isOver_iff_stage run).1 hover s hs
    have hlt : i < branches.length := by
      rw [← h.length_eq]
      exact (List.getElem?_eq_some_iff.1 hi).1
    obtain ⟨before, hof, -⟩ := (h.stands (List.getElem?_eq_getElem hlt) hi).report hstage
    refine ⟨i, ending, ?_, ?_⟩
    · rw [← History.mem_of, hof]
      exact List.mem_concat_self
    · rwa [BranchState.hasFailed, hstage] at hfailed
  · rintro ⟨i, ending, hmem, hfails⟩
    have hlt := h.lt_length hmem
    have hlt' : i < run.branches.length := by rwa [h.length_eq]
    obtain ⟨ending', hstage⟩ := (Run.isOver_iff_stage run).1 hover _ (List.getElem_mem hlt')
    obtain ⟨before, hof, hpath, -⟩ :=
      (h.stands (List.getElem?_eq_getElem hlt) (List.getElem?_eq_getElem hlt')).report hstage
    rw [← History.mem_of, hof] at hmem
    have hsame := hpath.eq_of_mem_ended hmem
    refine ⟨_, List.getElem_mem hlt', ?_⟩
    rwa [BranchState.hasFailed, hstage, ← hsame]

end Tallies

/-- **Report and verdict of a parallel run.**  However its moves come, a run goes on until the
ends of all branches have been taken note of, and no longer; each move takes from the work that is
left.  Then it has one report for each branch, in the order of the branches.  A report tells how
the branch ended, and how many of its checkpoints let it through.  The verdict is a failure
exactly if a branch raised the flag, failed or broke off. -/
theorem Course.reports {now : Nat} {branches : List Branch} {history : History} {run : Run}
    (h : Course (.start now branches) history run) :
    (run.isOver = true ↔ ∀ i t, { run with now := t }.moveOn? i = none) ∧
    (∀ i t next, { run with now := t }.moveOn? i = some next → next.workLeft < run.workLeft) ∧
    (∃ more, Course run more run.finish ∧ run.finish.isOver = true) ∧
    (run.isOver = true →
      run.report.branches.length = branches.length ∧
      (∀ i b, branches[i]? = some b → ∃ before ending,
        history.of i = before ++ [.ended ending] ∧ b.program.Path before (.finish ending) ∧
        run.report.branches[i]? = some
          { name := b.name
            result := ending.result (before.any Deed.isRefusal)
            checkpoints := before.countP Deed.isGoAhead }) ∧
      (run.report.failed = true ↔
        (∃ i first, (i, Deed.raised first) ∈ history) ∨
          ∃ i ending, (i, Deed.ended ending) ∈ history ∧ ending.isFailure = true)) := by
  have htallies := h.tallies
  refine ⟨run.isOver_iff, fun i t next hmove => ?_, course_finish run, fun hover => ⟨?_, ?_, ?_⟩⟩
  · have hless : next.workLeft < ({ run with now := t } : Run).workLeft :=
      Run.workLeft_moveOn?_lt hmove
    exact hless
  · rw [htallies.report_branches, List.length_map, htallies.length_eq]
  · exact fun i b hb => htallies.report hover hb
  · exact htallies.failed_iff hover

/-- A branch with two pieces of work. -/
def steady : Branch := { name := "a", program := .ofScript [.check, .work 5, .check, .work 5] }

/-- A branch that fails without ever asking its checkpoint. -/
def hasty : Branch := { name := "b", program := .ofScript [.work 2, .fail (.failed "b" "no")] }

/-- The second branch fails while the first one works. -/
def crossing : Option (History × Run) :=
  (Run.start 0 [steady, hasty]).follow?
    [(0, 0), (0, 0), (0, 0), (1, 0), (1, 2), (1, 2), (0, 5), (0, 5), (0, 5), (0, 5)]

/-- The next checkpoint of the first branch stops it. -/
theorem Course.reports_crossing : ∃ history run, crossing = some (history, run) ∧
    run.isOver = true ∧
    run.report = ⟨true, [⟨"a", .stopped, 1⟩, ⟨"b", .failed "step b failed: no", 0⟩]⟩ ∧
    ∃ before ending, history.of 0 = before ++ [.ended ending] ∧
      steady.program.Path before (.finish ending) ∧
      run.report.branches[0]? = some
        { name := "a"
          result := ending.result (before.any Deed.isRefusal)
          checkpoints := before.countP Deed.isGoAhead } := by
  have hcrossing : (crossing.map fun p => (p.2.isOver, p.2.report)) =
      some (true, ⟨true, [⟨"a", .stopped, 1⟩, ⟨"b", .failed "step b failed: no", 0⟩]⟩) := by
    decide +kernel
  obtain ⟨⟨history, run⟩, hrun, heq⟩ := Option.map_eq_some_iff.1 hcrossing
  obtain ⟨hover, hreport⟩ := Prod.ext_iff.1 heq
  obtain ⟨-, -, -, hreports⟩ := (course_of_follow? hrun).reports
  exact ⟨history, run, hrun, hover, hreport, (hreports hover).2.1 0 steady rfl⟩

end TaskRelay.Parallel
