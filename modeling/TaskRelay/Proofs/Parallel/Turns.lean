import TaskRelay.Proofs.Parallel.Course

/-!
# Courses in turns

On a single thread a branch that goes on does so until it works or has ended; only then another
branch or the runner gets its turn.  Which one that is, and when, is left open.  The run that
keeps to the clock goes on in turns (`turnCourse_finish`).
-/

namespace TaskRelay.Parallel

/-- After this the branch lets others go on. -/
def Deed.yields : Deed → Bool
  | .worked _ | .ended _ => true
  | _ => false

/-- The branch has let others go on after what it did last. -/
def AtRest (ds : List Deed) : Prop :=
  ∀ d ∈ ds.getLast?, d.yields = true

theorem atRest_nil : AtRest [] := nofun

theorem atRest_append_singleton {ds : List Deed} {d : Deed} :
    AtRest (ds ++ [d]) ↔ d.yields = true := by
  simp [AtRest]

/-- A course in which nothing happens while a branch is in the middle of its turn, but what this
branch does. -/
inductive TurnCourse (run : Run) : History → Run → Prop where
  | start : TurnCourse run [] run
  | move {history : History} {mid next : Run} (i t : Nat) (h : TurnCourse run history mid)
      (hrest : ∀ j, j ≠ i → AtRest (history.of j))
      (hmove : { mid with now := t }.moveOn? i = some next) :
      TurnCourse run (history ++ mid.record i) next

theorem TurnCourse.course {run last : Run} {history : History} (h : TurnCourse run history last) :
    Course run history last := by
  induction h with
  | start => exact .start
  | move i t _ _ hmove ih => exact ih.move i t hmove

/-! ## The clock keeps to turns -/

/-- A branch in the middle of its turn is the first that can go on. -/
def TurnKept (history : History) (run : Run) : Prop :=
  ∀ j, AtRest (history.of j) ∨ run.readyBranch? run.now = some j

variable {history : History} {run next : Run} {i t : Nat}

theorem atRest_append_record {j : Nat} (hne : j ≠ i) (h : AtRest (history.of j)) :
    AtRest (History.of (history ++ run.record i) j) := by
  rwa [History.of_append, Run.record_of_ne run hne, List.append_nil]

/-- The first branch that could go on is still the first while its turn lasts. -/
theorem Run.readyBranch?_actOn {s : BranchState} {program : Program}
    (hready : run.readyBranch? t = some i) (hturn : (s.deed program run.flag).yields = false) :
    ({ run with now := t }.actOn i program s).readyBranch? t = some i := by
  obtain ⟨hi, -, hfirst⟩ := List.findIdx?_eq_some_iff_getElem.1 hready
  have hsince : (s.act program t run.flag).branch.readyAt? = some t := by
    cases program with
    | work => cases hturn
    | finish => cases hturn
    | proceed | raise | note => rfl
  refine List.findIdx?_eq_some_iff_getElem.2 ⟨by simpa [Run.actOn] using hi, ?_, ?_⟩
  · simp [Run.actOn, hsince]
  · intro j hj
    have hne : i ≠ j := Nat.ne_of_gt hj
    simpa [Run.actOn, List.getElem_set_ne hne] using hfirst j hj

/-- The turn goes on, or the branch lets others go on. -/
theorem turnKept_of_ready (hrest : ∀ j, j ≠ i → AtRest (history.of j))
    (hready : run.readyBranch? t = some i) (hmove : { run with now := t }.moveOn? i = some next) :
    TurnKept (history ++ run.record i) next := by
  intro j
  by_cases hne : j = i
  · subst hne
    rcases Run.moveOn?_cases hmove with
      ⟨s, since, program, hs, hstage, rfl⟩ | ⟨s, ending, hs, hstage, rfl⟩
    · have hrecord : run.record j = [(j, s.deed program run.flag)] :=
        Run.record_of_running hs hstage
      rw [hrecord, History.of_append, History.of_singleton_self, atRest_append_singleton]
      cases hyields : (s.deed program run.flag).yields with
      | true => exact .inl rfl
      | false => exact .inr (Run.readyBranch?_actOn hready hyields)
    · -- A branch that has ended is not ready.
      obtain ⟨s', hs', since, hsince⟩ := Run.mem_of_readyBranch? hready
      cases hs.symm.trans hs'
      rw [BranchState.readyAt?, hstage] at hsince
      cases hsince
  · exact .inl (atRest_append_record hne (hrest j hne))

theorem TurnKept.step? (h : TurnKept history run) (hstep : run.step? = some next) :
    ∃ i t, { run with now := t }.moveOn? i = some next ∧ (∀ j, j ≠ i → AtRest (history.of j)) ∧
      TurnKept (history ++ run.record i) next := by
  obtain ⟨i, t, hmove, ⟨rfl, hready⟩ | ⟨hidle, hnext⟩⟩ := Run.step?_cases hstep
  · have hrest : ∀ j, j ≠ i → AtRest (history.of j) := by
      intro j hne
      refine (h j).resolve_right fun hj => hne ?_
      exact (Option.some.inj (hready.symm.trans hj)).symm
    exact ⟨i, run.now, hmove, hrest, turnKept_of_ready hrest hready hmove⟩
  · have hrest : ∀ j, AtRest (history.of j) := fun j =>
      (h j).resolve_right (by rw [hidle]; nofun)
    refine ⟨i, t, hmove, fun j _ => hrest j, ?_⟩
    rcases hnext with hended | hready
    · obtain ⟨s, hs, ending, hstage⟩ := Run.mem_of_endedBranch? hended
      rw [Run.record_of_ended hs hstage, List.append_nil]
      exact fun j => .inl (hrest j)
    · exact turnKept_of_ready (fun j _ => hrest j) hready hmove

/-- The run after a number of steps by the clock. -/
def Run.stepsOn? (run : Run) : Nat → Option Run
  | 0 => some run
  | n + 1 => run.step?.bind fun next => next.stepsOn? n

/-- Steps by the clock prolong a course in turns. -/
theorem TurnKept.stepsOn? {start last : Run} {n : Nat} (hkept : TurnKept history run)
    (hcourse : TurnCourse start history run) (h : run.stepsOn? n = some last) :
    ∃ more, Course run more last ∧ TurnCourse start (history ++ more) last ∧
      TurnKept (history ++ more) last := by
  induction n generalizing run history with
  | zero =>
    cases h
    rw [← List.append_nil history] at hkept hcourse
    exact ⟨[], .start, hcourse, hkept⟩
  | succ n ih =>
    obtain ⟨next, hstep, hnext⟩ := Option.bind_eq_some_iff.1 h
    obtain ⟨i, t, hmove, hrest, hkept⟩ := hkept.step? hstep
    obtain ⟨more, hmore, hturns, hkept⟩ := ih hkept (hcourse.move i t hrest hmove) hnext
    have hone : Course run (run.record i) next := Course.start.move i t hmove
    rw [List.append_assoc] at hturns hkept
    exact ⟨run.record i ++ more, hone.trans hmore, hturns, hkept⟩

/-- Whatever the run comes to by the clock, it comes to in turns. -/
theorem turnCourse_of_stepsOn? {last : Run} {n : Nat} (h : run.stepsOn? n = some last) :
    ∃ history, TurnCourse run history last ∧ TurnKept history last := by
  have hkept : TurnKept [] run := fun _ => .inl atRest_nil
  obtain ⟨history, -, hcourse, hkept⟩ := hkept.stepsOn? .start h
  exact ⟨history, hcourse, hkept⟩

theorem Run.exists_stepsOn?_finish (run : Run) : ∃ n, run.stepsOn? n = some run.finish := by
  induction run using Run.finish.induct with
  | case1 run hstep =>
    rw [Run.finish, hstep]
    exact ⟨0, rfl⟩
  | case2 run next hstep ih =>
    obtain ⟨n, hn⟩ := ih
    rw [Run.finish, hstep]
    exact ⟨n + 1, Option.bind_eq_some_iff.2 ⟨next, hstep, hn⟩⟩

/-- **The run by the clock goes on in turns.** -/
theorem turnCourse_finish (run : Run) : ∃ history, TurnCourse run history run.finish := by
  obtain ⟨n, hn⟩ := run.exists_stepsOn?_finish
  obtain ⟨history, hcourse, -⟩ := turnCourse_of_stepsOn? hn
  exact ⟨history, hcourse⟩

end TaskRelay.Parallel
