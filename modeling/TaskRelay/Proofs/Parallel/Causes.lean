import TaskRelay.Proofs.Parallel.Course

/-!
# What an error of a parallel step names

A step that is done by branches fails if the flag has been raised, but the text of its error is made of
the reports on branches that failed or broke off.  The two agree where a branch has ended in a failure:
then the text names it (`Tallies.namesCause_iff`).  A branch may also raise the flag and end well.  If
all branches of a run end well, its error has an empty text, whoever raised the flag
(`failures_eq_nil`).
-/

namespace TaskRelay.Parallel

def BranchReport.isFailure (b : BranchReport) : Bool :=
  match b.result with
  | .failed _ | .panicked => true
  | .completed | .stopped => false

/-- The text has the name in it. -/
def Mentions (text name : String) : Prop :=
  ∃ before after, text = before ++ name ++ after

theorem Mentions.trans {text part name : String} (h : Mentions text part) (hpart : Mentions part name) :
    Mentions text name := by
  obtain ⟨before, after, rfl⟩ := h
  obtain ⟨inner, outer, rfl⟩ := hpart
  exact ⟨before ++ inner, outer ++ after, by simp [String.append_assoc]⟩

theorem mentions_intercalate (sep : String) {parts : List String} {part : String}
    (h : part ∈ parts) : Mentions (sep.intercalate parts) part := by
  induction parts with
  | nil => cases h
  | cons first parts ih =>
    by_cases hnil : parts = []
    · subst hnil
      rw [List.mem_singleton.1 h, String.intercalate_singleton]
      exact ⟨"", "", by simp⟩
    · rw [String.intercalate_cons_of_ne_nil hnil]
      rcases List.mem_cons.1 h with rfl | hrest
      · exact ⟨"", sep ++ sep.intercalate parts, by simp [String.append_assoc]⟩
      · obtain ⟨before, after, hparts⟩ := ih hrest
        exact ⟨first ++ sep ++ before, after, by simp [hparts, String.append_assoc]⟩

namespace Report

/-- The report puts down a failure of a branch that the text mentions. -/
def NamesCause (r : Report) (text : String) : Prop :=
  ∃ b ∈ r.branches, b.isFailure = true ∧ Mentions text b.name

theorem isSome_failure? (b : BranchReport) : (failure? b).isSome = b.isFailure := by
  unfold failure? BranchReport.isFailure
  cases b.result <;> rfl

theorem mentions_of_failure? {b : BranchReport} {text : String} (h : failure? b = some text) :
    Mentions text b.name := by
  unfold failure? at h
  split at h
  · next message _ =>
    cases h
    exact ⟨"", ": " ++ message, by simp [String.append_assoc]⟩
  · cases h
    exact ⟨"", ": panicked", by simp⟩
  · cases h

/-- All failures are in the text. -/
theorem mentions_failures {r : Report} {b : BranchReport} (hb : b ∈ r.branches)
    (hfails : b.isFailure = true) : Mentions ("; ".intercalate r.failures) b.name := by
  rw [← isSome_failure?] at hfails
  obtain ⟨text, htext⟩ := Option.isSome_iff_exists.1 hfails
  have hmem : text ∈ r.failures := List.mem_filterMap.2 ⟨b, hb, htext⟩
  exact (mentions_intercalate "; " hmem).trans (mentions_of_failure? htext)

theorem namesCause_iff (r : Report) :
    r.NamesCause ("; ".intercalate r.failures) ↔ ∃ b ∈ r.branches, b.isFailure = true := by
  constructor
  · rintro ⟨b, hb, hfails, -⟩
    exact ⟨b, hb, hfails⟩
  · rintro ⟨b, hb, hfails⟩
    exact ⟨b, hb, hfails, mentions_failures hb hfails⟩

theorem failures_eq_nil {r : Report} (h : ¬ ∃ b ∈ r.branches, b.isFailure = true) :
    r.failures = [] := by
  rw [failures, List.filterMap_eq_nil_iff]
  intro b hb
  rw [← Option.not_isSome_iff_eq_none, isSome_failure?]
  exact fun hfails => h ⟨b, hb, hfails⟩

end Report

theorem reply_eq_error_iff {destination : Destination} {r : Report} {e : StepError} :
    reply destination r = .error e ↔
      r.failed = true ∧ e = .invalid destination ("; ".intercalate r.failures) := by
  unfold reply
  split
  · next hfailed =>
    simp only [Reply.error.injEq, hfailed, true_and]
    exact eq_comm
  · next hfailed => simp [hfailed]

theorem Ending.isFailure_report (name : String) (refused : Bool) (checkpoints : Nat)
    (ending : Ending) :
    BranchReport.isFailure { name, result := ending.result refused, checkpoints } =
      ending.isFailure := by
  cases ending <;> cases refused <;> rfl

namespace Tallies

variable {branches : List Branch} {history : History} {run : Run}

/-- A failure is reported exactly if some branch has ended in one. -/
theorem exists_isFailure_iff (h : Tallies branches history run) (hover : run.isOver = true) :
    (∃ b ∈ run.report.branches, b.isFailure = true) ↔
      ∃ i ending, (i, Deed.ended ending) ∈ history ∧ ending.isFailure = true := by
  constructor
  · rintro ⟨b, hb, hfails⟩
    obtain ⟨i, hi⟩ := List.getElem?_of_mem hb
    have hlt : i < branches.length := by
      have hlength : run.report.branches.length = branches.length := by
        rw [h.report_branches, List.length_map, h.length_eq]
      rw [← hlength]
      exact (List.getElem?_eq_some_iff.1 hi).1
    obtain ⟨before, ending, hof, -, hreport⟩ := h.report hover (List.getElem?_eq_getElem hlt)
    rw [hi] at hreport
    cases hreport
    rw [Ending.isFailure_report] at hfails
    refine ⟨i, ending, ?_, hfails⟩
    rw [← History.mem_of, hof]
    exact List.mem_concat_self
  · rintro ⟨i, ending, hmem, hfails⟩
    obtain ⟨before, last, hof, hpath, hreport⟩ :=
      h.report hover (List.getElem?_eq_getElem (h.lt_length hmem))
    rw [← History.mem_of, hof] at hmem
    rw [hpath.eq_of_mem_ended hmem] at hfails
    exact ⟨_, List.mem_of_getElem? hreport, by rwa [Ending.isFailure_report]⟩

/-- **The error of a run names a cause exactly if some branch has ended in a failure.** -/
theorem namesCause_iff (h : Tallies branches history run) (hover : run.isOver = true) :
    run.report.NamesCause ("; ".intercalate run.report.failures) ↔
      ∃ i ending, (i, Deed.ended ending) ∈ history ∧ ending.isFailure = true := by
  rw [Report.namesCause_iff, h.exists_isFailure_iff hover]

end Tallies

/-- A branch that raises the flag does not end well after that. -/
def Branch.OwnsUp (b : Branch) : Prop :=
  ∀ ds, b.program.Path ds (.finish .ok) → ∀ first, Deed.raised first ∉ ds

/-- Where all branches own up, one that raises the flag ends in a failure. -/
theorem Tallies.exists_failure_of_raised {branches : List Branch} {history : History} {run : Run}
    (h : Tallies branches history run) (hover : run.isOver = true)
    (hown : ∀ b ∈ branches, b.OwnsUp) {i : Nat} {first : Bool}
    (hraised : (i, Deed.raised first) ∈ history) :
    ∃ i ending, (i, Deed.ended ending) ∈ history ∧ ending.isFailure = true := by
  have hb := List.getElem?_eq_getElem (h.lt_length hraised)
  obtain ⟨before, ending, hof, hpath, -⟩ := h.report hover hb
  have hended : (i, Deed.ended ending) ∈ history := by
    rw [← History.mem_of, hof]
    exact List.mem_concat_self
  rw [← History.mem_of, hof, List.mem_append] at hraised
  have hbefore : .raised first ∈ before := hraised.resolve_right (by simp)
  refine ⟨i, ending, hended, ?_⟩
  cases ending with
  | ok => exact absurd hbefore (hown _ (List.mem_of_getElem? hb) before hpath first)
  | error | panic => rfl

/-- Every error of a step that is done by the branches names a cause, however their moves come. -/
def NamesCauses (branches : List Branch) (destination : Destination) : Prop :=
  ∀ now history run, Course (.start now branches) history run → run.isOver = true →
    ∀ e, reply destination run.report = .error e →
      ∃ text, e = .invalid destination text ∧ run.report.NamesCause text

/-- **When the errors of a parallel step name a cause.**  All of them do exactly if in every run in
which a branch raises the flag some branch ends in a failure.  It is enough that no branch raises the
flag and ends well.  An error that names no cause has an empty text. -/
theorem namesCauses_iff (branches : List Branch) (destination : Destination) :
    (NamesCauses branches destination ↔
      ∀ now history run, Course (.start now branches) history run → run.isOver = true →
        (∃ i first, (i, Deed.raised first) ∈ history) →
          ∃ i ending, (i, Deed.ended ending) ∈ history ∧ ending.isFailure = true) ∧
    ((∀ b ∈ branches, b.OwnsUp) → NamesCauses branches destination) ∧
    (∀ now history run, Course (.start now branches) history run → run.isOver = true →
      ∀ text, reply destination run.report = .error (.invalid destination text) →
        ¬ run.report.NamesCause text → text = "") := by
  have hiff : NamesCauses branches destination ↔
      ∀ now history run, Course (.start now branches) history run → run.isOver = true →
        (∃ i first, (i, Deed.raised first) ∈ history) →
          ∃ i ending, (i, Deed.ended ending) ∈ history ∧ ending.isFailure = true := by
    constructor
    · intro h now history run hcourse hover hraised
      have htallies := hcourse.tallies
      have hfailed : run.report.failed = true := (htallies.failed_iff hover).2 (.inl hraised)
      obtain ⟨text, htext, hcause⟩ :=
        h now history run hcourse hover _ (reply_eq_error_iff.2 ⟨hfailed, rfl⟩)
      cases htext
      exact (htallies.namesCause_iff hover).1 hcause
    · intro h now history run hcourse hover e he
      have htallies := hcourse.tallies
      obtain ⟨hfailed, rfl⟩ := reply_eq_error_iff.1 he
      refine ⟨_, rfl, (htallies.namesCause_iff hover).2 ?_⟩
      rcases (htallies.failed_iff hover).1 hfailed with hraised | hended
      · exact h now history run hcourse hover hraised
      · exact hended
  refine ⟨hiff, fun hown => hiff.2 ?_, ?_⟩
  · rintro now history run hcourse hover ⟨i, first, hraised⟩
    exact hcourse.tallies.exists_failure_of_raised hover hown hraised
  · intro now history run hcourse hover text htext hnone
    obtain ⟨-, heq⟩ := reply_eq_error_iff.1 htext
    cases heq
    rw [Report.namesCause_iff] at hnone
    rw [Report.failures_eq_nil hnone, String.intercalate_nil]

/-- Raises the flag for a bad record, and fails. -/
def auditor : Branch :=
  { name := "audit"
    program := .ofScript [.check, .abort, .fail (.invalid "audit" "invalid record")] }

theorem ownsUp_auditor : auditor.OwnsUp := by
  intro ds hpath
  -- The program has no way to end well but a refusal of its checkpoint.
  cases hpath with
  | asked proceed hpath =>
    cases hpath with
    | noted _ hpath =>
      cases proceed with
      | false =>
        cases hpath with
        | here => simp
      | true =>
        cases hpath with
        | raised first hpath =>
          cases hpath with
          | noted _ hpath => cases hpath

theorem ownsUp_hasty : hasty.OwnsUp := by
  intro ds hpath
  cases hpath with
  | worked _ hpath => cases hpath

/-- Whichever of the two fails first, the error names it. -/
theorem namesCauses_iff_hasty : (∀ b ∈ [auditor, hasty], b.OwnsUp) ∧
    NamesCauses [auditor, hasty] "index" := by
  have hown : ∀ b ∈ [auditor, hasty], b.OwnsUp := by simp [ownsUp_auditor, ownsUp_hasty]
  exact ⟨hown, (namesCauses_iff [auditor, hasty] "index").2.1 hown⟩

/-- Raises the flag for a bad record, and has no more to say. -/
def quitter : Branch :=
  { name := "audit", program := .ofScript [.work 2, .check, .abort] }

/-- The second branch raises the flag while the first one works, and both end well. -/
def abandoned : Option (History × Run) :=
  (Run.start 0 [steady, quitter]).follow?
    (List.replicate 3 (0, 0) ++ (1, 0) :: List.replicate 6 (1, 2) ++ List.replicate 4 (0, 5))

/-- The flag that a branch has raised fails the step, but nobody is named. -/
theorem not_namesCauses_quitter : ¬ NamesCauses [steady, quitter] "index" ∧
    ∃ history run, abandoned = some (history, run) ∧ run.isOver = true ∧
      run.report = ⟨true, [⟨"a", .stopped, 1⟩, ⟨"audit", .completed, 1⟩]⟩ ∧
      reply "index" run.report = .error (.invalid "index" "") := by
  have habandoned : (abandoned.map fun p => (p.2.isOver, p.2.report)) =
      some (true, ⟨true, [⟨"a", .stopped, 1⟩, ⟨"audit", .completed, 1⟩]⟩) := by
    decide +kernel
  obtain ⟨⟨history, run⟩, hrun, heq⟩ := Option.map_eq_some_iff.1 habandoned
  obtain ⟨hover, hreport⟩ := Prod.ext_iff.1 heq
  have hreport : run.report = ⟨true, [⟨"a", .stopped, 1⟩, ⟨"audit", .completed, 1⟩]⟩ := hreport
  have hreply : reply "index" run.report = .error (.invalid "index" "") := by
    rw [hreport]
    rfl
  refine ⟨fun h => ?_, history, run, hrun, hover, hreport, hreply⟩
  obtain ⟨text, -, b, hb, hfails, -⟩ := h 0 history run (course_of_follow? hrun) hover _ hreply
  rw [hreport] at hb
  simp only [List.mem_cons, List.not_mem_nil, or_false] at hb
  rcases hb with rfl | rfl <;> cases hfails

end TaskRelay.Parallel
