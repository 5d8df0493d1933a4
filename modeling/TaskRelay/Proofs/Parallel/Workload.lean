import TaskRelay.Proofs.Parallel.Turns

/-!
# Branches that stop when told to

A workload asks its checkpoint before each unit of work and ends as soon as it is told to stop.
Before one of its units it may raise the flag and fail instead.

How a branch stands is told by four numbers: how often it was let through, how many units it has
begun and completed, and how often it has raised the flag.  They are settled for all points of the
program of a workload first (`accounts_script`), and so for all courses (`Course.balanced`).  Since
no checkpoint lets anybody through once the flag is raised, the numbers at that moment bound all
later work.
-/

namespace TaskRelay.Parallel

/-- A branch that does its units of work one after the other. -/
structure Workload where
  name : String
  /-- How long each unit takes, and what it writes in the end. -/
  units : List (Nat × Json String)
  /-- The number of units before the one at which the branch fails, if it does. -/
  failure : Option (Nat × StepError) := none

namespace Workload

def script : List (Nat × Json String) → Option (Nat × StepError) → List Command
  | [], _ => []
  | _ :: _, some (0, e) => [.check, .abort, .fail e]
  | (duration, value) :: units, some (k + 1, e) =>
    .check :: .work duration :: .write value :: script units (some (k, e))
  | (duration, value) :: units, none =>
    .check :: .work duration :: .write value :: script units none

def branch (load : Workload) : Branch :=
  { name := load.name, program := .ofScript (script load.units load.failure) }

end Workload

/-! ## What a branch has done -/

namespace Deed

/-- The branch begins with a unit of work. -/
@[simp] def begins : Deed → Bool
  | .worked _ => true
  | _ => false

/-- The branch has done a unit of work and writes what comes of it. -/
@[simp] def completes : Deed → Bool
  | .noted (.write _) => true
  | _ => false

/-- The branch raises the flag. -/
@[simp] def alarms : Deed → Bool
  | .raised _ => true
  | _ => false

/-- The branch is about to begin with a unit, or to raise the flag. -/
@[simp] def opens : Deed → Bool
  | .asked proceed | .noted (.check proceed) => proceed
  | _ => false

end Deed

/-- A branch begins with a unit, or raises the flag, once for each time that its checkpoint has
let it through, and only after that. -/
structure Balanced (ds : List Deed) : Prop where
  begun_le : ds.countP Deed.begins + ds.countP Deed.alarms ≤ ds.countP Deed.isGoAhead
  goAhead_le : ds.countP Deed.isGoAhead ≤ ds.countP Deed.begins + ds.countP Deed.alarms + 1
  /-- The numbers are equal unless the branch is just about to do so. -/
  settled : (∀ d ∈ ds.getLast?, d.opens = false) →
    ds.countP Deed.isGoAhead = ds.countP Deed.begins + ds.countP Deed.alarms

/-- What the deeds of a workload come to when its program is at the given point. -/
structure Accounts (units : List (Nat × Json String)) (failure : Option (Nat × StepError))
    (ds : List Deed) (q : Program) : Prop where
  balanced : Balanced ds
  ok : q = .finish .ok →
    ds.countP Deed.begins = ds.countP Deed.completes ∧
    ds.countP Deed.isGoAhead = ds.countP Deed.completes ∧ ds.countP Deed.alarms = 0 ∧
    ds.countP Deed.completes ≤ units.length ∧
    ds.any Deed.isRefusal = decide (ds.countP Deed.completes < units.length)
  error : ∀ e, q = .finish (.error e) →
    failure = some (ds.countP Deed.completes, e) ∧ ds.countP Deed.completes < units.length ∧
    ds.countP Deed.begins = ds.countP Deed.completes ∧ ds.countP Deed.alarms = 1 ∧
    ds.countP Deed.isGoAhead = ds.countP Deed.completes + 1
  panic : q ≠ .finish .panic

variable {unit : Nat × Json String} {units : List (Nat × Json String)}
  {failure : Option (Nat × StepError)} {ds : List Deed} {q : Program}

theorem Accounts.midway (h : Balanced ds) (hq : ∀ ending, q ≠ .finish ending) :
    Accounts units failure ds q :=
  ⟨h, fun heq => absurd heq (hq _), fun _ heq => absurd heq (hq _), hq _⟩

/-- A branch with a unit left stops at its checkpoint, or goes on behind it. -/
theorem accounts_check {rest : List Command}
    (h : Program.Path (.ofScript (.check :: rest)) ds q) :
    Accounts (unit :: units) failure ds q ∨
      ∃ more, ds = .asked true :: .noted (.check true) :: more ∧
        Program.Path (.ofScript rest) more q := by
  cases h with
  | here => exact .inl (.midway (by constructor <;> simp) (by simp [Program.ofScript]))
  | asked proceed h =>
    cases h with
    | here =>
      exact .inl (.midway (by constructor <;> cases proceed <;> simp) (by simp))
    | noted _ h =>
      cases proceed with
      | true => exact .inr ⟨_, rfl, h⟩
      | false =>
        cases h with
        | here => exact .inl ⟨by constructor <;> simp, by simp, by simp, by simp⟩

theorem accounts_failing {e : StepError}
    (h : Program.Path (.ofScript [.check, .abort, .fail e]) ds q) :
    Accounts (unit :: units) (some (0, e)) ds q := by
  rcases accounts_check h with haccounts | ⟨more, rfl, hmore⟩
  · exact haccounts
  cases hmore with
  | here =>
    exact .midway (by constructor <;> simp [List.countP_cons]) (by simp [Program.ofScript])
  | raised first h =>
    cases h with
    | here => exact .midway (by constructor <;> simp [List.countP_cons]) (by simp)
    | noted _ h =>
      cases h with
      | here =>
        refine ⟨by constructor <;> simp [List.countP_cons], ?_, ?_, ?_⟩
        all_goals simp [List.countP_cons, Program.ofScript]

/-- A whole unit comes before what the branch has done. -/
theorem Balanced.after_unit (h : Balanced ds) (duration : Nat) (value : Json String) :
    Balanced (.asked true :: .noted (.check true) :: .worked duration :: .noted (.write value) ::
      ds) := by
  have hbegun := h.begun_le
  have hpassed := h.goAhead_le
  refine ⟨?_, ?_, fun hlast => ?_⟩
  · simp only [List.countP_cons, Deed.begins, Deed.alarms, Deed.isGoAhead, Bool.false_eq_true,
      ↓reduceIte]
    omega
  · simp only [List.countP_cons, Deed.begins, Deed.alarms, Deed.isGoAhead, Bool.false_eq_true,
      ↓reduceIte]
    omega
  · have heq : ds.countP Deed.isGoAhead = ds.countP Deed.begins + ds.countP Deed.alarms := by
      cases ds with
      | nil => rfl
      | cons d ds => exact h.settled (by simpa using hlast)
    simp only [List.countP_cons, Deed.begins, Deed.alarms, Deed.isGoAhead, Bool.false_eq_true,
      ↓reduceIte]
    omega

theorem Accounts.after_unit (h : Accounts units failure ds q) (duration : Nat)
    (value : Json String) :
    Accounts (unit :: units) (failure.map fun (k, e) => (k + 1, e))
      (.asked true :: .noted (.check true) :: .worked duration :: .noted (.write value) :: ds)
      q where
  balanced := h.balanced.after_unit duration value
  ok := by
    intro hq
    obtain ⟨hbegun, hpassed, halarms, hle, hrefused⟩ := h.ok hq
    simp [List.countP_cons, hbegun, hpassed, halarms, hle, hrefused]
  error := by
    intro e hq
    obtain ⟨hfailure, hlt, hbegun, halarms, hpassed⟩ := h.error e hq
    simp [List.countP_cons, hfailure, hlt, hbegun, halarms, hpassed]
  panic := h.panic

theorem accounts_unit {duration : Nat} {value : Json String}
    (hrest : ∀ {failure ds q}, Program.Path (.ofScript (Workload.script units failure)) ds q →
      Accounts units failure ds q)
    (failure : Option (Nat × StepError))
    (h : Program.Path (.ofScript
      (.check :: .work duration :: .write value :: Workload.script units failure)) ds q) :
    Accounts ((duration, value) :: units) (failure.map fun (k, e) => (k + 1, e)) ds q := by
  rcases accounts_check h with haccounts | ⟨more, rfl, hmore⟩
  · exact haccounts
  cases hmore with
  | here =>
    exact .midway (by constructor <;> simp [List.countP_cons]) (by simp [Program.ofScript])
  | worked _ h =>
    cases h with
    | here =>
      exact .midway (by constructor <;> simp [List.countP_cons]) (by simp [Program.ofScript])
    | noted _ h => exact (hrest h).after_unit duration value

/-- **What a workload has done, wherever it is.** -/
theorem accounts_script (h : Program.Path (.ofScript (Workload.script units failure)) ds q) :
    Accounts units failure ds q := by
  induction units generalizing failure ds q with
  | nil =>
    cases h with
    | here =>
      refine ⟨by constructor <;> simp, ?_, ?_, ?_⟩
      all_goals simp [Workload.script, Program.ofScript]
  | cons unit units ih =>
    match failure with
    | none => exact accounts_unit ih none h
    | some (0, e) => exact accounts_failing h
    | some (k + 1, e) => exact accounts_unit ih (some (k, e)) h

/-! ## Workloads in a course -/

theorem Workload.balanced {load : Workload} {ds : List Deed} {stage : Stage}
    (h : load.branch.program.Leads ds stage) : Balanced ds := by
  have hended : ∀ before ending, load.branch.program.Path before (.finish ending) →
      before.countP Deed.isGoAhead = before.countP Deed.begins + before.countP Deed.alarms := by
    intro before ending hpath
    have haccounts := accounts_script hpath
    cases ending with
    | ok =>
      obtain ⟨hbegun, hpassed, halarms, -⟩ := haccounts.ok rfl
      rw [hbegun, hpassed, halarms, Nat.add_zero]
    | error e =>
      obtain ⟨-, -, hbegun, halarms, hpassed⟩ := haccounts.error e rfl
      rw [hbegun, hpassed, halarms]
    | panic => exact absurd rfl haccounts.panic
  cases stage with
  | running since q => exact (accounts_script h).balanced
  | ended ending | joined ending =>
    obtain ⟨before, rfl, hpath⟩ := h
    have heq : (before ++ [Deed.ended ending]).countP Deed.isGoAhead =
        (before ++ [Deed.ended ending]).countP Deed.begins +
          (before ++ [Deed.ended ending]).countP Deed.alarms := by
      simpa [List.countP_append] using hended before ending hpath
    exact ⟨Nat.le_of_eq heq.symm, Nat.le_succ_of_le (Nat.le_of_eq heq), fun _ => heq⟩

section workloads

variable {now : Nat} {loads : List Workload} {history first later : History} {run mid last : Run}

theorem branch_of_load {i : Nat} {load : Workload} (hload : loads[i]? = some load) :
    (loads.map Workload.branch)[i]? = some load.branch := by
  rw [List.getElem?_map, hload, Option.map_some]

theorem Course.exists_load (h : Course (.start now (loads.map Workload.branch)) history run)
    {i : Nat} {d : Deed} (hmem : (i, d) ∈ history) : ∃ load, loads[i]? = some load := by
  have hi := h.tallies.lt_length hmem
  rw [List.length_map] at hi
  exact ⟨_, List.getElem?_eq_getElem hi⟩

theorem Course.leads (h : Course (.start now (loads.map Workload.branch)) history run) {i : Nat}
    {load : Workload} (hload : loads[i]? = some load) :
    ∃ stage, load.branch.program.Leads (history.of i) stage := by
  have hb := branch_of_load hload
  have hi : i < run.branches.length := by
    rw [h.tallies.length_eq]
    exact (List.getElem?_eq_some_iff.1 hb).1
  exact ⟨_, (h.tallies.stands hb (List.getElem?_eq_getElem hi)).leads⟩

theorem Course.balanced (h : Course (.start now (loads.map Workload.branch)) history run)
    {i : Nat} (hi : i < loads.length) : Balanced (history.of i) := by
  obtain ⟨stage, hleads⟩ := h.leads (List.getElem?_eq_getElem hi)
  exact Workload.balanced hleads

/-- A workload that is not to fail does not. -/
theorem Course.not_ended_error (h : Course (.start now (loads.map Workload.branch)) history run)
    (hgood : ∀ load ∈ loads, load.failure = none) (i : Nat) (e : StepError) :
    .ended (.error e) ∉ history.of i := by
  intro hmem
  obtain ⟨load, hload⟩ := h.exists_load (History.mem_of.1 hmem)
  obtain ⟨stage, hleads⟩ := h.leads hload
  cases stage with
  | running since q => exact Program.Path.not_mem_ended hleads _ hmem
  | ended ending | joined ending =>
    obtain ⟨before, hof, hpath⟩ := hleads
    rw [hof] at hmem
    cases hpath.eq_of_mem_ended hmem
    obtain ⟨hfailure, -⟩ := (accounts_script hpath).error e rfl
    cases (hgood load (List.mem_of_getElem? hload)).symm.trans hfailure

/-- In the later part no checkpoint lets a branch through. -/
theorem Course.countP_goAhead_of_aborted (h : Course mid later last)
    (habort : mid.flag.isAborted = true) (i : Nat) : (later.of i).countP Deed.isGoAhead = 0 := by
  rw [List.countP_eq_zero]
  intro d hd
  cases d with
  | asked proceed =>
    rw [h.answer_of_aborted habort (History.mem_of.1 hd)]
    exact Bool.false_ne_true
  | _ => exact Bool.false_ne_true

/-- Once the flag is raised, a branch that is not just about to begins with no unit any more. -/
theorem Course.rests_of_aborted (hfirst : Course (.start now (loads.map Workload.branch)) first mid)
    (hlater : Course mid later last) (habort : mid.flag.isAborted = true) {i : Nat}
    (hi : i < loads.length)
    (hsettled : (first.of i).countP Deed.isGoAhead =
      (first.of i).countP Deed.begins + (first.of i).countP Deed.alarms) :
    (later.of i).countP Deed.begins = 0 ∧ (later.of i).countP Deed.alarms = 0 := by
  have hle := ((hfirst.trans hlater).balanced hi).begun_le
  have hnone := hlater.countP_goAhead_of_aborted habort i
  rw [History.of_append, List.countP_append, List.countP_append, List.countP_append] at hle
  omega

theorem Deed.opens_of_yields {d : Deed} (h : d.yields = true) : d.opens = false := by
  cases d with
  | worked | ended => rfl
  | asked | raised | noted => cases h

/-- The move that raises the flag is not the answer of a checkpoint. -/
theorem TurnCourse.opens_of_aborted {branches : List Branch} {next : Run} {i j t : Nat}
    (h : TurnCourse (.start now branches) history run)
    (hrest : ∀ k, k ≠ j → AtRest (history.of k))
    (hmove : { run with now := t }.moveOn? j = some next)
    (hbefore : run.flag.isAborted = false) (hafter : next.flag.isAborted = true)
    {d : Deed} (hd : d ∈ (History.of (history ++ run.record j) i).getLast?) :
    d.opens = false := by
  by_cases hne : i = j
  · subst hne
    rcases Run.moveOn?_cases hmove with
      ⟨s, since, program, hs, hstage, rfl⟩ | ⟨s, ending, hs, hstage, rfl⟩
    · have hrecord : run.record i = [(i, s.deed program run.flag)] :=
        Run.record_of_running hs hstage
      rw [hrecord, History.of_append, History.of_singleton_self, List.getLast?_concat] at hd
      cases hd
      cases program with
      | raise => rfl
      | _ => exact absurd (hbefore.symm.trans hafter) Bool.false_ne_true
    · have hrecord : run.record i = [] := Run.record_of_ended hs hstage
      rw [hrecord, List.append_nil] at hd
      have htallies := h.course.tallies
      have hi : i < branches.length := by
        rw [← htallies.length_eq]
        exact (List.getElem?_eq_some_iff.1 hs).1
      have hleads := (htallies.stands (List.getElem?_eq_getElem hi) hs).leads
      rw [hstage] at hleads
      obtain ⟨before, hof, -⟩ := hleads
      rw [hof, List.getLast?_concat] at hd
      cases hd
      rfl
  · rw [History.of_append, Run.record_of_ne run hne, List.append_nil] at hd
    exact Deed.opens_of_yields (hrest i hne d hd)

/-- When the flag goes up in a course in turns, no branch is about to begin with a unit. -/
theorem TurnCourse.settled (h : TurnCourse (.start now (loads.map Workload.branch)) history run)
    (habort : run.flag.isAborted = true) {i : Nat} (hi : i < loads.length) :
    (history.of i).countP Deed.isGoAhead =
      (history.of i).countP Deed.begins + (history.of i).countP Deed.alarms := by
  induction h with
  | start => cases habort
  | @move history mid next j t h hrest hmove ih =>
    have hnext := h.course.move j t hmove
    cases hflag : mid.flag.isAborted with
    | false => exact (hnext.balanced hi).settled fun d => h.opens_of_aborted hrest hmove hflag habort
    | true =>
      have hsettled := ih hflag
      have hone := Course.start.move j t hmove
      rw [List.nil_append] at hone
      obtain ⟨hbegun, halarms⟩ := h.course.rests_of_aborted hone hflag hi hsettled
      have hpassed := hone.countP_goAhead_of_aborted hflag i
      rw [History.of_append, List.countP_append, List.countP_append, List.countP_append]
      omega

theorem any_isRefusal {ds : List Deed} : ds.any Deed.isRefusal = true ↔ .asked false ∈ ds := by
  rw [List.any_eq_true]
  constructor
  · rintro ⟨d, hd, hrefusal⟩
    cases d with
    | asked proceed =>
      cases proceed with
      | false => exact hd
      | true => cases hrefusal
    | _ => cases hrefusal
  · exact fun hd => ⟨_, hd, rfl⟩

/-- The ways in which a workload comes out, with what is reported of it. -/
inductive Workload.Outcome (load : Workload) (ds : List Deed) : BranchReport → Prop where
  /-- It came to the unit before which it fails. -/
  | failed (e : StepError) (hended : .ended (.error e) ∈ ds)
      (hfailure : load.failure = some (ds.countP Deed.completes, e))
      (hleft : ds.countP Deed.completes < load.units.length) :
      Outcome load ds
        { name := load.name
          result := .failed e.message
          checkpoints := ds.countP Deed.completes + 1 }
  /-- A checkpoint stopped it before one of its units. -/
  | stopped (hended : .ended .ok ∈ ds) (hquiet : ∀ first, .raised first ∉ ds)
      (hrefused : .asked false ∈ ds) (hleft : ds.countP Deed.completes < load.units.length) :
      Outcome load ds
        { name := load.name, result := .stopped, checkpoints := ds.countP Deed.completes }
  /-- It has done all its units. -/
  | completed (hended : .ended .ok ∈ ds) (hquiet : ∀ first, .raised first ∉ ds)
      (hpassed : .asked false ∉ ds) (hall : ds.countP Deed.completes = load.units.length) :
      Outcome load ds
        { name := load.name, result := .completed, checkpoints := ds.countP Deed.completes }

theorem Course.outcome (h : Course (.start now (loads.map Workload.branch)) history run)
    (hover : run.isOver = true) {i : Nat} {load : Workload} (hload : loads[i]? = some load) :
    (history.of i).countP Deed.begins = (history.of i).countP Deed.completes ∧
    ∃ report, run.report.branches[i]? = some report ∧ load.Outcome (history.of i) report := by
  obtain ⟨before, ending, hof, hpath, hreport⟩ := h.tallies.report hover (branch_of_load hload)
  have haccounts := accounts_script hpath
  have hended : .ended ending ∈ history.of i := by
    rw [hof]
    exact List.mem_concat_self
  have hcount : ∀ p : Deed → Bool, p (.ended ending) = false →
      before.countP p = (history.of i).countP p := by
    intro p hp
    rw [hof, List.countP_append, List.countP_singleton, hp]
    rfl
  have hrefusal : before.any Deed.isRefusal = (history.of i).any Deed.isRefusal := by
    rw [hof, List.any_append]
    exact (Bool.or_false _).symm
  cases ending with
  | panic => exact absurd rfl haccounts.panic
  | error e =>
    obtain ⟨hfailure, hlt, hbegun, -, hpassed⟩ := haccounts.error e rfl
    rw [hpassed] at hreport
    rw [hcount Deed.completes rfl] at hreport hfailure hlt hbegun
    rw [hcount Deed.begins rfl] at hbegun
    exact ⟨hbegun, _, hreport, .failed e hended hfailure hlt⟩
  | ok =>
    obtain ⟨hbegun, hpassed, halarms, hle, hrefused⟩ := haccounts.ok rfl
    rw [hpassed, hrefused] at hreport
    rw [hcount Deed.completes rfl] at hreport hbegun hle hrefused
    rw [hcount Deed.begins rfl] at hbegun
    rw [hcount Deed.alarms rfl] at halarms
    rw [hrefusal] at hrefused
    have hquiet : ∀ first, .raised first ∉ history.of i := fun first hmem =>
      List.countP_eq_zero.1 halarms _ hmem rfl
    refine ⟨hbegun, _, hreport, ?_⟩
    by_cases hleft : (history.of i).countP Deed.completes < load.units.length
    · rw [decide_eq_true hleft] at hrefused ⊢
      exact .stopped hended hquiet (any_isRefusal.1 hrefused) hleft
    · rw [decide_eq_false hleft] at hrefused ⊢
      refine .completed hended hquiet (fun hmem => ?_) (by omega)
      rw [any_isRefusal.2 hmem] at hrefused
      cases hrefused

/-- Where no workload fails, nothing raises the flag. -/
theorem Course.not_failed (h : Course (.start now (loads.map Workload.branch)) history run)
    (hover : run.isOver = true) (hgood : ∀ i e, .ended (.error e) ∉ history.of i) :
    run.report.failed = false := by
  have htallies := h.tallies
  rw [← Bool.not_eq_true, htallies.failed_iff hover, not_or]
  constructor
  · rintro ⟨i, first, hmem⟩
    obtain ⟨load, hload⟩ := h.exists_load hmem
    obtain ⟨-, report, -, houtcome⟩ := h.outcome hover hload
    cases houtcome with
    | failed e hended => exact hgood i e hended
    | stopped _ hquiet | completed _ hquiet => exact hquiet first (History.mem_of.2 hmem)
  · rintro ⟨i, ending, hmem, hfails⟩
    obtain ⟨load, hload⟩ := h.exists_load hmem
    obtain ⟨-, report, -, houtcome⟩ := h.outcome hover hload
    cases houtcome with
    | failed e hended => exact hgood i e hended
    | stopped hended | completed hended =>
      rw [htallies.ending_unique hover hmem (History.mem_of.1 hended)] at hfails
      cases hfails

/-- **Workloads stop when told to.**  Once the flag is raised, no checkpoint lets a branch through.
A branch then begins at most with the one unit for which its checkpoint has let it through before;
on a single thread that unit is under way already, and no branch begins with any.  In the end each
branch has completed the units that it has begun, and is reported as stopped if a checkpoint
refused it one of its units, as completed if it has done them all.  Where no branch fails, each
has done them all, and the verdict is good. -/
theorem Course.heeds_abort (hfirst : Course (.start now (loads.map Workload.branch)) first mid)
    (hlater : Course mid later last) :
    (mid.flag.isAborted = true →
      (∀ i, .asked true ∉ later.of i) ∧
      (∀ i, i < loads.length →
        ((first ++ later).of i).countP Deed.begins ≤ (first.of i).countP Deed.isGoAhead ∧
        (later.of i).countP Deed.begins ≤ 1) ∧
      (TurnCourse (.start now (loads.map Workload.branch)) first mid →
        ∀ i duration, .worked duration ∉ later.of i)) ∧
    (last.isOver = true →
      (∀ i load, loads[i]? = some load →
        ((first ++ later).of i).countP Deed.begins =
          ((first ++ later).of i).countP Deed.completes ∧
        ∃ report, last.report.branches[i]? = some report ∧
          load.Outcome ((first ++ later).of i) report) ∧
      ((∀ i e, .ended (.error e) ∉ (first ++ later).of i) →
        last.report.failed = false ∧
        ∀ i load, loads[i]? = some load →
          ((first ++ later).of i).countP Deed.completes = load.units.length ∧
          last.report.branches[i]? = some
            { name := load.name, result := .completed, checkpoints := load.units.length })) := by
  have hwhole := hfirst.trans hlater
  have htallies := hwhole.tallies
  refine ⟨fun habort => ⟨?_, ?_, ?_⟩, fun hover => ⟨fun i load => hwhole.outcome hover, ?_⟩⟩
  · intro i hmem
    cases hlater.answer_of_aborted habort (History.mem_of.1 hmem)
  · intro i hi
    have hle := (hwhole.balanced hi).begun_le
    have hpassed := (hfirst.balanced hi).goAhead_le
    have hnone := hlater.countP_goAhead_of_aborted habort i
    simp only [History.of_append, List.countP_append] at hle ⊢
    omega
  · intro hturns i duration hmem
    have hi := htallies.lt_length (List.mem_append_right first (History.mem_of.1 hmem))
    rw [List.length_map] at hi
    obtain ⟨hnone, -⟩ := hfirst.rests_of_aborted hlater habort hi (hturns.settled habort hi)
    exact List.countP_eq_zero.1 hnone _ hmem rfl
  · intro hgood
    have hverdict := hwhole.not_failed hover hgood
    refine ⟨hverdict, fun i load hload => ?_⟩
    obtain ⟨-, report, hreport, houtcome⟩ := hwhole.outcome hover hload
    cases houtcome with
    | failed e hended => exact absurd hended (hgood i e)
    | stopped _ _ hrefused =>
      have habort := hwhole.aborted_of_refusal (History.mem_of.1 hrefused)
      exact absurd (hverdict.symm.trans habort) Bool.false_ne_true
    | completed _ _ _ hall =>
      rw [hall] at hreport
      exact ⟨hall, hreport⟩

end workloads

/-- Three units of work. -/
def writer : Workload := { name := "a", units := [(10, .null), (10, .null), (10, .null)] }

/-- Two units of work, of which the second one fails. -/
def checker : Workload :=
  { name := "b"
    units := [(15, .null), (15, .null)]
    failure := some (1, .invalid "b" "invalid record") }

/-- Both branches have been let through.  The second one raises the flag at its second unit before
the first one begins with any. -/
def overtaken : Option (History × Run) :=
  (Run.start 0 ([writer, checker].map Workload.branch)).follow?
    (List.replicate 2 (0, 0) ++ List.replicate 3 (1, 0) ++ List.replicate 4 (1, 15))

/-- The first branch begins with its unit all the same. -/
def caughtUp : Option (History × Run) :=
  overtaken.bind fun p => p.2.follow?
    (List.replicate 3 (1, 15) ++ (0, 15) :: List.replicate 5 (0, 25))

/-- Two units, each some time after its checkpoint.  It is noted when a unit begins. -/
def hesitant : Branch :=
  { name := "a"
    program := .ofScript (List.replicate 2
      [.check, .work 5, .write (.text "begun"), .work 5, .write (.text "done")]).flatten }

def spotter : Branch :=
  { name := "b"
    program := .ofScript [.check, .work 2, .write (.text "done"), .check, .abort,
      .fail (.invalid "b" "invalid record")] }

/-- When units have begun, by the notes. -/
def Run.beginnings (run : Run) : List Nat :=
  (run.notes.filter fun note => note.remark matches .write (.text "begun")).map Note.instant

/-- A unit may begin after the flag has been raised: on a thread of its own, and on a single thread
if the branch waits behind its checkpoint. -/
theorem Course.begins_after_alarm :
    (∃ first mid later last,
      Course (.start 0 ([writer, checker].map Workload.branch)) first mid ∧
      Course mid later last ∧ mid.flag.isAborted = true ∧ last.isOver = true ∧
      (later.of 0).countP Deed.begins = 1) ∧
    ∃ mid last, (Run.start 0 [hesitant, spotter]).stepsOn? 10 = some mid ∧
      mid.stepsOn? 10 = some last ∧ mid.flag.isAborted = true ∧ last.isOver = true ∧
      mid.now = 2 ∧ last.beginnings = [5] := by
  have hovertaken : (overtaken.map fun p => p.2.flag.isAborted) = some true := by decide +kernel
  have hcaughtUp : (caughtUp.map fun p => (p.2.isOver, (p.1.of 0).countP Deed.begins)) =
      some (true, 1) := by
    decide +kernel
  have hclock : ((Run.start 0 [hesitant, spotter]).stepsOn? 10).bind (fun mid =>
      (mid.stepsOn? 10).map fun last =>
        (mid.flag.isAborted, last.isOver, mid.now, last.beginnings)) =
      some (true, true, 2, [5]) := by
    decide +kernel
  constructor
  · obtain ⟨⟨first, mid⟩, hfirst, habort⟩ := Option.map_eq_some_iff.1 hovertaken
    obtain ⟨⟨later, last⟩, hlater, heq⟩ := Option.map_eq_some_iff.1 hcaughtUp
    obtain ⟨hover, hbegun⟩ := Prod.ext_iff.1 heq
    rw [caughtUp, hfirst] at hlater
    exact ⟨first, mid, later, last, course_of_follow? hfirst, course_of_follow? hlater, habort,
      hover, hbegun⟩
  · obtain ⟨mid, hmid, hrest⟩ := Option.bind_eq_some_iff.1 hclock
    obtain ⟨last, hlast, heq⟩ := Option.map_eq_some_iff.1 hrest
    simp only [Prod.mk.injEq] at heq
    exact ⟨mid, last, hmid, hlast, heq⟩

def settledReport : Report :=
  { failed := true
    branches :=
      [{ name := "a", result := .stopped, checkpoints := 2 },
        { name := "b"
          result := .failed "validation failed in b: invalid record"
          checkpoints := 2 }] }

/-- By the clock the second branch raises the flag while the first one is at its second unit.  The
first branch completes it and does not begin with the third one.  Two branches that do not fail do
all their units. -/
theorem Course.heeds_abort_alarmed :
    (∃ first mid later last,
      (Run.start 0 ([writer, checker].map Workload.branch)).stepsOn? 14 = some mid ∧
      TurnCourse (.start 0 ([writer, checker].map Workload.branch)) first mid ∧
      mid.stepsOn? 8 = some last ∧ Course mid later last ∧
      mid.flag.isAborted = true ∧ last.isOver = true ∧ last.report = settledReport ∧
      (∀ i, .asked true ∉ later.of i) ∧ (∀ i duration, .worked duration ∉ later.of i) ∧
      writer.Outcome ((first ++ later).of 0)
        { name := "a", result := .stopped, checkpoints := 2 }) ∧
    ∃ history last, (Run.start 0 ([writer, writer].map Workload.branch)).stepsOn? 28 = some last ∧
      Course (.start 0 ([writer, writer].map Workload.branch)) history last ∧
      last.isOver = true ∧ last.report.failed = false ∧
      (history.of 1).countP Deed.completes = 3 ∧
      last.report.branches[1]? = some { name := "a", result := .completed, checkpoints := 3 } := by
  have hclock : ((Run.start 0 ([writer, checker].map Workload.branch)).stepsOn? 14).bind (fun mid =>
      (mid.stepsOn? 8).map fun last => (mid.flag.isAborted, last.isOver, last.report)) =
      some (true, true, settledReport) := by
    decide +kernel
  have hquiet : ((Run.start 0 ([writer, writer].map Workload.branch)).stepsOn? 28).map Run.isOver =
      some true := by
    decide +kernel
  constructor
  · obtain ⟨mid, hmid, hrest⟩ := Option.bind_eq_some_iff.1 hclock
    obtain ⟨last, hlast, heq⟩ := Option.map_eq_some_iff.1 hrest
    simp only [Prod.mk.injEq] at heq
    obtain ⟨habort, hover, hreport⟩ := heq
    obtain ⟨first, hturns, hkept⟩ := turnCourse_of_stepsOn? hmid
    obtain ⟨later, hlater, -⟩ := hkept.stepsOn? hturns hlast
    obtain ⟨hflag, hend⟩ := Course.heeds_abort hturns.course hlater
    obtain ⟨hgoAhead, -, hidle⟩ := hflag habort
    obtain ⟨-, report, hfound, houtcome⟩ := (hend hover).1 0 writer rfl
    have hsame : report = { name := "a", result := .stopped, checkpoints := 2 } := by
      rw [hreport] at hfound
      exact (Option.some.inj hfound).symm
    rw [hsame] at houtcome
    exact ⟨first, mid, later, last, hmid, hturns, hlast, hlater, habort, hover, hreport, hgoAhead,
      hidle hturns, houtcome⟩
  · obtain ⟨last, hlast, hover⟩ := Option.map_eq_some_iff.1 hquiet
    obtain ⟨history, hturns, -⟩ := turnCourse_of_stepsOn? hlast
    obtain ⟨-, hend⟩ := Course.heeds_abort .start hturns.course
    obtain ⟨hverdict, hall⟩ :=
      (hend hover).2 (hturns.course.not_ended_error (by simp [writer]))
    obtain ⟨hcompletes, hreport⟩ := hall 1 writer rfl
    exact ⟨history, last, hlast, hturns.course, hover, hverdict, hcompletes, hreport⟩

end TaskRelay.Parallel
