import TaskRelay.Parallel.Flag

/-!
# A flag and its checkpoints

Any number of checkpoints share one flag.  They are asked, and the flag is raised through one of them
or directly, in any order.  Every call is answered by whether the flag is still down, that is whether
no call before it has raised it (`getElem?_answers`).  So the first call that raises the flag, and no
other, is told that it did.  What a checkpoint has counted and seen is read off the calls before and
after that one (`passed_after`, `observedAbort_after`).
-/

namespace TaskRelay.Parallel

/-- A call on a flag or on one of the checkpoints that share it. -/
inductive Call (ι : Type) where
  | proceed (i : ι)
  /-- Raises the flag through a checkpoint. -/
  | abort (i : ι)
  /-- Raises the flag itself. -/
  | raise
deriving DecidableEq, Repr

def Call.isAbort {ι : Type} : Call ι → Bool
  | .proceed _ => false
  | .abort _ | .raise => true

/-- A flag with the checkpoints that share it. -/
structure Panel (ι : Type) where
  flag : Flag := .building
  checkpoints : ι → Checkpoint := fun _ => {}

namespace Panel

variable {ι : Type} [DecidableEq ι]

/-- The answer to a call, and how the panel stands after it. -/
def call (p : Panel ι) : Call ι → Bool × Panel ι
  | .proceed i =>
    let (answer, checkpoint) := (p.checkpoints i).proceed p.flag
    (answer, { p with checkpoints := fun j => if j = i then checkpoint else p.checkpoints j })
  | .abort _ | .raise =>
    let (first, flag) := p.flag.raise
    (first, { p with flag })

def after (p : Panel ι) (calls : List (Call ι)) : Panel ι :=
  calls.foldl (fun p c => (p.call c).2) p

def answers (p : Panel ι) : List (Call ι) → List Bool
  | [] => []
  | c :: calls => (p.call c).1 :: (p.call c).2.answers calls

@[simp] theorem after_nil (p : Panel ι) : p.after [] = p := rfl

@[simp] theorem after_cons (p : Panel ι) (c : Call ι) (calls : List (Call ι)) :
    p.after (c :: calls) = (p.call c).2.after calls := rfl

theorem after_append (p : Panel ι) (calls later : List (Call ι)) :
    p.after (calls ++ later) = (p.after calls).after later :=
  List.foldl_append

/-! ## One call -/

/-- Every call answers whether the flag is still down. -/
theorem call_fst (p : Panel ι) (c : Call ι) : (p.call c).1 = !p.flag.isAborted := by
  cases c with
  | proceed i =>
    unfold call Checkpoint.proceed
    cases p.flag <;> rfl
  | abort | raise => rfl

@[simp] theorem isAborted_call (p : Panel ι) (c : Call ι) :
    (p.call c).2.flag.isAborted = (p.flag.isAborted || c.isAbort) := by
  cases c with
  | proceed i => simp [call, Call.isAbort]
  | abort | raise => simp [call, Flag.raise, Flag.isAborted, Call.isAbort]

/-- A checkpoint counts how often it is asked while the flag is down. -/
theorem passed_call (p : Panel ι) (c : Call ι) (i : ι) :
    ((p.call c).2.checkpoints i).passed =
      (p.checkpoints i).passed + if c = .proceed i ∧ p.flag.isAborted = false then 1 else 0 := by
  cases c with
  | proceed j =>
    by_cases hij : i = j
    · subst hij
      cases h : p.flag <;> simp [call, Checkpoint.proceed, Flag.isAborted, h]
    · simp [call, hij, Ne.symm hij]
  | abort | raise => simp [call]

/-- A checkpoint sees that the flag is up when it is asked. -/
theorem observedAbort_call (p : Panel ι) (c : Call ι) (i : ι) :
    ((p.call c).2.checkpoints i).observedAbort = true ↔
      (p.checkpoints i).observedAbort = true ∨ c = .proceed i ∧ p.flag.isAborted = true := by
  cases c with
  | proceed j =>
    by_cases hij : i = j
    · subst hij
      cases h : p.flag <;> simp [call, Checkpoint.proceed, Flag.isAborted, h]
    · simp [call, hij, Ne.symm hij]
  | abort | raise => simp [call]

/-! ## Any sequence of calls -/

theorem isAborted_after (p : Panel ι) (calls : List (Call ι)) :
    (p.after calls).flag.isAborted = (p.flag.isAborted || calls.any Call.isAbort) := by
  induction calls generalizing p with
  | nil => simp
  | cons c calls ih => simp [ih, Bool.or_assoc]

theorem length_answers (p : Panel ι) (calls : List (Call ι)) :
    (p.answers calls).length = calls.length := by
  induction calls generalizing p with
  | nil => rfl
  | cons c calls ih => simp [answers, ih]

/-- A call is answered by whether the flag was down at first and no call before has raised it. -/
theorem getElem?_answers (p : Panel ι) (calls : List (Call ι)) (k : Nat) :
    (p.answers calls)[k]? =
      calls[k]?.map fun _ => !(p.flag.isAborted || (calls.take k).any Call.isAbort) := by
  induction calls generalizing p k with
  | nil => rfl
  | cons c calls ih =>
    cases k with
    | zero => simp [answers, call_fst]
    | succ k => simp [answers, ih, Bool.or_assoc]

variable {p : Panel ι}

theorem passed_after_of_isAborted (h : p.flag.isAborted = true) (calls : List (Call ι)) (i : ι) :
    ((p.after calls).checkpoints i).passed = (p.checkpoints i).passed := by
  induction calls generalizing p with
  | nil => rfl
  | cons c calls ih =>
    have hnext : (p.call c).2.flag.isAborted = true := by simp [h]
    rw [after_cons, ih hnext, passed_call]
    simp [h]

theorem passed_after (h : p.flag.isAborted = false) (calls : List (Call ι)) (i : ι) :
    ((p.after calls).checkpoints i).passed =
      (p.checkpoints i).passed + (calls.takeWhile (!·.isAbort)).count (.proceed i) := by
  induction calls generalizing p with
  | nil => simp
  | cons c calls ih =>
    rw [after_cons]
    cases hc : c.isAbort with
    | true =>
      have hnext : (p.call c).2.flag.isAborted = true := by simp [hc]
      have hne : c ≠ .proceed i := by
        rintro rfl
        cases hc
      rw [passed_after_of_isAborted hnext, passed_call]
      simp [hc, hne]
    | false =>
      have hnext : (p.call c).2.flag.isAborted = false := by simp [h, hc]
      rw [ih hnext, passed_call]
      rw [List.takeWhile_cons_of_pos (by simp [hc]), List.count_cons]
      by_cases heq : c = .proceed i
      · simp [h, heq]
        omega
      · simp [heq]

theorem observedAbort_after_of_isAborted (h : p.flag.isAborted = true) (calls : List (Call ι))
    (i : ι) :
    ((p.after calls).checkpoints i).observedAbort = true ↔
      (p.checkpoints i).observedAbort = true ∨ .proceed i ∈ calls := by
  induction calls generalizing p with
  | nil => simp
  | cons c calls ih =>
    have hnext : (p.call c).2.flag.isAborted = true := by simp [h]
    rw [after_cons, ih hnext, observedAbort_call, List.mem_cons, or_assoc, eq_comm (b := c)]
    simp [h]

theorem observedAbort_after (h : p.flag.isAborted = false) (calls : List (Call ι)) (i : ι) :
    ((p.after calls).checkpoints i).observedAbort = true ↔
      (p.checkpoints i).observedAbort = true ∨ .proceed i ∈ calls.dropWhile (!·.isAbort) := by
  induction calls generalizing p with
  | nil => simp
  | cons c calls ih =>
    rw [after_cons]
    cases hc : c.isAbort with
    | true =>
      have hnext : (p.call c).2.flag.isAborted = true := by simp [hc]
      have hne : .proceed i ≠ c := by
        rintro rfl
        cases hc
      rw [observedAbort_after_of_isAborted hnext, observedAbort_call]
      simp [h, hc, hne]
    | false =>
      have hnext : (p.call c).2.flag.isAborted = false := by simp [h, hc]
      rw [ih hnext, observedAbort_call]
      simp [h, hc]

/-! ## From a fresh panel -/

def fresh : Panel ι := {}

theorem isAborted_after_fresh (calls : List (Call ι)) :
    (fresh.after calls).flag.isAborted = calls.any Call.isAbort := by
  rw [isAborted_after]
  rfl

theorem answer_eq_true_iff {calls : List (Call ι)} {k : Nat} {c : Call ι} (hc : calls[k]? = some c) :
    (fresh.answers calls)[k]? = some true ↔ ∀ d ∈ calls.take k, d.isAbort = false := by
  rw [getElem?_answers, hc]
  simp [fresh, Flag.isAborted]

/-- A call that raises the flag is told that it was the first to do so if it was. -/
theorem answer_abort_iff {calls : List (Call ι)} {k : Nat} {c : Call ι} (hc : calls[k]? = some c)
    (habort : c.isAbort = true) :
    (fresh.answers calls)[k]? = some true ↔ calls.findIdx? Call.isAbort = some k := by
  obtain ⟨hk, rfl⟩ := List.getElem?_eq_some_iff.1 hc
  rw [answer_eq_true_iff hc, List.findIdx?_eq_some_iff_getElem]
  constructor
  · intro hnone
    refine ⟨hk, habort, fun j hj => ?_⟩
    have hmem : calls[j] ∈ calls.take k := List.mem_take_iff_getElem.2 ⟨j, by omega, rfl⟩
    simp [hnone _ hmem]
  · rintro ⟨_, -, hfirst⟩ d hd
    obtain ⟨j, hj, rfl⟩ := List.mem_take_iff_getElem.1 hd
    simpa using hfirst j (by omega)

/-- **The flag goes up once and for all.**  However the calls on a fresh panel come, each is answered.
The first one that raises the flag is told so, and no other.  A checkpoint lets through as long as no
call has raised the flag; it counts how often it does, and its count stays as it is from then on.  It
has observed the abort if it has been asked after it.  The flag never comes down again. -/
theorem aborts_once (calls later : List (Call ι)) :
    (fresh.answers calls).length = calls.length ∧
    (∀ k c, calls[k]? = some c → Call.isAbort c = true →
      ((fresh.answers calls)[k]? = some true ↔ calls.findIdx? Call.isAbort = some k)) ∧
    (∀ k i, calls[k]? = some (.proceed i) →
      ((fresh.answers calls)[k]? = some true ↔ ∀ c ∈ calls.take k, Call.isAbort c = false)) ∧
    (∀ i, ((fresh.after calls).checkpoints i).passed =
      (calls.takeWhile (!·.isAbort)).count (.proceed i)) ∧
    (∀ i, ((fresh.after calls).checkpoints i).observedAbort = true ↔
      .proceed i ∈ calls.dropWhile (!·.isAbort)) ∧
    ((fresh.after calls).flag.isAborted = true ↔ ∃ c ∈ calls, Call.isAbort c = true) ∧
    ((fresh.after calls).flag.isAborted = true →
      (fresh.after (calls ++ later)).flag.isAborted = true ∧
      ∀ i, ((fresh.after (calls ++ later)).checkpoints i).passed =
        ((fresh.after calls).checkpoints i).passed) := by
  refine ⟨length_answers fresh calls, fun k c => answer_abort_iff, fun k i => answer_eq_true_iff,
    ?_, ?_, ?_, ?_⟩
  · intro i
    rw [passed_after rfl]
    exact Nat.zero_add _
  · intro i
    rw [observedAbort_after rfl]
    simp [fresh]
  · rw [isAborted_after_fresh, List.any_eq_true]
  · intro habort
    rw [after_append]
    refine ⟨?_, passed_after_of_isAborted habort later⟩
    rw [isAborted_after, habort, Bool.true_or]

example : fresh.answers [.proceed 0, .abort 1, .proceed 1, .raise, .proceed 0] =
    [true, true, false, false, false] := rfl

end Panel

end TaskRelay.Parallel
