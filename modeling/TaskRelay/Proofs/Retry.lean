import TaskRelay.Retry

/-!
# How often a task is put back

The loop counter rises by one each time a task is put back, until it is the largest number there is
(`toNat_succCounter_eq`).  So a task whose step is never done is put back as long as its counter can
rise without passing the limit of the policy (`putsBack_iff`), and then it is given up.  The largest
limit there is can never be passed: under that policy no task is given up at all
(`forall_exists_putsBack_iff`).
-/

namespace TaskRelay.RetryPolicy

variable {p : RetryPolicy} {loopCounter next last : UInt32} {delay n : Nat}

/-! ## Loop counters -/

theorem toNat_succCounter_eq (loopCounter : UInt32) :
    (succCounter loopCounter).toNat = min (loopCounter.toNat + 1) 4294967295 := by
  rw [succCounter]
  split
  · next hmax =>
    subst hmax
    rfl
  · next hmax =>
    have hne : loopCounter.toNat ≠ 4294967295 := fun heq => hmax (UInt32.toNat_inj.1 heq)
    have hlt := loopCounter.toNat_lt
    rw [UInt32.toNat_add, UInt32.toNat_one]
    omega

theorem toNat_succCounter (h : loopCounter.toNat < 4294967295) :
    (succCounter loopCounter).toNat = loopCounter.toNat + 1 := by
  rw [toNat_succCounter_eq]
  omega

theorem isExhausted_succCounter_iff :
    p.isExhausted (succCounter loopCounter) = true ↔
      p.maxRetries.toNat < min (loopCounter.toNat + 1) 4294967295 := by
  rw [isExhausted, decide_eq_true_eq, UInt32.lt_iff_toNat_lt, toNat_succCounter_eq]

/-- A task may be put back while its loop counter is below the number of retries. -/
theorem isExhausted_succCounter_eq_false_iff (h : p.maxRetries.toNat < 4294967295) :
    p.isExhausted (succCounter loopCounter) = false ↔ loopCounter.toNat < p.maxRetries.toNat := by
  rw [← Bool.not_eq_true, isExhausted_succCounter_iff]
  omega

/-! ## Verdicts -/

theorem decide_reschedule_of_exhausted (h : p.isExhausted (succCounter loopCounter) = true) :
    p.decide .reschedule loopCounter = .timedOut (succCounter loopCounter) := by
  simp only [decide, h, if_true]

theorem decide_reschedule_of_not_exhausted (h : p.isExhausted (succCounter loopCounter) = false) :
    p.decide .reschedule loopCounter = .retry (succCounter loopCounter) p.delay := by
  simp only [decide, h]
  rfl

theorem decide_reschedule_eq_retry_iff :
    p.decide .reschedule loopCounter = .retry next delay ↔
      p.isExhausted (succCounter loopCounter) = false ∧ next = succCounter loopCounter ∧
        delay = p.delay := by
  cases hexhausted : p.isExhausted (succCounter loopCounter) with
  | true => simp [decide_reschedule_of_exhausted hexhausted]
  | false => simp [decide_reschedule_of_not_exhausted hexhausted, eq_comm]

theorem decide_reschedule_eq_timedOut_iff :
    p.decide .reschedule loopCounter = .timedOut last ↔
      p.isExhausted (succCounter loopCounter) = true ∧ last = succCounter loopCounter := by
  cases hexhausted : p.isExhausted (succCounter loopCounter) with
  | true => simp [decide_reschedule_of_exhausted hexhausted, eq_comm]
  | false => simp [decide_reschedule_of_not_exhausted hexhausted]

/-! ## A step that is never done -/

/-- If the step of a task always asks to see it again, the task is put back `n` times, and its loop
counter goes from the first of the two numbers to the second. -/
inductive PutsBack (p : RetryPolicy) : Nat → UInt32 → UInt32 → Prop where
  | zero (loopCounter : UInt32) : PutsBack p 0 loopCounter loopCounter
  | succ {n : Nat} {loopCounter next last : UInt32} {delay : Nat}
      (hretry : p.decide .reschedule loopCounter = .retry next delay)
      (hlater : PutsBack p n next last) : PutsBack p (n + 1) loopCounter last

/-- If the step of a task always asks to see it again, the task is put back `n` times and then no
more. -/
def GivesUpAfter (p : RetryPolicy) (n : Nat) (loopCounter : UInt32) : Prop :=
  ∃ last final, p.PutsBack n loopCounter last ∧ p.decide .reschedule last = .timedOut final

theorem putsBack_zero_iff : p.PutsBack 0 loopCounter last ↔ last = loopCounter := by
  constructor
  · rintro ⟨⟩
    rfl
  · rintro rfl
    exact .zero _

theorem putsBack_succ_iff :
    p.PutsBack (n + 1) loopCounter last ↔
      p.isExhausted (succCounter loopCounter) = false ∧
        p.PutsBack n (succCounter loopCounter) last := by
  constructor
  · intro h
    cases h with
    | succ hretry hlater =>
      obtain ⟨hexhausted, rfl, -⟩ := decide_reschedule_eq_retry_iff.1 hretry
      exact ⟨hexhausted, hlater⟩
  · rintro ⟨hexhausted, hlater⟩
    exact .succ (decide_reschedule_of_not_exhausted hexhausted) hlater

/-- A task is put back `n` times if the counter that it has after that is within the limit. -/
theorem putsBack_iff :
    p.PutsBack n loopCounter last ↔
      last.toNat = min (loopCounter.toNat + n) 4294967295 ∧
        (n = 0 ∨ last.toNat ≤ p.maxRetries.toNat) := by
  induction n generalizing loopCounter with
  | zero =>
    have hlt := loopCounter.toNat_lt
    rw [putsBack_zero_iff, ← UInt32.toNat_inj]
    omega
  | succ n ih =>
    -- the last counter is not below the next one, so within the limit it keeps that one within it
    rw [putsBack_succ_iff, ih, ← Bool.not_eq_true, isExhausted_succCounter_iff,
      toNat_succCounter_eq]
    omega

theorem exists_putsBack_iff :
    (∃ last, p.PutsBack n loopCounter last) ↔
      n = 0 ∨ min (loopCounter.toNat + n) 4294967295 ≤ p.maxRetries.toNat := by
  simp only [putsBack_iff]
  constructor
  · rintro ⟨last, hlast, hlimit⟩
    omega
  · intro hlimit
    have hlast : (UInt32.ofNat (min (loopCounter.toNat + n) 4294967295)).toNat =
        min (loopCounter.toNat + n) 4294967295 :=
      UInt32.toNat_ofNat_of_lt' (by show _ < 4294967296; omega)
    exact ⟨_, hlast, by omega⟩

/-- A task is given up after as many times as its counter is below the limit, unless the limit is the
largest number there is. -/
theorem givesUpAfter_iff :
    p.GivesUpAfter n loopCounter ↔
      p.maxRetries ≠ 4294967295 ∧ n = p.maxRetries.toNat - loopCounter.toNat := by
  have hmax : p.maxRetries = 4294967295 ↔ p.maxRetries.toNat = 4294967295 := by
    rw [← UInt32.toNat_inj]
    rfl
  have hcounter := loopCounter.toNat_lt
  have hretries := p.maxRetries.toNat_lt
  rw [Ne, hmax]
  constructor
  · rintro ⟨last, final, hback, hfinal⟩
    obtain ⟨hlast, hlimit⟩ := putsBack_iff.1 hback
    have hexhausted := isExhausted_succCounter_iff.1 (decide_reschedule_eq_timedOut_iff.1 hfinal).1
    omega
  · rintro ⟨hne, hn⟩
    have hwithin : n = 0 ∨ min (loopCounter.toNat + n) 4294967295 ≤ p.maxRetries.toNat := by omega
    obtain ⟨last, hback⟩ := exists_putsBack_iff.2 hwithin
    obtain ⟨hlast, hlimit⟩ := putsBack_iff.1 hback
    have hexhausted : p.isExhausted (succCounter last) = true :=
      isExhausted_succCounter_iff.2 (by omega)
    exact ⟨last, _, hback, decide_reschedule_of_exhausted hexhausted⟩

theorem forall_exists_putsBack_iff :
    (∀ n, ∃ last, p.PutsBack n loopCounter last) ↔ p.maxRetries = 4294967295 := by
  have hretries := p.maxRetries.toNat_lt
  simp only [exists_putsBack_iff, ← UInt32.toNat_inj]
  constructor
  · intro h
    have hlimit := h 4294967295
    show p.maxRetries.toNat = 4294967295
    omega
  · intro heq n
    have heq : p.maxRetries.toNat = 4294967295 := heq
    omega

/-- **Which policies put a task back a bounded number of times.**  Whatever its loop counter is, a
task whose step is never done is given up if and only if the limit is not the largest number there
is, and then after as many times as the counter is below the limit.  With the largest number as its
limit a policy puts every such task back for ever. -/
theorem retries_bounded_iff (p : RetryPolicy) (loopCounter : UInt32) :
    (∀ n, p.GivesUpAfter n loopCounter ↔
      p.maxRetries ≠ 4294967295 ∧ n = p.maxRetries.toNat - loopCounter.toNat) ∧
    ((∀ n, ∃ last, p.PutsBack n loopCounter last) ↔ p.maxRetries = 4294967295) :=
  ⟨fun _ => givesUpAfter_iff, forall_exists_putsBack_iff⟩

/-- A task that has been put back as often as can be counted is put back once more, and never given
up. -/
theorem not_givesUpAfter_largest :
    let p : RetryPolicy := { maxRetries := 4294967295, delay := 0 }
    p.decide .reschedule 4294967295 = .retry 4294967295 0 ∧
      ¬ p.GivesUpAfter (p.maxRetries.toNat - (4294967295 : UInt32).toNat) 4294967295 ∧
      ¬ ∃ n, p.GivesUpAfter n 4294967295 := by
  intro p
  have hnever : ¬ ∃ n, p.GivesUpAfter n 4294967295 := by
    rintro ⟨n, hn⟩
    exact (givesUpAfter_iff.1 hn).1 rfl
  exact ⟨rfl, fun h => hnever ⟨_, h⟩, hnever⟩

end TaskRelay.RetryPolicy
