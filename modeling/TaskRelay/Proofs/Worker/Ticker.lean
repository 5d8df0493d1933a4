import TaskRelay.Proofs.Worker.Turn

/-!
# Renewing in time

Ticks come at whole milliseconds, so the time from one tick to the next is a third of the time for
which a lease is held, rounded up at most (`due_after_le`).  A renewal that succeeds holds the lease
for the full time again, from the instant of the tick on (`Post.renew_true`).
-/

namespace TaskRelay

variable {σ : Type}

namespace Ticker

/-- The longest time from one tick to the next, in milliseconds. -/
def longestGap (ttl : Nat) : Nat :=
  (periodFor ttl + (nanosPerMilli - 1)) / nanosPerMilli

/-- Leases that are held for two milliseconds or more are renewed before they run out. -/
theorem longestGap_lt {ttl : Nat} (h : 2 ≤ ttl) : longestGap ttl < ttl := by
  simp only [longestGap, periodFor, nanosPerMilli]
  omega

theorem le_three_mul_longestGap (ttl : Nat) : ttl ≤ 3 * longestGap ttl := by
  simp only [longestGap, periodFor, nanosPerMilli]
  omega

theorem due_begin (now ttl : Nat) : (begin now ttl).due = now + longestGap ttl := by
  rw [due, begin, longestGap, Nat.one_mul]

theorem due_after_le {t : Ticker} {ttl : Nat} (h : t.period = periodFor ttl) (renewed : Bool) :
    (t.after renewed).due ≤ t.due + longestGap ttl := by
  simp only [due, after, longestGap, h, nanosPerMilli, Nat.add_mul, Nat.one_mul]
  generalize t.next * periodFor ttl = elapsed
  omega

theorem due_le_after (t : Ticker) (renewed : Bool) : t.due ≤ (t.after renewed).due := by
  simp only [due, after, nanosPerMilli, Nat.add_mul, Nat.one_mul]
  generalize t.next * t.period = elapsed
  omega

end Ticker

namespace Post

variable {p : Post} {s t : Site σ}

/-- Without faults a renewal succeeds exactly if the worker holds a live lease. -/
theorem renew_of_no_fault (hfault : s.faults .renew = 0) :
    p.renew s = ((s.leases.renew p.topic p.holder s.now).1,
      { s with leases := (s.leases.renew p.topic p.holder s.now).2 }) := by
  rw [renew, Site.renew, Site.call_eq_of_no_fault hfault]

/-- A renewal that succeeds has found a live lease and holds it for the full time again. -/
theorem renew_true (h : p.renew s = (true, t)) :
    s.leases.holder? p.topic s.now = some p.holder ∧ t.now = s.now ∧
      t.leases = s.leases.grant p.topic p.holder s.now := by
  rcases hcall : s.call .renew with ⟨_ | _, u⟩
  · obtain ⟨faults, hu, -⟩ := Site.call_eq s .renew
    rw [hcall] at hu
    cases hu
    rw [renew, Site.renew, hcall] at h
    cases hrenewed : (s.leases.renew p.topic p.holder s.now).1
    · simp [hrenewed] at h
    · have hholder := LeaseTable.renew_fst_iff.1 hrenewed
      simp only [LeaseTable.renew_of_holder hholder] at h
      cases h
      exact ⟨hholder, rfl, rfl⟩
  · rw [renew, Site.renew, hcall] at h
    cases h

theorem acquire_true (h : s.acquire p.topic p.holder = (.ok true, t)) :
    t.now = s.now ∧ t.leases = s.leases.grant p.topic p.holder s.now := by
  rcases hcall : s.call .acquire with ⟨_ | _, u⟩
  · obtain ⟨faults, hu, -⟩ := Site.call_eq s .acquire
    rw [hcall] at hu
    cases hu
    rw [Site.acquire, hcall] at h
    cases hgranted : (s.leases.acquire p.topic p.holder s.now).1
    · simp [hgranted] at h
    · simp only [LeaseTable.acquire_of_fst hgranted] at h
      cases h
      exact ⟨rfl, rfl⟩
  · rw [Site.acquire, hcall] at h
    cases h

end Post

end TaskRelay
