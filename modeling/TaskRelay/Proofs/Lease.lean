import TaskRelay.Lease

/-!
# A live lease keeps others out

A lease that is held until some instant is untouched, up to that instant, by whatever anybody else
does about leases, and by whatever is done about other queues (`Calls.get?_eq`).  Until then nobody
else acquires the queue (`acquire_fst_eq_false_iff`), and a renewal by the holder succeeds and
holds it for the full time again.
-/

namespace TaskRelay.LeaseTable

/-! ## Looking up -/

theorem get?_erase_self (t : LeaseTable) (queue : String) : (t.erase queue).get? queue = none := by
  rw [get?, List.lookup_eq_none_iff]
  intro e he
  have hne := (List.mem_filter.1 he).2
  rw [bne_iff_ne] at hne
  exact bne_iff_ne.2 hne.symm

theorem get?_erase_of_ne (t : LeaseTable) {queue other : String} (h : other ≠ queue) :
    (t.erase queue).get? other = t.get? other := by
  obtain ⟨ttl, leases⟩ := t
  rw [get?, get?, erase]
  induction leases with
  | nil => rfl
  | cons e leases ih =>
    obtain ⟨q, lease⟩ := e
    by_cases hq : q = queue
    · subst hq
      rw [List.filter_cons_of_neg (by simp), ih, List.lookup_cons, beq_eq_false_iff_ne.2 h]
    · rw [List.filter_cons_of_pos (by simpa using hq), List.lookup_cons, List.lookup_cons, ih]

theorem get?_insert_self (t : LeaseTable) (queue : String) (lease : Lease) :
    (t.insert queue lease).get? queue = some lease := by
  rw [get?, insert, List.lookup_cons_self]

theorem get?_insert_of_ne (t : LeaseTable) {queue other : String} (h : other ≠ queue)
    (lease : Lease) : (t.insert queue lease).get? other = t.get? other := by
  rw [← get?_erase_of_ne t h, get?, insert, List.lookup_cons, beq_eq_false_iff_ne.2 h]
  rfl

theorem get?_grant_self (t : LeaseTable) (queue holder : String) (now : Nat) :
    (t.grant queue holder now).get? queue = some ⟨holder, now + t.ttl⟩ :=
  get?_insert_self t queue _

theorem get?_grant_of_ne (t : LeaseTable) {queue other : String} (h : other ≠ queue)
    (holder : String) (now : Nat) : (t.grant queue holder now).get? other = t.get? other :=
  get?_insert_of_ne t h _

theorem live?_eq_some_iff {t : LeaseTable} {queue : String} {now : Nat} {lease : Lease} :
    t.live? queue now = some lease ↔ t.get? queue = some lease ∧ now < lease.expires := by
  rw [live?, Option.filter_eq_some_iff, decide_eq_true_iff]

theorem holder?_eq_some_iff {t : LeaseTable} {queue holder : String} {now : Nat} :
    t.holder? queue now = some holder ↔
      ∃ expires, t.get? queue = some ⟨holder, expires⟩ ∧ now < expires := by
  rw [holder?, Option.map_eq_some_iff]
  constructor
  · rintro ⟨⟨h, expires⟩, hlive, rfl⟩
    exact ⟨expires, live?_eq_some_iff.1 hlive⟩
  · rintro ⟨expires, hlive⟩
    exact ⟨⟨holder, expires⟩, live?_eq_some_iff.2 hlive, rfl⟩

/-! ## Single calls -/

/-- An acquire fails exactly where somebody else has a live lease. -/
theorem acquire_fst_eq_false_iff {t : LeaseTable} {queue holder : String} {now : Nat} :
    (t.acquire queue holder now).1 = false ↔
      ∃ other, other ≠ holder ∧ t.holder? queue now = some other := by
  rw [acquire, holder?]
  cases t.live? queue now with
  | none => simp
  | some lease => by_cases h : lease.holder = holder <;> simp [h]

/-- An acquire that succeeds grants the queue, and one that fails changes nothing. -/
theorem acquire_snd (t : LeaseTable) (queue holder : String) (now : Nat) :
    (t.acquire queue holder now).2 =
      if (t.acquire queue holder now).1 then t.grant queue holder now else t := by
  rw [acquire]
  split
  · split <;> rfl
  · rfl

theorem acquire_of_fst {t : LeaseTable} {queue holder : String} {now : Nat}
    (h : (t.acquire queue holder now).1 = true) :
    t.acquire queue holder now = (true, t.grant queue holder now) := by
  have hsnd := acquire_snd t queue holder now
  rw [h, if_pos rfl] at hsnd
  exact Prod.ext h hsnd

theorem renew_fst_iff {t : LeaseTable} {queue holder : String} {now : Nat} :
    (t.renew queue holder now).1 = true ↔ t.holder? queue now = some holder := by
  rw [renew]
  split
  · next h => exact ⟨fun _ => h, fun _ => rfl⟩
  · next h => exact ⟨nofun, fun hholder => absurd hholder h⟩

theorem renew_of_holder {t : LeaseTable} {queue holder : String} {now : Nat}
    (h : t.holder? queue now = some holder) :
    t.renew queue holder now = (true, t.grant queue holder now) := by
  rw [renew, if_pos h]

theorem renew_of_not_holder {t : LeaseTable} {queue holder : String} {now : Nat}
    (h : t.holder? queue now ≠ some holder) : t.renew queue holder now = (false, t) := by
  rw [renew, if_neg h]

/-! ## What one holder does at an instant -/

/-- The tables that calls of one holder about one queue lead to at an instant. -/
inductive Calls (queue holder : String) (now : Nat) (t : LeaseTable) : LeaseTable → Prop
  | none : Calls queue holder now t t
  | acquire {u : LeaseTable} (h : Calls queue holder now t u) :
      Calls queue holder now t (u.acquire queue holder now).2
  | renew {u : LeaseTable} (h : Calls queue holder now t u) :
      Calls queue holder now t (u.renew queue holder now).2
  | release {u : LeaseTable} (h : Calls queue holder now t u) :
      Calls queue holder now t (u.release queue holder)

namespace Calls

variable {queue holder : String} {now : Nat} {t u : LeaseTable}

theorem trans {v : LeaseTable} (h₁ : Calls queue holder now t u)
    (h₂ : Calls queue holder now u v) : Calls queue holder now t v := by
  induction h₂ with
  | none => exact h₁
  | acquire _ ih => exact .acquire ih
  | renew _ ih => exact .renew ih
  | release _ ih => exact .release ih

/-- The time for which leases are held is never changed. -/
theorem ttl_eq (h : Calls queue holder now t u) : u.ttl = t.ttl := by
  induction h with
  | none => rfl
  | acquire _ ih =>
    rw [acquire_snd]
    split
    · exact ih
    · exact ih
  | @renew v _ ih =>
    by_cases hv : v.holder? queue now = some holder
    · rw [renew_of_holder hv]; exact ih
    · rw [renew_of_not_holder hv]; exact ih
  | release _ ih =>
    rw [LeaseTable.release]
    split
    · exact ih
    · exact ih

theorem get?_of_queue_ne (h : Calls queue holder now t u) {other : String} (hne : other ≠ queue) :
    u.get? other = t.get? other := by
  induction h with
  | none => rfl
  | acquire _ ih =>
    rw [acquire_snd]
    split
    · rw [get?_grant_of_ne _ hne, ih]
    · exact ih
  | @renew v _ ih =>
    by_cases hv : v.holder? queue now = some holder
    · rw [renew_of_holder hv, get?_grant_of_ne _ hne, ih]
    · rw [renew_of_not_holder hv]; exact ih
  | release _ ih =>
    rw [LeaseTable.release]
    split
    · rw [get?_erase_of_ne _ hne, ih]
    · exact ih

theorem get?_of_holder_ne (h : Calls queue holder now t u) {lease : Lease}
    (hlease : t.get? queue = some lease) (hne : lease.holder ≠ holder)
    (hlive : now < lease.expires) : u.get? queue = some lease := by
  induction h with
  | none => exact hlease
  | @acquire v _ ih =>
    have hholder : v.holder? queue now = some lease.holder :=
      holder?_eq_some_iff.2 ⟨lease.expires, ih, hlive⟩
    rw [acquire_snd, acquire_fst_eq_false_iff.2 ⟨_, hne, hholder⟩, if_neg (by decide)]
    exact ih
  | @renew v _ ih =>
    have hholder : v.holder? queue now = some lease.holder :=
      holder?_eq_some_iff.2 ⟨lease.expires, ih, hlive⟩
    rw [renew_of_not_holder (by rw [hholder]; simpa using hne)]
    exact ih
  | release _ ih =>
    rw [LeaseTable.release, ih, if_neg (by simpa using hne)]
    exact ih

/-- **A live lease is untouched** by what others do, and by what is done about other queues. -/
theorem get?_eq (h : Calls queue holder now t u) {other : String} {lease : Lease}
    (hlease : t.get? other = some lease) (hlive : now < lease.expires)
    (hne : other = queue → lease.holder ≠ holder) : u.get? other = some lease := by
  by_cases hqueue : other = queue
  · subst hqueue
    exact h.get?_of_holder_ne hlease (hne rfl) hlive
  · rw [h.get?_of_queue_ne hqueue]
    exact hlease

/-- Calls of others do not bring a lease about. -/
theorem get?_of_get?_eq (h : Calls queue holder now t u) {other : String} {lease : Lease}
    (hlease : u.get? other = some lease) (hne : other = queue → lease.holder ≠ holder) :
    t.get? other = some lease := by
  have hgrant : ∀ v : LeaseTable, (v.grant queue holder now).get? other = some lease →
      v.get? other = some lease := by
    intro v hv
    by_cases hqueue : other = queue
    · subst hqueue
      rw [get?_grant_self] at hv
      cases hv
      exact absurd rfl (hne rfl)
    · rwa [get?_grant_of_ne v hqueue] at hv
  induction h with
  | none => exact hlease
  | @acquire v _ ih =>
    rw [acquire_snd] at hlease
    split at hlease
    · exact ih (hgrant v hlease)
    · exact ih hlease
  | @renew v _ ih =>
    by_cases hv : v.holder? queue now = some holder
    · rw [renew_of_holder hv] at hlease
      exact ih (hgrant v hlease)
    · rw [renew_of_not_holder hv] at hlease
      exact ih hlease
  | @release v _ ih =>
    rw [LeaseTable.release] at hlease
    split at hlease
    · by_cases hqueue : other = queue
      · subst hqueue
        rw [get?_erase_self] at hlease
        cases hlease
      · rw [get?_erase_of_ne v hqueue] at hlease
        exact ih hlease
    · exact ih hlease

end Calls

/-! ## A lost lease -/

variable {t : LeaseTable} {queue holder : String} {now : Nat}

/-- A renewal does not bring a lost lease back. -/
theorem holder?_of_holder?_renew
    (h : (t.renew queue holder now).2.holder? queue now = some holder) :
    t.holder? queue now = some holder := by
  by_cases ht : t.holder? queue now = some holder
  · exact ht
  · rwa [renew_of_not_holder ht] at h

theorem holder?_of_holder?_release
    (h : (t.release queue holder).holder? queue now = some holder) :
    t.holder? queue now = some holder := by
  rw [release] at h
  split at h
  · obtain ⟨expires, hget, -⟩ := holder?_eq_some_iff.1 h
    rw [get?_erase_self] at hget
    cases hget
  · exact h

/-- Nobody else can acquire a queue exactly as long as its holder has a live lease. -/
theorem forall_acquire_eq_false_iff :
    (∀ other, other ≠ holder → (t.acquire queue other now).1 = false) ↔
      t.holder? queue now = some holder := by
  constructor
  · intro h
    have hlonger : holder ++ "." ≠ holder := by
      intro heq
      have hlength := congrArg String.length heq
      simp at hlength
    obtain ⟨first, -, hfirst⟩ := acquire_fst_eq_false_iff.1 (h _ hlonger)
    by_cases hholder : first = holder
    · rw [hfirst, hholder]
    · obtain ⟨second, hne, hsecond⟩ := acquire_fst_eq_false_iff.1 (h first hholder)
      rw [hfirst] at hsecond
      exact absurd (Option.some.inj hsecond).symm hne
  · intro h other hother
    exact acquire_fst_eq_false_iff.2 ⟨holder, hother.symm, h⟩

end TaskRelay.LeaseTable
