import TaskRelay.Proofs.Lease
import TaskRelay.Scenario

/-!
# Who is granted a lease, and for how long

Any number of holders call for the leases of any queues, one call after the other.
`LeaseTable.history` lists the calls of such a history, each with whether it was granted the lease.

A lease that has been granted is `live` until its time is over, and as long as it is, a call either
leaves it alone or is its holder's own (`live_answer`).  After that it is `Lapsed`, and only an
acquire brings it back (`Lapsed.answer`).  `history_exclusive` puts the two together for calls that
are any number of other calls apart.
-/

namespace TaskRelay.LeaseTable

/-! ## Histories -/

/-- A call about the lease of a queue. -/
structure Request where
  instant : Nat
  call : LeaseCall
  queue : String
  holder : String
deriving DecidableEq

namespace Request

/-- Whether the lease is granted, and the table after the call; giving a lease back grants
nothing. -/
def answer (r : Request) (t : LeaseTable) : Bool × LeaseTable :=
  match r.call with
  | .acquire => t.acquire r.queue r.holder r.instant
  | .renew => t.renew r.queue r.holder r.instant
  | .release => (false, t.release r.queue r.holder)

/-- Whether two calls are about the same queue and under the same name. -/
def IsLike (r other : Request) : Prop :=
  r.queue = other.queue ∧ r.holder = other.holder

end Request

/-- The table after some calls. -/
def after (t : LeaseTable) (requests : List Request) : LeaseTable :=
  requests.foldl (fun t r => (r.answer t).2) t

/-- The calls, each with whether it is granted the lease. -/
def history (t : LeaseTable) : List Request → List (Request × Bool)
  | [] => []
  | r :: requests => (r, (r.answer t).1) :: (r.answer t).2.history requests

theorem history_eq_append {t : LeaseTable} {first last : List (Request × Bool)} :
    ∀ {requests : List Request}, t.history requests = first ++ last →
      ∃ early late, requests = early ++ late ∧ t.history early = first ∧
        (t.after early).history late = last := by
  induction first generalizing t with
  | nil => exact fun {requests} h => ⟨[], requests, rfl, rfl, h⟩
  | cons e first ih =>
    intro requests h
    cases requests with
    | nil => cases h
    | cons r requests =>
      obtain ⟨rfl, hrest⟩ := List.cons.inj h
      obtain ⟨early, late, rfl, hfirst, hlast⟩ := ih hrest
      exact ⟨r :: early, late, rfl, by rw [history, hfirst], hlast⟩

theorem history_eq_cons {t : LeaseTable} {requests : List Request} {r : Request} {granted : Bool}
    {last : List (Request × Bool)} (h : t.history requests = (r, granted) :: last) :
    ∃ late, requests = r :: late ∧ (r.answer t).1 = granted ∧
      (r.answer t).2.history late = last := by
  cases requests with
  | nil => cases h
  | cons r' requests =>
    obtain ⟨hentry, hlast⟩ := List.cons.inj h
    obtain ⟨rfl, hgranted⟩ := Prod.mk.inj hentry
    exact ⟨requests, rfl, hgranted, hlast⟩

theorem map_fst_history (t : LeaseTable) (requests : List Request) :
    (t.history requests).map Prod.fst = requests := by
  induction requests generalizing t with
  | nil => rfl
  | cons r requests ih => exact congrArg (r :: ·) (ih _)

theorem exists_mem_history {t : LeaseTable} {requests : List Request} {r : Request}
    (h : r ∈ requests) : ∃ granted, (r, granted) ∈ t.history requests := by
  rw [← map_fst_history t requests] at h
  obtain ⟨e, he, rfl⟩ := List.mem_map.1 h
  exact ⟨e.2, he⟩

/-! ## Single calls -/

variable {t : LeaseTable} {r : Request} {queue holder : String} {lease : Lease} {expiry : Nat}

theorem calls_answer (r : Request) (t : LeaseTable) :
    Calls r.queue r.holder r.instant t (r.answer t).2 := by
  unfold Request.answer
  split
  · exact .acquire .none
  · exact .renew .none
  · exact .release .none

theorem ttl_after (t : LeaseTable) (requests : List Request) : (t.after requests).ttl = t.ttl := by
  induction requests generalizing t with
  | nil => rfl
  | cons r requests ih => exact (ih _).trans (calls_answer r t).ttl_eq

/-- A lease that is granted is held from then on for the full time. -/
theorem get?_of_granted (h : (r.answer t).1 = true) :
    (r.answer t).2.get? r.queue = some ⟨r.holder, r.instant + t.ttl⟩ := by
  unfold Request.answer at h ⊢
  split at h
  · rw [acquire_of_fst h]
    exact get?_grant_self t r.queue r.holder r.instant
  · rw [renew_of_holder (renew_fst_iff.1 h)]
    exact get?_grant_self t r.queue r.holder r.instant
  · cases h

/-- While a lease is live, its queue is granted to nobody but its holder. -/
theorem not_granted_of_live (hlease : t.get? r.queue = some lease)
    (hlive : r.instant < lease.expires) (hholder : r.holder ≠ lease.holder) :
    (r.answer t).1 = false := by
  have hlives : t.holder? r.queue r.instant = some lease.holder :=
    holder?_eq_some_iff.2 ⟨lease.expires, hlease, hlive⟩
  unfold Request.answer
  split
  · exact acquire_fst_eq_false_iff.2 ⟨lease.holder, hholder.symm, hlives⟩
  · rw [renew_of_not_holder]
    rw [hlives]
    intro h
    exact hholder (Option.some.inj h).symm
  · rfl

/-- A live lease is left alone by every call but those of its holder about its queue, who gives it
back or is granted it anew. -/
theorem live_answer (hlease : t.get? queue = some lease) (hlive : r.instant < lease.expires) :
    (r.answer t).2.get? queue = some lease ∨
      (r.queue = queue ∧ r.holder = lease.holder) ∧ (r.call = .release ∨ (r.answer t).1 = true) := by
  by_cases hown : r.queue = queue ∧ r.holder = lease.holder
  · obtain ⟨rfl, hholder⟩ := hown
    have hlives : t.holder? r.queue r.instant = some r.holder :=
      holder?_eq_some_iff.2 ⟨lease.expires, by rw [hholder]; exact hlease, hlive⟩
    refine .inr ⟨⟨rfl, hholder⟩, ?_⟩
    unfold Request.answer
    split
    · right
      cases hfst : (t.acquire r.queue r.holder r.instant).1 with
      | true => rfl
      | false =>
        obtain ⟨other, hne, hother⟩ := acquire_fst_eq_false_iff.1 hfst
        rw [hlives] at hother
        exact absurd (Option.some.inj hother).symm hne
    · exact .inr (renew_fst_iff.2 hlives)
    · next hcall => exact .inl hcall
  · refine .inl ((calls_answer r t).get?_eq hlease hlive fun hqueue hholder => ?_)
    exact hown ⟨hqueue.symm, hholder.symm⟩

/-- Somebody's lease of a queue is void from an instant on, if there is one at all. -/
def Lapsed (t : LeaseTable) (queue holder : String) (expiry : Nat) : Prop :=
  ∀ expires, t.get? queue = some ⟨holder, expires⟩ → expires ≤ expiry

theorem lapsed_of_get? (h : t.get? queue = some ⟨holder, expiry⟩) (other : String) :
    t.Lapsed queue other expiry := by
  intro expires hexpires
  rw [h] at hexpires
  cases hexpires
  exact Nat.le_refl expiry

namespace Lapsed

/-- A void lease is not renewed. -/
theorem renew (h : t.Lapsed queue holder expiry) {now : Nat} (hnow : expiry ≤ now) :
    t.renew queue holder now = (false, t) := by
  apply renew_of_not_holder
  intro hholder
  obtain ⟨expires, hget, hlive⟩ := holder?_eq_some_iff.1 hholder
  have := h expires hget
  omega

/-- A void lease stays void, unless its holder acquires the queue. -/
theorem answer (h : t.Lapsed queue holder expiry) (hinstant : expiry ≤ r.instant)
    (hacquire : r.call = .acquire → r.queue = queue → r.holder = holder →
      (r.answer t).1 = false) :
    (r.answer t).2.Lapsed queue holder expiry := by
  by_cases hown : r.queue = queue ∧ r.holder = holder
  · obtain ⟨rfl, rfl⟩ := hown
    unfold Request.answer at hacquire ⊢
    split
    · next hcall =>
      rw [hcall] at hacquire
      rw [acquire_snd, hacquire rfl rfl rfl]
      exact h
    · rw [h.renew hinstant]
      exact h
    · intro expires hexpires
      rw [LeaseTable.release] at hexpires
      split at hexpires
      · rw [get?_erase_self] at hexpires
        cases hexpires
      · exact h expires hexpires
  · intro expires hexpires
    refine h expires ((calls_answer r t).get?_of_get?_eq hexpires fun hqueue hholder => ?_)
    exact hown ⟨hqueue.symm, hholder.symm⟩

theorem not_granted (h : t.Lapsed r.queue r.holder expiry) (hcall : r.call = .renew)
    (hinstant : expiry ≤ r.instant) : (r.answer t).1 = false := by
  unfold Request.answer
  rw [hcall, h.renew hinstant]

end Lapsed

/-- Whoever acquires a queue on which everybody's lease is void is granted it. -/
theorem granted_of_lapsed (h : ∀ other, t.Lapsed r.queue other expiry) (hcall : r.call = .acquire)
    (hinstant : expiry ≤ r.instant) : (r.answer t).1 = true := by
  unfold Request.answer
  rw [hcall]
  cases hfst : (t.acquire r.queue r.holder r.instant).1 with
  | true => rfl
  | false =>
    obtain ⟨other, -, hother⟩ := acquire_fst_eq_false_iff.1 hfst
    obtain ⟨expires, hget, hlive⟩ := holder?_eq_some_iff.1 hother
    have := h other expires hget
    omega

/-! ## Calls in a row -/

/-- Until its time is over, a lease is held by whoever has been granted it and does not give it
back. -/
theorem held_after {requests : List Request} {granted : Nat}
    (hlease : ∃ expires, granted + t.ttl ≤ expires ∧ t.get? queue = some ⟨holder, expires⟩)
    (htimes : ∀ r ∈ requests, granted ≤ r.instant ∧ r.instant < granted + t.ttl)
    (hkeeps : ∀ r ∈ requests, r.queue = queue → r.holder = holder → r.call ≠ .release) :
    ∃ expires, granted + t.ttl ≤ expires ∧
      (t.after requests).get? queue = some ⟨holder, expires⟩ := by
  induction requests generalizing t with
  | nil => exact hlease
  | cons r requests ih =>
    obtain ⟨expires, hexpires, hget⟩ := hlease
    obtain ⟨hfrom, huntil⟩ := htimes r List.mem_cons_self
    have httl : (r.answer t).2.ttl = t.ttl := (calls_answer r t).ttl_eq
    have hnext : ∃ expires, granted + (r.answer t).2.ttl ≤ expires ∧
        (r.answer t).2.get? queue = some ⟨holder, expires⟩ := by
      rw [httl]
      rcases live_answer hget (Nat.lt_of_lt_of_le huntil hexpires) with
        hsame | ⟨⟨rfl, rfl⟩, hcall | hgranted⟩
      · exact ⟨expires, hexpires, hsame⟩
      · exact absurd hcall (hkeeps r List.mem_cons_self rfl rfl)
      · exact ⟨r.instant + t.ttl, by omega, get?_of_granted hgranted⟩
    have hafter := ih hnext
      (fun r' hr' => by rw [httl]; exact htimes r' (List.mem_cons_of_mem _ hr'))
      (fun r' hr' => hkeeps r' (List.mem_cons_of_mem _ hr'))
    rwa [httl] at hafter

/-- A lease that its holder neither extends nor gives back before it expires has lapsed by then, and
stays so until somebody acquires it: for everybody who has not acquired the queue since. -/
theorem lapsed_after {requests : List Request} {other : String}
    (htimes : requests.Pairwise (·.instant ≤ ·.instant))
    (hlease : t.get? queue = some ⟨holder, expiry⟩ ∨
      t.Lapsed queue other expiry ∧ ∀ r ∈ requests, expiry ≤ r.instant)
    (hleft : ∀ e ∈ t.history requests, e.1.instant < expiry → e.1.queue = queue →
      e.1.holder = holder → e.1.call ≠ .release ∧ e.2 = false)
    (hacquire : ∀ e ∈ t.history requests, expiry ≤ e.1.instant → e.1.call = .acquire →
      e.1.queue = queue → e.1.holder = other → e.2 = false) :
    (t.after requests).Lapsed queue other expiry := by
  induction requests generalizing t with
  | nil =>
    rcases hlease with hget | ⟨hlapsed, -⟩
    · exact lapsed_of_get? hget other
    · exact hlapsed
  | cons r requests ih =>
    obtain ⟨hlater, htimes⟩ := List.pairwise_cons.1 htimes
    refine ih htimes ?_ (fun e he => hleft e (List.mem_cons_of_mem _ he))
      (fun e he => hacquire e (List.mem_cons_of_mem _ he))
    by_cases hinstant : expiry ≤ r.instant
    · -- the lease is over, whether it has been touched or not
      have hlapsed : t.Lapsed queue other expiry := by
        rcases hlease with hget | ⟨hlapsed, -⟩
        · exact lapsed_of_get? hget other
        · exact hlapsed
      refine .inr ⟨hlapsed.answer hinstant ?_, fun r' hr' => Nat.le_trans hinstant (hlater r' hr')⟩
      exact hacquire _ List.mem_cons_self hinstant
    · -- the lease is live, and nothing may have been done about it
      rcases hlease with hget | ⟨-, hover⟩
      · rcases live_answer hget (Nat.lt_of_not_le hinstant) with
          hsame | ⟨⟨hqueue, hholder⟩, hcall⟩
        · exact .inl hsame
        · obtain ⟨hrelease, hgranted⟩ :=
            hleft _ List.mem_cons_self (Nat.lt_of_not_le hinstant) hqueue hholder
          rcases hcall with hcall | hcall
          · exact absurd hcall hrelease
          · cases hcall.symm.trans hgranted
      · exact absurd (hover r List.mem_cons_self) hinstant

/-- Two calls of a history and those between them, with the tables at the first one and after it. -/
theorem history_split {requests : List Request} {first between rest : List (Request × Bool)}
    {g r : Request} {granted granted' : Bool}
    (htimes : requests.Pairwise (·.instant ≤ ·.instant))
    (h : t.history requests = first ++ (g, granted) :: between ++ (r, granted') :: rest) :
    ∃ u middle, u.ttl = t.ttl ∧ (g.answer u).1 = granted ∧
      (g.answer u).2.history middle = between ∧
      (r.answer ((g.answer u).2.after middle)).1 = granted' ∧
      (g :: middle ++ [r]).Pairwise (·.instant ≤ ·.instant) := by
  rw [List.append_assoc] at h
  obtain ⟨early, late, rfl, -, hlate⟩ := history_eq_append h
  obtain ⟨late, rfl, hg, hlate⟩ := history_eq_cons hlate
  obtain ⟨middle, last, rfl, hmiddle, hlast⟩ := history_eq_append hlate
  obtain ⟨last, rfl, hr, -⟩ := history_eq_cons hlast
  refine ⟨t.after early, middle, ttl_after t early, hg, hmiddle, hr, ?_⟩
  refine htimes.sublist ?_
  have hlast : [r].Sublist (r :: last) := (List.nil_sublist last).cons_cons r
  exact ((hlast.append_left middle).cons_cons g).trans (List.sublist_append_right early _)

/-- **A lease belongs to one holder until it expires, and no longer.**  Between a call by which a
lease was granted and a later call about the same queue, let others call about any queues in any
way.  Until the lease expires, the later call is granted to nobody else, unless the holder has given
the lease back.  If the holder has not touched it until then, it is not renewed after that before
the holder has acquired the queue again, and the first to acquire the queue gets it. -/
theorem history_exclusive {requests : List Request}
    (htimes : requests.Pairwise (·.instant ≤ ·.instant))
    {first between rest : List (Request × Bool)} {g r : Request} {granted : Bool}
    (h : t.history requests = first ++ (g, true) :: between ++ (r, granted) :: rest)
    (hqueue : r.queue = g.queue) :
    (r.instant < g.instant + t.ttl → r.holder ≠ g.holder →
      (∀ e ∈ between, e.1.IsLike g → e.1.call ≠ .release) → granted = false) ∧
    (g.instant + t.ttl ≤ r.instant →
      (∀ e ∈ between, e.1.IsLike g → e.1.instant < g.instant + t.ttl →
        e.1.call ≠ .release ∧ e.2 = false) →
      (r.call = .renew → r.holder = g.holder →
        (∀ e ∈ between, e.1.IsLike g → e.1.call = .acquire → e.2 = false) → granted = false) ∧
      (r.call = .acquire →
        (∀ e ∈ between, e.1.queue = g.queue → e.1.call = .acquire →
          e.1.instant < g.instant + t.ttl) → granted = true)) := by
  obtain ⟨u, middle, httl, hg, rfl, rfl, htimes⟩ := history_split htimes h
  obtain ⟨hfrom, htimes⟩ := List.pairwise_cons.1 htimes
  obtain ⟨htimes, -, huntil⟩ := List.pairwise_append.1 htimes
  have hheld : (g.answer u).2.get? g.queue = some ⟨g.holder, g.instant + t.ttl⟩ := by
    rw [← httl]
    exact get?_of_granted hg
  have httl' : (g.answer u).2.ttl = t.ttl := (calls_answer g u).ttl_eq.trans httl
  constructor
  · intro hlive hother hkeeps
    have hheld' : ∃ expires, g.instant + (g.answer u).2.ttl ≤ expires ∧
        ((g.answer u).2.after middle).get? g.queue = some ⟨g.holder, expires⟩ := by
      refine held_after ⟨_, Nat.le_of_eq (by rw [httl']), hheld⟩ ?_ ?_
      · intro a ha
        have hlast := huntil a ha r (List.mem_singleton_self r)
        exact ⟨hfrom a (List.mem_append_left _ ha), by omega⟩
      · intro a ha haqueue haholder
        obtain ⟨granted, hentry⟩ := exists_mem_history ha
        exact hkeeps _ hentry ⟨haqueue, haholder⟩
    obtain ⟨expires, hexpires, hget⟩ := hheld'
    rw [← hqueue] at hget
    exact not_granted_of_live hget (by simp only; omega) hother
  · intro hover hleft
    -- all leases of the queue have run out, but for those of holders who have acquired it since
    have hlapsed : ∀ other, (∀ e ∈ (g.answer u).2.history middle, g.instant + t.ttl ≤ e.1.instant →
          e.1.call = .acquire → e.1.queue = g.queue → e.1.holder = other → e.2 = false) →
        ((g.answer u).2.after middle).Lapsed g.queue other (g.instant + t.ttl) :=
      fun other hacquire => lapsed_after htimes (.inl hheld)
        (fun e he hinstant heq hholder => hleft e he ⟨heq, hholder⟩ hinstant) hacquire
    constructor
    · intro hcall hholder hacquire
      have hvoid := hlapsed g.holder fun e he _ hcall heq hholder =>
        hacquire e he ⟨heq, hholder⟩ hcall
      rw [← hqueue, ← hholder] at hvoid
      exact hvoid.not_granted hcall hover
    · intro hcall hacquire
      refine granted_of_lapsed (fun other => ?_) hcall hover
      rw [hqueue]
      exact hlapsed other fun e he hinstant hcall heq _ =>
        absurd (hacquire e he heq hcall) (Nat.not_lt.2 hinstant)

/-- A holder renews its lease and does not come back in time; another one waits for it, and a third
one gets it. -/
def relay : List Request :=
  [⟨0, .acquire, "q", "a"⟩, ⟨3, .acquire, "q", "b"⟩, ⟨5, .renew, "q", "a"⟩, ⟨6, .release, "q", "b"⟩,
    ⟨7, .acquire, "other", "a"⟩, ⟨14, .acquire, "q", "b"⟩, ⟨15, .acquire, "q", "c"⟩,
    ⟨16, .renew, "q", "a"⟩]

/-- The lease renewed at 5 keeps `b` out at 14; at 15 it has expired, so `c` gets the queue, and `a`
does not get it back at 16. -/
theorem history_exclusive_relay :
    (relay.Pairwise (·.instant ≤ ·.instant) ∧
      ({ ttl := 10 } : LeaseTable).history relay =
        relay.zip [true, false, true, false, true, false, true, false]) ∧
    ∃ b c a, ({ ttl := 10 } : LeaseTable).history relay =
        relay.zip [true, false, true, false, true, b, c, a] ∧ b = false ∧ c = true ∧ a = false := by
  have htimes : relay.Pairwise (·.instant ≤ ·.instant) := by decide
  have hhistory : ({ ttl := 10 } : LeaseTable).history relay =
      relay.zip [true, false, true, false, true, false, true, false] := by decide
  let first : List (Request × Bool) :=
    [(⟨0, .acquire, "q", "a"⟩, true), (⟨3, .acquire, "q", "b"⟩, false)]
  let between : List (Request × Bool) :=
    [(⟨6, .release, "q", "b"⟩, false), (⟨7, .acquire, "other", "a"⟩, true)]
  have hsecond : ({ ttl := 10 } : LeaseTable).history relay =
      first ++ (⟨5, .renew, "q", "a"⟩, true) :: between ++ (⟨14, .acquire, "q", "b"⟩, false) ::
        [(⟨15, .acquire, "q", "c"⟩, true), (⟨16, .renew, "q", "a"⟩, false)] := hhistory
  have hthird : ({ ttl := 10 } : LeaseTable).history relay =
      first ++ (⟨5, .renew, "q", "a"⟩, true) :: (between ++ [(⟨14, .acquire, "q", "b"⟩, false)]) ++
        (⟨15, .acquire, "q", "c"⟩, true) :: [(⟨16, .renew, "q", "a"⟩, false)] := hhistory
  have hfirst : ({ ttl := 10 } : LeaseTable).history relay =
      first ++ (⟨5, .renew, "q", "a"⟩, true) :: (between ++ [(⟨14, .acquire, "q", "b"⟩, false),
        (⟨15, .acquire, "q", "c"⟩, true)]) ++ (⟨16, .renew, "q", "a"⟩, false) :: [] := hhistory
  refine ⟨⟨htimes, hhistory⟩, _, _, _, hhistory, ?_, ?_, ?_⟩
  · exact (history_exclusive htimes hsecond rfl).1 (by decide) (by decide)
      (by simp [between, Request.IsLike])
  · exact ((history_exclusive htimes hthird rfl).2 (by decide)
      (by simp [between, Request.IsLike])).2 rfl (by simp [between])
  · exact ((history_exclusive htimes hfirst rfl).2 (by decide)
      (by simp [between, Request.IsLike])).1 rfl rfl (by simp [between, Request.IsLike])

end TaskRelay.LeaseTable
