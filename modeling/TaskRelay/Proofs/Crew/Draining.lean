import TaskRelay.Proofs.Collection
import TaskRelay.Proofs.Crew.Basic
import TaskRelay.Proofs.Worker.Drain
import TaskRelay.Proofs.Worker.Ticker

/-!
# The lease of a drain

A drain acquires its lease once and renews it at ticks; the ticks start anew with every collection
and with every call of a step.  A lease that is lost does not come back
(`Crew.holder?_of_perform?`), so a drain has held its lease throughout exactly if it still holds it
in the end.  A tick notices a loss, but nothing else does: where collections and calls are all over
before their first tick, the drain never renews.  What saves it is the last collection, which finds
no message: if it takes longer than the time to the first tick, the lease is live in the end
(`Drain.Watches.holder?_of_report?`).
-/

namespace TaskRelay

variable {σ : Type}

/-! ## A lost lease does not come back -/

namespace Site

/-- Whoever holds the lease of a post afterwards, in its worker's name, has held it before. -/
def HeldBefore (p : Post) (s t : Site σ) : Prop :=
  t.leases.holder? p.topic t.now = some p.holder → s.leases.holder? p.topic s.now = some p.holder

theorem HeldBefore.trans {p : Post} {s t u : Site σ} (h₁ : HeldBefore p s t)
    (h₂ : HeldBefore p t u) : HeldBefore p s u :=
  fun h => h₁ (h₂ h)

theorem heldBefore_of_eq {p : Post} {s t : Site σ} (hnow : t.now = s.now)
    (hleases : t.leases = s.leases) : HeldBefore p s t := by
  unfold HeldBefore
  rw [hnow, hleases]
  exact id

theorem Keeps.heldBefore {p : Post} {s t : Site σ} (h : Keeps s t) : HeldBefore p s t :=
  heldBefore_of_eq h.now_eq h.leases_eq

theorem heldBefore_release (p : Post) (s : Site σ) :
    HeldBefore p s (s.release p.topic p.holder).2 := by
  obtain ⟨faults, hcall, -⟩ := call_eq s .release
  rw [release]
  generalize s.call .release = called at hcall ⊢
  obtain ⟨_ | _, t⟩ := called
  · cases hcall
    exact LeaseTable.holder?_of_holder?_release
  · cases hcall
    exact heldBefore_of_eq rfl rfl

end Site

open Site (HeldBefore)

theorem Post.heldBefore_renew (p : Post) (s : Site σ) : HeldBefore p s (p.renew s).2 := by
  obtain ⟨faults, hcall, -⟩ := Site.call_eq s .renew
  rw [renew, Site.renew]
  generalize s.call .renew = called at hcall ⊢
  obtain ⟨_ | _, t⟩ := called
  · cases hcall
    exact LeaseTable.holder?_of_holder?_renew
  · cases hcall
    exact Site.heldBefore_of_eq rfl rfl

theorem Post.heldBefore_tick? {p : Post} {t t' : Ticker} {s s' : Site σ}
    (h : p.tick? t s = some (t', s')) : HeldBefore p s s' := by
  rw [ tick?] at h
  split at h
  · cases h
    exact heldBefore_renew p s
  · cases h

namespace Drain

variable {v w : Drain} {s t : Site σ} {result : Except ChannelError (Option Continuation)}

theorem GoesOn.heldBefore (h : GoesOn v s result w t) : HeldBefore v.post s t := by
  cases h with
  | giveUp report e faults =>
    have hfaults : HeldBefore v.post s { s with faults } := Site.heldBefore_of_eq rfl rfl
    exact hfaults.trans (Site.heldBefore_release v.post { s with faults })
  | collect report faults => exact Site.heldBefore_of_eq rfl rfl

/-- A drain that has begun acquires nothing any more. -/
theorem Step.heldBefore (h : Step v s w t) (hbegun : v.stage ≠ .ready) :
    HeldBefore v.post s t := by
  cases h with
  | refuse hstage => exact absurd hstage hbegun
  | begin hstage hquiet hgoes => exact absurd hstage hbegun
  | receive faults hstage hpoll => exact Site.heldBefore_of_eq rfl rfl
  | @fail c next ticker channel e faults hstage hpoll =>
    have hchannel : HeldBefore v.post s { s with channel, faults } := Site.heldBefore_of_eq rfl rfl
    exact hchannel.trans (Site.heldBefore_release v.post { s with channel, faults })
  | tick hstage htick => exact Post.heldBefore_tick? htick
  | @stop c ticker channel hstage hpoll =>
    have hchannel : HeldBefore v.post s { s with channel } := Site.heldBefore_of_eq rfl rfl
    exact hchannel.trans (Site.heldBefore_release v.post { s with channel })
  | start hstage hpoll hwork => exact (Post.keeps_of_work hwork).heldBefore
  | pass hstage hpoll hwork hgoes =>
    exact (Post.keeps_of_work hwork).heldBefore.trans hgoes.heldBefore
  | tickAtWork hstage htick => exact Post.heldBefore_tick? htick
  | breakOff hstage hkeeps => exact hkeeps.heldBefore
  | finish hstage hend hgoes =>
    exact (Site.keeps_of_endIteration hend).heldBefore.trans hgoes.heldBefore

theorem GoesOn.stage_ne_ready (h : GoesOn v s result w t) : w.stage ≠ .ready := by
  cases h with
  | giveUp report e faults => nofun
  | collect report faults => nofun

theorem Step.stage_ne_ready (h : Step v s w t) : w.stage ≠ .ready := by
  cases h with
  | begin hstage hquiet hgoes => exact hgoes.stage_ne_ready
  | pass hstage hpoll hwork hgoes => exact hgoes.stage_ne_ready
  | finish hstage hend hgoes => exact hgoes.stage_ne_ready
  | refuse | receive | fail | tick | stop | start | tickAtWork | breakOff => nofun

/-! ## The last collection -/

def report? (v : Drain) : Option DrainReport :=
  match v.stage with
  | .ended (.ok report) => some report
  | _ => none

/-- While a drain collects, and all renewals of this collection have succeeded, there has been none
yet, or the lease lasts beyond the next tick. -/
def Watches (v : Drain) (s : Site σ) : Prop :=
  match v.stage with
  | .collecting c t =>
    t.holding = true →
      t.period = Ticker.periodFor s.leases.ttl ∧ s.now ≤ t.due ∧
        (c.batch = none → t.start + v.post.settings.idlePoll ≤ c.deadline) ∧
        (t.next = 1 ∨ ∃ expires,
          s.leases.get? v.post.topic = some ⟨v.post.holder, expires⟩ ∧ t.due < expires)
  | .ready | .working _ _ _ | .ended _ | .broken => True

theorem GoesOn.watches (h : GoesOn v s result w t) : w.Watches t := by
  cases h with
  | giveUp report e faults => trivial
  | @collect c report faults =>
    rintro -
    refine ⟨rfl, ?_, fun _ => Nat.add_le_add_left (v.idlePoll_le_waitAfter c) _, .inl rfl⟩
    rw [Post.ticker, Ticker.due_begin]
    exact Nat.le_add_right _ _

theorem watches_tick {c : Collection} {ticker ticker' : Ticker}
    (hstage : v.stage = .collecting c ticker) (h : v.Watches s)
    (hgap : Ticker.longestGap s.leases.ttl < s.leases.ttl)
    (htick : v.post.tick? ticker s = some (ticker', t)) :
    Watches { v with stage := .collecting c ticker' } t := by
  simp only [Watches, hstage] at h
  rw [Post.tick?] at htick
  split at htick
  · next hdue =>
    obtain ⟨hperiod, hnow, hdeadline, -⟩ := h hdue.1
    rcases hrenew : v.post.renew s with ⟨renewed, u⟩
    rw [hrenew] at htick
    cases htick
    intro hholding
    have hrenewed : renewed = true := hholding
    subst hrenewed
    obtain ⟨-, hunow, huleases⟩ := Post.renew_true hrenew
    have hafter := Ticker.due_after_le hperiod true
    have hlater := Ticker.due_le_after ticker true
    have httl : t.leases.ttl = s.leases.ttl := by
      rw [huleases]
      rfl
    refine ⟨?_, ?_, hdeadline, .inr ⟨s.now + s.leases.ttl, ?_, ?_⟩⟩
    · rw [httl]
      exact hperiod
    · rw [hunow]
      exact Nat.le_trans hnow hlater
    · rw [huleases]
      exact LeaseTable.get?_grant_self _ _ _ _
    · show (ticker.after true).due < s.now + s.leases.ttl
      omega
  · cases htick

theorem Step.watches (h : Step v s w t) (hwatches : v.Watches s)
    (hgap : Ticker.longestGap s.leases.ttl < s.leases.ttl) : w.Watches t := by
  cases h with
  | begin hstage hquiet hgoes => exact hgoes.watches
  | receive faults hstage hpoll =>
    -- the batch is no longer empty, so nothing is asked of the deadline any more
    simp only [Watches, hstage] at hwatches
    intro hholding
    obtain ⟨hperiod, hnow, -, hlease⟩ := hwatches hholding
    refine ⟨hperiod, hnow, fun hnone => ?_, hlease⟩
    obtain ⟨m, -, heq, -⟩ := Collection.poll_more hpoll
    rw [heq] at hnone
    cases hnone
  | tick hstage htick => exact watches_tick hstage hwatches hgap htick
  | pass hstage hpoll hwork hgoes => exact hgoes.watches
  | finish hstage hend hgoes => exact hgoes.watches
  | refuse | fail | stop | start | tickAtWork | breakOff => trivial

/-- Others may do what they like as long as the lease of the drain is as it was. -/
theorem Watches.mono (h : v.Watches s) (hnow : t.now = s.now)
    (httl : t.leases.ttl = s.leases.ttl)
    (hlease : ∀ expires, s.leases.get? v.post.topic = some ⟨v.post.holder, expires⟩ →
      s.now < expires → t.leases.get? v.post.topic = some ⟨v.post.holder, expires⟩) :
    v.Watches t := by
  unfold Watches at h ⊢
  split at h
  · next c ticker hstage =>
    intro hholding
    obtain ⟨hperiod, hle, hdeadline, hrenewed⟩ := h hholding
    rw [hnow, httl]
    refine ⟨hperiod, hle, hdeadline, hrenewed.imp_right ?_⟩
    rintro ⟨expires, hs, hlate⟩
    exact ⟨expires, hlease expires hs (Nat.lt_of_le_of_lt hle hlate), hlate⟩
  all_goals trivial

/-- Time that passes no further than the drain sleeps is noticed by it. -/
theorem Watches.pass {instant : Nat} (h : v.Watches s)
    (hwake : ∀ wake, v.wakesAt? s = some wake → instant ≤ wake) :
    v.Watches { s with now := instant } := by
  unfold Watches at h ⊢
  unfold wakesAt? at hwake
  split at h
  · next c ticker hstage =>
    intro hholding
    obtain ⟨hperiod, -, hrest⟩ := h hholding
    rw [hstage] at hwake
    simp only [Ticker.due?, hholding, if_true] at hwake
    exact ⟨hperiod, Nat.le_trans (hwake _ rfl) (Nat.min_le_left _ _), hrest⟩
  all_goals trivial

theorem GoesOn.report?_eq_none (h : GoesOn v s result w t) : w.report? = none := by
  cases h with
  | giveUp report e faults => rfl
  | collect report faults => rfl

/-- A drain ends well from a collection that has found no message in its time, if all renewals of
that collection have succeeded. -/
theorem Step.collecting_of_report? {report : DrainReport} (h : Step v s w t)
    (hreport : w.report? = some report) :
    ∃ c ticker, v.stage = .collecting c ticker ∧ ticker.holding = true ∧ c.batch = none ∧
      c.deadline ≤ s.now := by
  cases h with
  | @stop c ticker channel hstage hpoll =>
    have hholding : ticker.holding = true := by
      rcases hticker : ticker.holding with _ | _
      · simp [report?, hticker] at hreport
      · rfl
    rcases Collection.poll_closed hpoll with ⟨m, -, hm⟩ | ⟨-, -, hnone, hover⟩
    · cases hm
    · exact ⟨c, ticker, hstage, hholding, hnone.symm, hover⟩
  | begin hstage hquiet hgoes =>
    rw [hgoes.report?_eq_none] at hreport
    cases hreport
  | pass hstage hpoll hwork hgoes =>
    rw [hgoes.report?_eq_none] at hreport
    cases hreport
  | finish hstage hend hgoes =>
    rw [hgoes.report?_eq_none] at hreport
    cases hreport
  | refuse | receive | fail | tick | start | tickAtWork | breakOff => cases hreport

/-- If collecting takes longer than the time to the first tick, the lease is live when the drain has
found no message any more. -/
theorem Watches.holder?_of_report? {report : DrainReport} (h : v.Watches s)
    (hidle : Ticker.longestGap s.leases.ttl < v.post.settings.idlePoll)
    (hstep : Step v s w t) (hreport : w.report? = some report) :
    s.leases.holder? v.post.topic s.now = some v.post.holder := by
  obtain ⟨c, ticker, hstage, hholding, hnone, hdeadline⟩ := hstep.collecting_of_report? hreport
  simp only [Watches, hstage] at h
  obtain ⟨hperiod, hnow, hwait, hrenewed⟩ := h hholding
  have hstart := hwait hnone
  rcases hrenewed with hfirst | ⟨expires, hlease, hlate⟩
  · -- the first tick cannot have been missed: it comes before the idle poll is over
    have hdue : ticker.due = ticker.start + Ticker.longestGap s.leases.ttl := by
      rw [Ticker.due, hfirst, hperiod, Ticker.longestGap, Nat.one_mul]
    omega
  · exact LeaseTable.holder?_eq_some_iff.2 ⟨expires, hlease, Nat.lt_of_le_of_lt hnow hlate⟩

end Drain

/-! ## Runs of a crew -/

namespace Crew

variable {c c' : Crew σ} {d : Deed} {j : Nat}

/-- No worker but the one at a place goes by the name that belongs to a post. -/
def HasOwnName (c : Crew σ) (j : Nat) (p : Post) : Prop :=
  ∀ w ∈ c.workers.eraseIdx j, w.post.topic = p.topic → w.post.holder ≠ p.holder

instance (c : Crew σ) (j : Nat) (p : Post) : Decidable (c.HasOwnName j p) :=
  inferInstanceAs (Decidable (∀ w ∈ c.workers.eraseIdx j, _))

theorem hasOwnName_of_length_eq_one (h : c.workers.length = 1) (p : Post) : c.HasOwnName 0 p := by
  obtain ⟨only, honly⟩ := List.length_eq_one_iff.1 h
  intro w hw
  rw [honly] at hw
  cases hw

theorem HasOwnName.holder_ne {p : Post} (h : c.HasOwnName j p) {i : Nat} {w : Worker}
    (hw : c.workers[i]? = some w) (hij : i ≠ j) (htopic : w.post.topic = p.topic) :
    w.post.holder ≠ p.holder :=
  h w (List.mem_eraseIdx_iff_getElem?.2 ⟨i, hij, hw⟩) htopic

theorem HasOwnName.before {deeds : List Deed} {p : Post} (h : c.replay? deeds = some c')
    (hname : c'.HasOwnName j p) : c.HasOwnName j p := by
  intro w hw htopic
  obtain ⟨i, hij, hi⟩ := List.mem_eraseIdx_iff_getElem?.1 hw
  obtain ⟨w', hw', hpost, -⟩ := exists_worker_of_replay? h hi
  rw [← hpost]
  exact hname.holder_ne hw' hij (hpost ▸ htopic)

theorem drain_of_perform? {v : Drain} (h : c.perform? d = some c')
    (hv : c.workers[j]? = some (.drain v)) :
    ∃ v', c'.workers[j]? = some (.drain v') ∧
      ((d = .move j ∧ v.move? c.site = some (v', c'.site)) ∨ (d ≠ .move j ∧ v' = v)) := by
  obtain ⟨w', hw', -, -⟩ := exists_worker_of_perform? h hv
  rcases origin_of_worker h hw' with ⟨w, hw, hcase⟩ | ⟨-, hnone⟩
  · cases hv.symm.trans hw
    rcases hcase with ⟨rfl, hmove⟩ | ⟨hd, rfl | rfl⟩
    · obtain ⟨⟨v', s⟩, hmove', heq⟩ := Option.map_eq_some_iff.1 hmove
      cases heq
      exact ⟨v', hw', .inl ⟨rfl, hmove'⟩⟩
    · exact ⟨v, hw', .inr ⟨hd, rfl⟩⟩
    · exact ⟨v, hw', .inr ⟨hd, rfl⟩⟩
  · cases hv.symm.trans hnone

/-- A lease that a drain has lost does not come back. -/
theorem holder?_of_perform? {v : Drain} (h : c.perform? d = some c')
    (hv : c.workers[j]? = some (.drain v)) (hbegun : v.stage ≠ .ready)
    (hname : c.HasOwnName j v.post) (hcalls : d.callsFor v.post.topic v.post.holder = false)
    (hheld : c'.site.leases.holder? v.post.topic c'.site.now = some v.post.holder) :
    c.site.leases.holder? v.post.topic c.site.now = some v.post.holder := by
  obtain ⟨v', -, ⟨rfl, hmove⟩ | ⟨hd, -⟩⟩ := drain_of_perform? h hv
  · exact (Drain.step_of_move? hmove).heldBefore hbegun hheld
  · obtain ⟨expires, hlease, hlive⟩ := LeaseTable.holder?_eq_some_iff.1 hheld
    refine LeaseTable.holder?_eq_some_iff.2 ⟨expires, ?_, ?_⟩
    · refine get?_of_get?_perform? h hlease (fun i w hi hw htopic => ?_) hcalls
      exact hname.holder_ne hw (fun hij => hd (hij ▸ hi)) htopic
    · exact Nat.lt_of_le_of_lt (now_le_of_perform? h) hlive

/-- Nobody but the holder of a queue can acquire it at any instant of a run. -/
def KeepsOut (queue holder : String) : Crew σ → List Deed → Prop
  | c, [] => ∀ other, other ≠ holder → (c.site.leases.acquire queue other c.site.now).1 = false
  | c, d :: deeds =>
    ∃ c', c.perform? d = some c' ∧
      (∀ instant, c.site.now ≤ instant → instant ≤ c'.site.now → ∀ other, other ≠ holder →
        (c.site.leases.acquire queue other instant).1 = false) ∧
      KeepsOut queue holder c' deeds

theorem KeepsOut.holder? {queue holder : String} {deeds : List Deed}
    (h : c.KeepsOut queue holder deeds) :
    c.site.leases.holder? queue c.site.now = some holder := by
  refine LeaseTable.forall_acquire_eq_false_iff.1 ?_
  cases deeds with
  | nil => exact h
  | cons d deeds =>
    obtain ⟨c', hperform, hnow, -⟩ := h
    exact hnow c.site.now (Nat.le_refl _) (now_le_of_perform? hperform)

/-- A lease that is held before a deed and after it is held at every instant of it. -/
theorem holder?_between {queue holder : String} {instant : Nat} (h : c.perform? d = some c')
    (hbefore : c.site.leases.holder? queue c.site.now = some holder)
    (hafter : c'.site.leases.holder? queue c'.site.now = some holder)
    (hle : c.site.now ≤ instant) (hinstant : instant ≤ c'.site.now) :
    c.site.leases.holder? queue instant = some holder := by
  by_cases hpass : ∃ later, d = .pass later
  · obtain ⟨later, rfl⟩ := hpass
    obtain ⟨rfl, -, -⟩ := perform?_pass h
    obtain ⟨expires, hlease, hlive⟩ := LeaseTable.holder?_eq_some_iff.1 hafter
    exact LeaseTable.holder?_eq_some_iff.2 ⟨expires, hlease, Nat.lt_of_le_of_lt hinstant hlive⟩
  · have hnow := now_eq_of_perform? h fun later hd => hpass ⟨later, hd⟩
    rw [hnow] at hinstant
    rwa [Nat.le_antisymm hinstant hle]

/-- A drain that has begun keeps others out for the length of a run exactly if it holds a live lease
at the end of it. -/
theorem keepsOut_iff {v : Drain} {p : Post} {deeds : List Deed} (hrun : c.replay? deeds = some c')
    (hv : c.workers[j]? = some (.drain v)) (hpost : v.post = p) (hbegun : v.stage ≠ .ready)
    (hname : c'.HasOwnName j p) (hcalls : ∀ d ∈ deeds, d.callsFor p.topic p.holder = false) :
    c.KeepsOut p.topic p.holder deeds ↔
      c'.site.leases.holder? p.topic c'.site.now = some p.holder := by
  induction deeds generalizing c v with
  | nil =>
    cases hrun
    exact LeaseTable.forall_acquire_eq_false_iff
  | cons d deeds ih =>
    have hbefore := hname.before hrun
    obtain ⟨next, hnext, hrest⟩ := Option.bind_eq_some_iff.1 hrun
    obtain ⟨v', hv', hcase⟩ := drain_of_perform? hnext hv
    have hv'begun : v'.stage ≠ .ready := by
      rcases hcase with ⟨rfl, hmove⟩ | ⟨-, rfl⟩
      · exact (Drain.step_of_move? hmove).stage_ne_ready
      · exact hbegun
    have hv'post : v'.post = p := by
      rcases hcase with ⟨rfl, hmove⟩ | ⟨-, rfl⟩
      · exact (Drain.turn hmove).1.trans hpost
      · exact hpost
    have hlater := ih hrest hv' hv'post hv'begun fun d' hd' =>
      hcalls d' (List.mem_cons_of_mem _ hd')
    constructor
    · rintro ⟨next', hnext', -, hkeeps⟩
      cases hnext.symm.trans hnext'
      exact hlater.1 hkeeps
    · -- from the end backwards: what holds the lease after a deed has held it before
      intro hheld
      have hkeeps := hlater.2 hheld
      have hnow : c.site.leases.holder? p.topic c.site.now = some p.holder := by
        subst hpost
        exact holder?_of_perform? hnext hv hbegun hbefore (hcalls d List.mem_cons_self)
          hkeeps.holder?
      refine ⟨next, hnext, fun instant hle hinstant => ?_, hkeeps⟩
      exact LeaseTable.forall_acquire_eq_false_iff.2
        (holder?_between hnext hnow hkeeps.holder? hle hinstant)

/-- What is not the turn of a drain does not change what it may rely on. -/
theorem watches_of_perform?_of_ne {v : Drain} (h : c.perform? d = some c')
    (hv : c.workers[j]? = some (.drain v)) (hname : c.HasOwnName j v.post)
    (hcalls : d.callsFor v.post.topic v.post.holder = false) (hd : d ≠ .move j)
    (hwatches : v.Watches c.site) : v.Watches c'.site := by
  by_cases hpass : ∃ instant, d = .pass instant
  · obtain ⟨instant, rfl⟩ := hpass
    obtain ⟨rfl, -, hwakes⟩ := perform?_pass h
    exact hwatches.pass (hwakes (.drain v) (List.mem_of_getElem? hv))
  · have hnow := now_eq_of_perform? h fun instant hinstant => hpass ⟨instant, hinstant⟩
    refine hwatches.mono hnow (ttl_of_perform? h) fun expires hlease hlive => ?_
    refine get?_of_perform? h hlease hlive (fun i w hi hw htopic => ?_) hcalls
    exact hname.holder_ne hw (fun hij => hd (hij ▸ hi)) htopic

theorem watches_of_replay? {v : Drain} {p : Post} {deeds : List Deed}
    (hrun : c.replay? deeds = some c') (hv : c.workers[j]? = some (.drain v)) (hpost : v.post = p)
    (hname : c'.HasOwnName j p) (hcalls : ∀ d ∈ deeds, d.callsFor p.topic p.holder = false)
    (hgap : Ticker.longestGap c.site.leases.ttl < c.site.leases.ttl)
    (hwatches : v.Watches c.site) :
    ∃ v', c'.workers[j]? = some (.drain v') ∧ v'.post = p ∧ v'.Watches c'.site := by
  induction deeds generalizing c v with
  | nil =>
    cases hrun
    exact ⟨v, hv, hpost, hwatches⟩
  | cons d deeds ih =>
    have hbefore := hname.before hrun
    obtain ⟨next, hnext, hrest⟩ := Option.bind_eq_some_iff.1 hrun
    have hcalls' : ∀ d' ∈ deeds, d'.callsFor p.topic p.holder = false := fun d' hd' =>
      hcalls d' (List.mem_cons_of_mem _ hd')
    have hgap' : Ticker.longestGap next.site.leases.ttl < next.site.leases.ttl := by
      rwa [ttl_of_perform? hnext]
    obtain ⟨v', hv', ⟨rfl, hmove⟩ | ⟨hd, rfl⟩⟩ := drain_of_perform? hnext hv
    · exact ih hrest hv' ((Drain.turn hmove).1.trans hpost) hcalls' hgap'
        ((Drain.step_of_move? hmove).watches hwatches hgap)
    · subst hpost
      exact ih hrest hv' rfl hcalls' hgap'
        (watches_of_perform?_of_ne hnext hv hbefore (hcalls d List.mem_cons_self) hd hwatches)

/-- From the instant at which a drain acquires its lease to the one at which it gives it back,
having done its work, nobody else goes by its name. -/
structure Drains (c₀ c₁ c₂ : Crew σ) (j : Nat) (v : Drain) (deeds : List Deed) : Prop where
  drain : c₀.workers[j]? = some (.drain v)
  ready : v.stage = .ready
  acquires : c₀.perform? (.move j) = some c₁
  run : c₁.replay? deeds = some c₂
  ends : ∃ c₃ v' report, c₂.perform? (.move j) = some c₃ ∧ c₃.workers[j]? = some (.drain v') ∧
    v'.report? = some report
  hasOwnName : c₂.HasOwnName j v.post
  spared : ∀ d ∈ deeds, d.callsFor v.post.topic v.post.holder = false

namespace Drains

variable {c₀ c₁ c₂ : Crew σ} {v : Drain} {deeds : List Deed}

theorem exists_drain (h : Drains c₀ c₁ c₂ j v deeds) :
    ∃ v₁, c₁.workers[j]? = some (.drain v₁) ∧ v.move? c₀.site = some (v₁, c₁.site) ∧
      v₁.post = v.post := by
  obtain ⟨v₁, hv₁, ⟨-, hmove⟩ | ⟨hne, -⟩⟩ := drain_of_perform? h.acquires h.drain
  · exact ⟨v₁, hv₁, hmove, (Drain.turn hmove).1⟩
  · exact absurd rfl hne

/-- Nobody else can acquire the queue in the meantime exactly if the lease is live in the end. -/
theorem keepsOut_iff (h : Drains c₀ c₁ c₂ j v deeds) :
    c₁.KeepsOut v.post.topic v.post.holder deeds ↔
      c₂.site.leases.holder? v.post.topic c₂.site.now = some v.post.holder := by
  obtain ⟨v₁, hv₁, hmove, hpost⟩ := h.exists_drain
  exact Crew.keepsOut_iff h.run hv₁ hpost (Drain.step_of_move? hmove).stage_ne_ready h.hasOwnName
    h.spared

/-- The lease is live in the end if the idle poll takes longer than the time to the first tick. -/
theorem keepsOut (h : Drains c₀ c₁ c₂ j v deeds) (httl : 2 ≤ c₀.site.leases.ttl)
    (hidle : Ticker.longestGap c₀.site.leases.ttl < v.post.settings.idlePoll) :
    c₁.KeepsOut v.post.topic v.post.holder deeds := by
  obtain ⟨v₁, hv₁, hmove₁, hpost₁⟩ := h.exists_drain
  obtain ⟨c₃, v', report, hrelease, hv', hreport⟩ := h.ends
  have hgap := Ticker.longestGap_lt httl
  have hready : v.Watches c₀.site := by
    rw [Drain.Watches, h.ready]
    trivial
  have hwatches₁ := (Drain.step_of_move? hmove₁).watches hready hgap
  rw [← ttl_of_perform? h.acquires] at hgap hidle
  obtain ⟨v₂, hv₂, hpost₂, hwatches₂⟩ :=
    watches_of_replay? h.run hv₁ hpost₁ h.hasOwnName h.spared hgap hwatches₁
  obtain ⟨v₃, hv₃, ⟨-, hmove₂⟩ | ⟨hne, -⟩⟩ := drain_of_perform? hrelease hv₂
  · cases hv'.symm.trans hv₃
    rw [← ttl_of_replay? h.run, ← hpost₂] at hidle
    have hheld := hwatches₂.holder?_of_report? hidle (Drain.step_of_move? hmove₂) hreport
    rw [hpost₂] at hheld
    exact h.keepsOut_iff.2 hheld
  · exact absurd rfl hne

end Drains

end Crew

end TaskRelay
