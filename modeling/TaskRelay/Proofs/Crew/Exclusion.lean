import TaskRelay.Proofs.Collection
import TaskRelay.Proofs.Crew.Basic
import TaskRelay.Proofs.Worker.Ticker

/-!
# One server at a time

A server renews its lease before it collects a batch and at every tick while it works on one, but
not while it collects.  So from one renewal to the next it takes an idle poll, a window and the time
to the first tick at most; if that is less than the time for which a lease is held
(`CollectionSettings.FitsIn`), the lease never runs out under a server at work.

The invariant is `Server.Secure`: the lease outlasts the instant by which the server will have
renewed it.  The server's own moves keep it (`Server.secure_of_move?`), and so does everything else,
since a live lease is out of reach for others (`Crew.secure_of_perform?_of_ne`).
-/

namespace TaskRelay

variable {σ : Type}

/-- Collecting a batch and waiting for the first tick after it takes less time than a lease is
held. -/
def CollectionSettings.FitsIn (settings : CollectionSettings) (ttl : Nat) : Prop :=
  settings.idlePoll + settings.window + Ticker.longestGap ttl < ttl

instance (settings : CollectionSettings) (ttl : Nat) : Decidable (settings.FitsIn ttl) :=
  inferInstanceAs (Decidable (_ < _))

/-! ## Collecting -/

namespace Collection

/-- When the collection will have ended at the latest. -/
def closesBy (c : Collection) (settings : CollectionSettings) : Nat :=
  match c.batch with
  | none => c.deadline + settings.window
  | some _ => c.deadline

theorem deadline_le_closesBy (c : Collection) (settings : CollectionSettings) :
    c.deadline ≤ c.closesBy settings := by
  rw [closesBy]
  split
  · exact Nat.le_add_right _ _
  · exact Nat.le_refl _

/-- A message that comes in time does not put off the end of the collection. -/
theorem closesBy_of_poll_more {c next : Collection} {settings : CollectionSettings}
    {topic : String} {now : Nat} {channel channel' : Channel}
    (h : c.poll settings topic now channel = (.more next, channel')) (hnow : now ≤ c.deadline) :
    now ≤ next.deadline ∧ next.closesBy settings ≤ c.closesBy settings := by
  obtain ⟨m, -, rfl, -, hopen⟩ := poll_more h
  refine ⟨Nat.le_of_lt hopen, ?_⟩
  rw [closesBy, closesBy, windowEnd]
  cases c.batch with
  | none => exact Nat.add_le_add_right hnow _
  | some b => exact Nat.le_refl _

end Collection

/-! ## The invariant of a server -/

namespace Server

/-- A server at work holds a lease that lasts until it will have renewed it. -/
def Secure (v : Server) (s : Site σ) : Prop :=
  match v.stage with
  | .collecting c =>
    s.now ≤ c.deadline ∧ ∃ expires,
      s.leases.get? v.post.topic = some ⟨v.post.holder, expires⟩ ∧
        c.closesBy v.post.settings + Ticker.longestGap s.leases.ttl < expires
  | .working _ t =>
    t.holding = true ∧ t.period = Ticker.periodFor s.leases.ttl ∧ s.now ≤ t.due ∧ ∃ expires,
      s.leases.get? v.post.topic = some ⟨v.post.holder, expires⟩ ∧ t.due < expires
  | .ready | .pausing _ | .stopped | .broken => True

variable {v : Server} {s t : Site σ}

theorem Secure.exists_lease (h : v.Secure s) (hwork : v.hands.isEmpty = false) :
    ∃ expires, s.leases.get? v.post.topic = some ⟨v.post.holder, expires⟩ ∧ s.now < expires := by
  unfold Secure at h
  unfold hands at hwork
  split at h
  · next c hstage =>
    obtain ⟨hnow, expires, hlease, hlate⟩ := h
    have hclose := c.deadline_le_closesBy v.post.settings
    exact ⟨expires, hlease, by omega⟩
  · next d t hstage =>
    obtain ⟨-, -, hnow, expires, hlease, hlate⟩ := h
    exact ⟨expires, hlease, Nat.lt_of_le_of_lt hnow hlate⟩
  all_goals next hstage => rw [hstage] at hwork; cases hwork

theorem secure_of_isEmpty (h : v.hands.isEmpty = true) : v.Secure s := by
  unfold Secure
  unfold hands at h
  split
  · next c hstage => rw [hstage] at h; cases h
  · next d t hstage => rw [hstage] at h; cases h
  all_goals trivial

/-- Others may do what they like as long as the lease of the server is as it was. -/
theorem Secure.mono (h : v.Secure s) (hnow : t.now = s.now) (httl : t.leases.ttl = s.leases.ttl)
    (hlease : ∀ expires, s.leases.get? v.post.topic = some ⟨v.post.holder, expires⟩ →
      s.now < expires → t.leases.get? v.post.topic = some ⟨v.post.holder, expires⟩) :
    v.Secure t := by
  unfold Secure at h ⊢
  split at h
  · next c hstage =>
    obtain ⟨hle, expires, hs, hlate⟩ := h
    have hclose := c.deadline_le_closesBy v.post.settings
    rw [hnow, httl]
    exact ⟨hle, expires, hlease expires hs (by omega), hlate⟩
  · next d ticker hstage =>
    obtain ⟨hholding, hperiod, hle, expires, hs, hlate⟩ := h
    rw [hnow, httl]
    exact ⟨hholding, hperiod, hle, expires, hlease expires hs (Nat.lt_of_le_of_lt hle hlate), hlate⟩
  all_goals trivial

/-! ## Moves of a server -/

theorem secure_stop (v : Server) (s : Site σ) : (v.stop s).1.Secure (v.stop s).2 :=
  secure_of_isEmpty rfl

/-- A server that begins to collect with a lease for the full time is secure. -/
theorem secure_collect (hfits : v.post.settings.FitsIn s.leases.ttl)
    (hlease : s.leases.get? v.post.topic = some ⟨v.post.holder, s.now + s.leases.ttl⟩) :
    (v.collect s).1.Secure (v.collect s).2 := by
  rw [collect, Post.collect]
  rcases hreceive : v.post.receive (.start s.now v.post.settings.idlePoll) s with ⟨e | c, t⟩
  · exact secure_of_isEmpty rfl
  · obtain ⟨faults, rfl⟩ := Post.site_of_receive hreceive
    cases Post.eq_of_receive_ok hreceive
    unfold CollectionSettings.FitsIn at hfits
    refine ⟨Nat.le_add_right _ _, s.now + s.leases.ttl, hlease, ?_⟩
    -- the first message may come with the end of the idle poll, and opens the window then
    show s.now + v.post.settings.idlePoll + v.post.settings.window +
      Ticker.longestGap s.leases.ttl < s.now + s.leases.ttl
    omega

theorem secure_receive {c : Collection} {r : Except ChannelError Collection}
    (hstage : v.stage = .collecting c) (h : v.Secure s)
    (hpoll : v.post.poll? c s = some (.receiving r, t)) :
    (v.receive (r, t)).1.Secure (v.receive (r, t)).2 := by
  obtain ⟨next, channel, hmore, hreceive⟩ := Post.poll?_receiving hpoll
  cases r with
  | error e => exact secure_of_isEmpty rfl
  | ok c' =>
    obtain ⟨faults, rfl⟩ := Post.site_of_receive hreceive
    cases Post.eq_of_receive_ok hreceive
    simp only [Secure, hstage] at h
    obtain ⟨hnow, expires, hlease, hlate⟩ := h
    obtain ⟨hnext, hcloses⟩ := Collection.closesBy_of_poll_more hmore hnow
    exact ⟨hnext, expires, hlease, Nat.lt_of_le_of_lt (Nat.add_le_add_right hcloses _) hlate⟩

/-- A server that starts on its batch will tick before its lease runs out. -/
theorem secure_work {c : Collection} {b : Option Batch} (hstage : v.stage = .collecting c)
    (h : v.Secure s) (hpoll : v.post.poll? c s = some (.batch b, t)) :
    (v.work b t).1.Secure (v.work b t).2 := by
  obtain ⟨channel, hclosed, rfl⟩ := Post.poll?_batch hpoll
  cases b with
  | none => exact secure_of_isEmpty rfl
  | some b =>
    have hkeeps := v.post.keeps_work b { s with channel }
    rw [work]
    rcases hwork : v.post.work b { s with channel } with ⟨d | result, t⟩
    · rw [hwork] at hkeeps
      simp only [Secure, hstage] at h
      obtain ⟨hnow, expires, hlease, hlate⟩ := h
      have hclose := c.deadline_le_closesBy v.post.settings
      have htnow : t.now = s.now := hkeeps.now_eq
      have htleases : t.leases = s.leases := hkeeps.leases_eq
      refine ⟨rfl, rfl, ?_, expires, htleases ▸ hlease, ?_⟩
      · rw [Post.ticker, Ticker.due_begin]
        exact Nat.le_add_right _ _
      · rw [Post.ticker, Ticker.due_begin, htnow, htleases]
        omega
    · exact secure_of_isEmpty rfl

/-- A tick that is due renews the lease for the full time. -/
theorem secure_tick {d : Site.Dispatch} {ticker ticker' : Ticker}
    (hstage : v.stage = .working d ticker) (h : v.Secure s) (hfault : s.faults .renew = 0)
    (hgap : Ticker.longestGap s.leases.ttl < s.leases.ttl)
    (htick : v.post.tick? ticker s = some (ticker', t)) :
    Secure { v with stage := .working d ticker' } t := by
  simp only [Secure, hstage] at h
  obtain ⟨hholding, hperiod, hnow, expires, hlease, hlate⟩ := h
  have hholder : s.leases.holder? v.post.topic s.now = some v.post.holder :=
    LeaseTable.holder?_eq_some_iff.2 ⟨expires, hlease, Nat.lt_of_le_of_lt hnow hlate⟩
  rw [Post.tick?, Post.renew_of_no_fault hfault, LeaseTable.renew_of_holder hholder] at htick
  split at htick
  · next hdue =>
    cases htick
    have hafter := Ticker.due_after_le hperiod true
    have hlater := Ticker.due_le_after (t := ticker) true
    refine ⟨rfl, hperiod, Nat.le_trans hnow hlater, s.now + s.leases.ttl,
      LeaseTable.get?_grant_self _ _ _ _, ?_⟩
    show (ticker.after true).due < s.now + s.leases.ttl
    omega
  · cases htick

theorem secure_collect_of_grant (hfits : v.post.settings.FitsIn s.leases.ttl)
    (hnow : t.now = s.now) (hleases : t.leases = s.leases.grant v.post.topic v.post.holder s.now) :
    (v.collect t).1.Secure (v.collect t).2 := by
  have httl : t.leases.ttl = s.leases.ttl := by
    rw [hleases]
    rfl
  refine secure_collect (httl ▸ hfits) ?_
  rw [hleases, LeaseTable.get?_grant_self, hnow]
  rfl

/-- Every move of a server keeps it secure, provided that renewals do not fail. -/
theorem secure_of_move? {r : Server × Site σ} (h : v.Secure s)
    (hfits : v.post.settings.FitsIn s.leases.ttl) (hfault : s.faults .renew = 0)
    (hmove : v.move? s = some r) : r.1.Secure r.2 := by
  cases hstage : v.stage with
  | ready =>
    simp only [move?, hstage] at hmove
    split at hmove
    · cases hmove
      exact secure_stop v s
    · split at hmove
      · split at hmove
        · next t heq =>
          cases hmove
          obtain ⟨-, hnow, hleases⟩ := Post.renew_true heq
          exact secure_collect_of_grant hfits hnow hleases
        · cases hmove
          exact secure_of_isEmpty (by rw [hands]; rfl)
      · split at hmove
        · next t heq =>
          cases hmove
          obtain ⟨hnow, hleases⟩ := Post.acquire_true heq
          exact secure_collect_of_grant (v := { v with leading := true }) hfits hnow hleases
        · cases hmove
          exact secure_of_isEmpty rfl
        · cases hmove
          exact secure_of_isEmpty rfl
  | pausing wake =>
    simp only [move?, hstage] at hmove
    split at hmove
    · cases hmove
      exact secure_of_isEmpty rfl
    · cases hmove
  | collecting c =>
    simp only [move?, hstage] at hmove
    split at hmove
    · cases hmove
    · next received t hpoll =>
      cases hmove
      exact secure_receive hstage h hpoll
    · next b t hpoll =>
      cases hmove
      exact secure_work hstage h hpoll
  | working d ticker =>
    simp only [move?, hstage] at hmove
    split at hmove
    · split at hmove
      · cases hmove
        exact secure_of_isEmpty rfl
      · cases hmove
        exact secure_of_isEmpty rfl
    · obtain ⟨⟨ticker', t⟩, htick, heq⟩ := Option.map_eq_some_iff.1 hmove
      cases heq
      unfold CollectionSettings.FitsIn at hfits
      exact secure_tick hstage h hfault (by omega) htick
  | stopped =>
    simp only [move?, hstage] at hmove
    cases hmove
  | broken =>
    simp only [move?, hstage] at hmove
    cases hmove

theorem Secure.pass {instant : Nat} (h : v.Secure s)
    (hwake : ∀ wake, v.wakesAt? s = some wake → instant ≤ wake) :
    v.Secure { s with now := instant } := by
  unfold Secure at h ⊢
  unfold wakesAt? at hwake
  split at h
  · next c hstage =>
    obtain ⟨-, hlease⟩ := h
    rw [hstage] at hwake
    exact ⟨Nat.le_trans (hwake _ rfl) (c.wakesAt_le_deadline _ _), hlease⟩
  · next d ticker hstage =>
    obtain ⟨hholding, hperiod, -, hlease⟩ := h
    rw [hstage] at hwake
    simp only [Ticker.due?, hholding, if_true] at hwake
    exact ⟨hholding, hperiod, Nat.le_trans (hwake _ rfl) (Nat.min_le_left _ _), hlease⟩
  all_goals trivial

end Server

/-! ## Crews -/

namespace Worker

/-- The invariant of whoever consumes a queue. -/
def Secure (w : Worker) (s : Site σ) : Prop :=
  match w with
  | .server v => v.Secure s
  | .drain _ => True

variable {w : Worker} {s t : Site σ}

theorem secure_of_isNew (h : w.isNew = true) : w.Secure s := by
  cases w with
  | server v =>
    have hhands := hands_eq_nothing_of_isNew h
    exact Server.secure_of_isEmpty (congrArg Hands.isEmpty hhands)
  | drain v => trivial

theorem Secure.exists_lease (h : w.Secure s) (hserver : w.isServer = true)
    (hwork : w.hands.isEmpty = false) :
    ∃ expires, s.leases.get? w.post.topic = some ⟨w.post.holder, expires⟩ ∧ s.now < expires := by
  cases w with
  | server v => exact Server.Secure.exists_lease h hwork
  | drain v => cases hserver

theorem Secure.tellToStop (h : w.Secure s) : w.tellToStop.Secure s := by
  cases w with
  | server v => exact h
  | drain v => trivial

theorem Secure.pass {instant : Nat} (h : w.Secure s)
    (hwake : ∀ wake, w.wakesAt? s = some wake → instant ≤ wake) :
    w.Secure { s with now := instant } := by
  cases w with
  | server v => exact Server.Secure.pass h hwake
  | drain v => trivial

theorem Secure.mono (h : w.Secure s) (hnow : t.now = s.now) (httl : t.leases.ttl = s.leases.ttl)
    (hlease : ∀ expires, s.leases.get? w.post.topic = some ⟨w.post.holder, expires⟩ →
      s.now < expires → t.leases.get? w.post.topic = some ⟨w.post.holder, expires⟩) :
    w.Secure t := by
  cases w with
  | server v => exact Server.Secure.mono h hnow httl hlease
  | drain v => trivial

theorem secure_of_move? {r : Worker × Site σ} (h : w.Secure s)
    (hfits : w.post.settings.FitsIn s.leases.ttl) (hfault : s.faults .renew = 0)
    (hmove : w.move? s = some r) : r.1.Secure r.2 := by
  cases w with
  | server v =>
    obtain ⟨r', hmove', rfl⟩ := Option.map_eq_some_iff.1 hmove
    exact Server.secure_of_move? h hfits hfault hmove'
  | drain v =>
    obtain ⟨r', -, rfl⟩ := Option.map_eq_some_iff.1 hmove
    trivial

end Worker

namespace Crew

variable {c c' : Crew σ} {queue : String}

/-- A queue is consumed by servers with a name of its own each, and what they need to collect a
batch fits in the time for which a lease is held. -/
structure IsReplicated (c : Crew σ) (queue : String) : Prop where
  servers : ∀ w ∈ c.workers, w.post.topic = queue →
    w.isServer = true ∧ w.post.settings.FitsIn c.site.leases.ttl
  names : c.workers.Pairwise fun v w =>
    v.post.topic = queue → w.post.topic = queue → v.post.holder ≠ w.post.holder

instance (c : Crew σ) (queue : String) : Decidable (c.IsReplicated queue) :=
  decidable_of_iff (_ ∧ _) ⟨fun h => ⟨h.1, h.2⟩, fun h => ⟨h.servers, h.names⟩⟩

theorem isReplicated_iff :
    c.IsReplicated queue ↔
      (∀ j w, c.Consumes queue j w →
        w.isServer = true ∧ w.post.settings.FitsIn c.site.leases.ttl) ∧
      ∀ i j v w, c.Consumes queue i v → c.Consumes queue j w →
        v.post.holder = w.post.holder → i = j := by
  constructor
  · rintro ⟨hservers, hnames⟩
    refine ⟨fun j w hw => hservers w (List.mem_of_getElem? hw.1) hw.2, ?_⟩
    rintro i j v w ⟨hi, hv⟩ ⟨hj, hw⟩ hholder
    obtain ⟨hilt, rfl⟩ := List.getElem?_eq_some_iff.1 hi
    obtain ⟨hjlt, rfl⟩ := List.getElem?_eq_some_iff.1 hj
    have hne := List.pairwise_iff_getElem.1 hnames
    rcases Nat.lt_trichotomy i j with hlt | heq | hlt
    · exact absurd hholder (hne i j hilt hjlt hlt hv hw)
    · exact heq
    · exact absurd hholder.symm (hne j i hjlt hilt hlt hw hv)
  · rintro ⟨hservers, hnames⟩
    constructor
    · intro w hw htopic
      obtain ⟨j, hj⟩ := List.mem_iff_getElem?.1 hw
      exact hservers j w ⟨hj, htopic⟩
    · refine List.pairwise_iff_getElem.2 fun i j hi hj hlt hv hw hholder => ?_
      have hij := hnames i j _ _ ⟨List.getElem?_eq_getElem hi, hv⟩
        ⟨List.getElem?_eq_getElem hj, hw⟩ hholder
      omega

/-- A crew that will be replicated is so beforehand, with those workers who are there. -/
theorem IsReplicated.before {deeds : List Deed} (h : c.replay? deeds = some c')
    (hreplicated : c'.IsReplicated queue) : c.IsReplicated queue := by
  rw [isReplicated_iff] at hreplicated ⊢
  obtain ⟨hservers, hnames⟩ := hreplicated
  constructor
  · intro j w hw
    obtain ⟨w', hw', hpost, hserver⟩ := hw.later h
    have hfits := hservers j w' hw'
    rwa [hpost, hserver, ttl_of_replay? h] at hfits
  · intro i j v w hv hw hholder
    obtain ⟨v', hv', hvpost, -⟩ := hv.later h
    obtain ⟨w', hw', hwpost, -⟩ := hw.later h
    refine hnames i j v' w' hv' hw' ?_
    rw [hvpost, hwpost, hholder]

def IsSecure (c : Crew σ) (queue : String) : Prop :=
  ∀ j w, c.Consumes queue j w → w.Secure c.site

/-- What is not the turn of a worker leaves it secure. -/
theorem secure_of_perform?_of_ne {d : Deed} (h : c.perform? d = some c')
    (hreplicated : c.IsReplicated queue) {j : Nat} {w : Worker} (hw : c.Consumes queue j w)
    (hcall : d.callsFor queue w.post.holder = false) (hd : d ≠ .move j)
    (hsecure : w.Secure c.site) : w.Secure c'.site := by
  by_cases hpass : ∃ instant, d = .pass instant
  · obtain ⟨instant, rfl⟩ := hpass
    obtain ⟨rfl, -, hwakes⟩ := perform?_pass h
    exact hsecure.pass (hwakes w (List.mem_of_getElem? hw.1))
  · have hnow := now_eq_of_perform? h fun instant hinstant => hpass ⟨instant, hinstant⟩
    refine hsecure.mono hnow (ttl_of_perform? h) fun expires hlease hlive => ?_
    refine get?_of_perform? h hlease hlive ?_ ?_
    · intro i v hi hv htopic hholder
      have hconsumes : c.Consumes queue i v := ⟨hv, htopic.trans hw.2⟩
      have hij := (isReplicated_iff.1 hreplicated).2 i j v w hconsumes hw hholder
      exact hd (hij ▸ hi)
    · rw [hw.2]
      exact hcall

/-- Whatever is done, the servers on a replicated queue stay secure, unless somebody acts in the
name of one of them. -/
theorem isSecure_of_perform? {d : Deed} (h : c.perform? d = some c')
    (hreplicated : c.IsReplicated queue) (hfault : c.site.faults .renew = 0)
    (hcalls : ∀ j w, c.Consumes queue j w → d.callsFor queue w.post.holder = false)
    (hsecure : c.IsSecure queue) : c'.IsSecure queue := by
  rintro j w' ⟨hw', htopic⟩
  rcases origin_of_worker h hw' with ⟨w, hw, ⟨rfl, hmove⟩ | ⟨hd, rfl | rfl⟩⟩ | ⟨rfl, -⟩
  · obtain ⟨hpost, -, -⟩ := Worker.turn hmove
    have hconsumes : c.Consumes queue j w := ⟨hw, hpost ▸ htopic⟩
    have hfits := ((isReplicated_iff.1 hreplicated).1 j w hconsumes).2
    exact Worker.secure_of_move? (hsecure j w hconsumes) hfits hfault hmove
  · have hconsumes : c.Consumes queue j w' := ⟨hw, htopic⟩
    exact secure_of_perform?_of_ne h hreplicated hconsumes (hcalls j w' hconsumes) hd
      (hsecure j w' hconsumes)
  · have hconsumes : c.Consumes queue j w := ⟨hw, w.post_tellToStop ▸ htopic⟩
    have hafter :=
      secure_of_perform?_of_ne h hreplicated hconsumes (hcalls j w hconsumes) hd
        (hsecure j w hconsumes)
    exact hafter.tellToStop
  · obtain ⟨-, hnew, -⟩ := perform?_join h
    exact Worker.secure_of_isNew hnew

/-- **No two servers are at work on one queue**, and whoever is at work holds a live lease, in every
state that a crew can come to. -/
theorem exclusive {site : Site σ} {deeds : List Deed}
    (hrun : ({ site } : Crew σ).replay? deeds = some c) (hreplicated : c.IsReplicated queue)
    (hfault : site.faults .renew = 0) (hfail : ∀ d ∈ deeds, d.fails .renew = false)
    (hcalls : ∀ d ∈ deeds, ∀ w ∈ c.workers, w.post.topic = queue →
      d.callsFor queue w.post.holder = false) :
    (∀ j w, c.Consumes queue j w → w.hands.isEmpty = false →
      c.site.leases.holder? queue c.site.now = some w.post.holder) ∧
    ∀ i j v w, c.Consumes queue i v → c.Consumes queue j w →
      v.hands.isEmpty = false → w.hands.isEmpty = false → i = j := by
  -- The induction is over the deeds.  What is assumed of the last crew holds of every crew before it,
  -- so each single deed starts from a replicated queue.
  have hinvariant : c.site.faults .renew = 0 ∧ c.IsSecure queue := by
    refine replay?_induction (P := fun c => c.site.faults .renew = 0 ∧ c.IsSecure queue) hrun ?_
      ⟨hfault, fun j w hw => by cases hw.1⟩
    rintro before d after hd hperform ⟨rest, hrest⟩ ⟨hfaults, hsecure⟩
    have hreplay : before.replay? (d :: rest) = some c := by
      rw [replay?, hperform]
      exact hrest
    refine ⟨faults_of_perform? hperform hfaults (hfail d hd), ?_⟩
    refine isSecure_of_perform? hperform (hreplicated.before hreplay) hfaults ?_ hsecure
    intro j w hw
    obtain ⟨w', hw', hpost, -⟩ := hw.later hreplay
    rw [← hpost]
    exact hcalls d hd w' (List.mem_of_getElem? hw'.1) hw'.2
  obtain ⟨hservers, hnames⟩ := isReplicated_iff.1 hreplicated
  have hholds : ∀ j w, c.Consumes queue j w → w.hands.isEmpty = false →
      c.site.leases.holder? queue c.site.now = some w.post.holder := by
    intro j w hw hhands
    obtain ⟨expires, hlease, hlive⟩ :=
      (hinvariant.2 j w hw).exists_lease (hservers j w hw).1 hhands
    exact LeaseTable.holder?_eq_some_iff.2 ⟨expires, hw.2 ▸ hlease, hlive⟩
  refine ⟨hholds, fun i j v w hv hw hvhands hwhands => ?_⟩
  have hsame := (hholds i v hv hvhands).symm.trans (hholds j w hw hwhands)
  exact hnames i j v w hv hw (Option.some.inj hsame)

/-- One server renews its lease in the middle of a long step, and another one comes too late. -/
def longStep : List Deed :=
  [.errand (.publish "t" Sample.message (some 3)),
    .join (Sample.server "a" { idlePoll := 3, window := 2 }), .move 0, .pass 3, .move 0, .pass 5,
    .move 0, .pass 9, .move 0, .join (Sample.server "b" { idlePoll := 3, window := 2 }), .move 1,
    .pass 12]

theorem exclusive_longStep :
    ∃ c, ({ site := Sample.site 10 { duration := 100, reply := .outcome .done } } :
        Crew Unit).replay? longStep = some c ∧
      (∀ j w, c.Consumes "t" j w → w.hands.isEmpty = false →
        c.site.leases.holder? "t" c.site.now = some w.post.holder) ∧
      ∀ i j v w, c.Consumes "t" i v → c.Consumes "t" j w →
        v.hands.isEmpty = false → w.hands.isEmpty = false → i = j := by
  have hrun : (({ site := Sample.site 10 { duration := 100, reply := .outcome .done } } :
      Crew Unit).replay? longStep).isSome = true := by decide +kernel
  refine ⟨_, (Option.some_get hrun).symm, exclusive (Option.some_get hrun).symm ?_ rfl ?_ ?_⟩
  · decide +kernel +revert
  · decide +kernel +revert
  · decide +kernel +revert

/-- As `longStep`, with a window that is one millisecond longer. -/
def lateTick : List Deed :=
  [.errand (.publish "t" Sample.message (some 3)),
    .join (Sample.server "a" { idlePoll := 3, window := 3 }), .move 0, .pass 3, .move 0, .pass 6,
    .move 0, .pass 10, .move 0, .join (Sample.server "b" { idlePoll := 3, window := 3 }), .move 1,
    .errand (.publish "t" Sample.message none), .move 1, .pass 13, .move 1]

/-- An exact third of the time for which a lease is held does not do for the first tick: it comes
with the next whole millisecond, when the lease may have just run out and another server sets to work. -/
theorem both_at_work_after_lateTick :
    (3 + 3) * Ticker.nanosPerMilli + Ticker.periodFor 10 < 10 * Ticker.nanosPerMilli ∧
      (({ site := Sample.site 10 { duration := 100, reply := .outcome .done } } :
        Crew Unit).replay? lateTick).map (fun c =>
          c.workers.map fun w => (w.isServer, w.post, w.hands.isEmpty)) =
        some [(true, Sample.post "a" { idlePoll := 3, window := 3 }, false),
          (true, Sample.post "b" { idlePoll := 3, window := 3 }, false)] := by
  decide +kernel

end Crew

end TaskRelay
