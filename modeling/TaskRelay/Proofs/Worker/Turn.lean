import TaskRelay.Proofs.Lease
import TaskRelay.Proofs.Site.Frame
import TaskRelay.Worker.Drain
import TaskRelay.Worker.Server

/-!
# What a move of a worker does

Servers and drains differ in when they see to their lease and in when they stop.  What they do with
messages and tasks is the same, and `Turn` lists it once for both: a worker begins to collect,
takes a message, closes its batch and has a step called, or ends a call.  Everything else that a
move does is `Quiet`: it touches the leases, under the name of the worker, and uses up faults.
`Server.turn` and `Drain.turn` say that every move is such a turn.
-/

namespace TaskRelay

variable {σ : Type}

/-! ## Quiet calls -/

namespace Site

/-- Nothing but the leases has changed, by calls of the worker at a post, and no faults have come
up. -/
def Quiet (p : Post) (s t : Site σ) : Prop :=
  ∃ leases faults, t = { s with leases, faults } ∧
    LeaseTable.Calls p.topic p.holder s.now s.leases leases ∧ ∀ o, faults o ≤ s.faults o

namespace Quiet

variable {p : Post} {s t u : Site σ}

theorem refl (p : Post) (s : Site σ) : Quiet p s s :=
  ⟨s.leases, s.faults, rfl, .none, fun _ => Nat.le_refl _⟩

theorem trans (h₁ : Quiet p s t) (h₂ : Quiet p t u) : Quiet p s u := by
  obtain ⟨leases₁, faults₁, rfl, hcalls₁, hfaults₁⟩ := h₁
  obtain ⟨leases₂, faults₂, rfl, hcalls₂, hfaults₂⟩ := h₂
  exact ⟨leases₂, faults₂, rfl, hcalls₁.trans hcalls₂,
    fun o => Nat.le_trans (hfaults₂ o) (hfaults₁ o)⟩

theorem now_eq (h : Quiet p s t) : t.now = s.now := by
  obtain ⟨_, _, rfl, _⟩ := h
  rfl

theorem channel_eq (h : Quiet p s t) : t.channel = s.channel := by
  obtain ⟨_, _, rfl, _⟩ := h
  rfl

theorem roles_eq (h : Quiet p s t) : t.roles = s.roles := by
  obtain ⟨_, _, rfl, _⟩ := h
  rfl

theorem issued_eq (h : Quiet p s t) : t.issued = s.issued := by
  obtain ⟨_, _, rfl, _⟩ := h
  rfl

theorem calls (h : Quiet p s t) :
    LeaseTable.Calls p.topic p.holder s.now s.leases t.leases := by
  obtain ⟨_, _, rfl, hcalls, _⟩ := h
  exact hcalls

theorem faults_le (h : Quiet p s t) (o : Operation) : t.faults o ≤ s.faults o := by
  obtain ⟨_, _, rfl, _, hfaults⟩ := h
  exact hfaults o

end Quiet

theorem call_eq (s : Site σ) (o : Operation) :
    ∃ faults, (s.call o).2 = { s with faults } ∧ ∀ o', faults o' ≤ s.faults o' := by
  unfold call
  split
  · exact ⟨s.faults, rfl, fun _ => Nat.le_refl _⟩
  · next count h =>
    refine ⟨_, rfl, fun o' => ?_⟩
    by_cases ho : o' = o
    · simp [ho, h]
    · simp [ho]

theorem quiet_call (p : Post) (s : Site σ) (o : Operation) : Quiet p s (s.call o).2 := by
  obtain ⟨faults, heq, hle⟩ := call_eq s o
  exact ⟨s.leases, faults, heq, .none, hle⟩

theorem quiet_acquire (p : Post) (s : Site σ) : Quiet p s (s.acquire p.topic p.holder).2 := by
  have hcall := quiet_call p s .acquire
  rw [acquire]
  generalize s.call .acquire = called at hcall ⊢
  obtain ⟨_ | _, t⟩ := called
  · exact hcall.trans ⟨_, t.faults, rfl, .acquire .none, fun _ => Nat.le_refl _⟩
  · exact hcall

theorem quiet_renew (p : Post) (s : Site σ) : Quiet p s (s.renew p.topic p.holder).2 := by
  have hcall := quiet_call p s .renew
  rw [renew]
  generalize s.call .renew = called at hcall ⊢
  obtain ⟨_ | _, t⟩ := called
  · exact hcall.trans ⟨_, t.faults, rfl, .renew .none, fun _ => Nat.le_refl _⟩
  · exact hcall

theorem quiet_release (p : Post) (s : Site σ) : Quiet p s (s.release p.topic p.holder).2 := by
  have hcall := quiet_call p s .release
  rw [release]
  generalize s.call .release = called at hcall ⊢
  obtain ⟨_ | _, t⟩ := called
  · exact hcall.trans ⟨_, t.faults, rfl, .release .none, fun _ => Nat.le_refl _⟩
  · exact hcall

theorem quiet_beginReceive (p : Post) (s : Site σ) (topic : String) :
    Quiet p s (s.beginReceive topic).2 := by
  have hcall := quiet_call p s .receive
  rw [beginReceive]
  generalize s.call .receive = called at hcall ⊢
  obtain ⟨_ | _, t⟩ := called
  · exact hcall
  · exact hcall

theorem beginReceive_of_no_fault {s : Site σ} (h : s.faults .receive = 0) (topic : String) :
    s.beginReceive topic = (.ok (), s) := by
  rw [beginReceive, call_eq_of_no_fault h]

end Site

open Site (Quiet)

namespace Post

theorem quiet_renew (p : Post) (s : Site σ) : Quiet p s (p.renew s).2 := by
  have hrenew := Site.quiet_renew p s
  rw [renew]
  generalize s.renew p.topic p.holder = renewed at hrenew ⊢
  obtain ⟨_ | _, t⟩ := renewed
  · exact hrenew
  · exact hrenew

theorem quiet_tick? {p : Post} {t t' : Ticker} {s s' : Site σ}
    (h : p.tick? t s = some (t', s')) : Quiet p s s' := by
  rw [ tick?] at h
  split at h
  · cases h
    exact quiet_renew p s
  · cases h

theorem receive_eq (p : Post) (c : Collection) (s : Site σ) :
    p.receive c s = ((s.beginReceive p.topic).1.map fun _ => c, (s.beginReceive p.topic).2) := by
  rw [receive]
  generalize s.beginReceive p.topic = begun
  obtain ⟨_ | _, t⟩ := begun
  · rfl
  · rfl

/-- A receive that begins, or fails to, uses up a fault at most. -/
theorem site_of_receive {p : Post} {c : Collection} {s t : Site σ}
    {r : Except ChannelError Collection} (h : p.receive c s = (r, t)) :
    ∃ faults, t = { s with faults } := by
  obtain ⟨faults, hcall, -⟩ := Site.call_eq s .receive
  refine ⟨faults, ?_⟩
  rw [receive_eq, Site.beginReceive] at h
  generalize s.call .receive = called at h hcall
  obtain ⟨_ | _, u⟩ := called
  · cases h
    exact hcall
  · cases h
    exact hcall

theorem quiet_receive (p : Post) (c : Collection) (s : Site σ) : Quiet p s (p.receive c s).2 := by
  rw [receive_eq]
  exact Site.quiet_beginReceive p s p.topic

theorem receive_of_no_fault {s : Site σ} (h : s.faults .receive = 0) (p : Post) (c : Collection) :
    p.receive c s = (.ok c, s) := by
  rw [receive_eq, Site.beginReceive_of_no_fault h]
  rfl

theorem eq_of_receive_ok {p : Post} {c c' : Collection} {s t : Site σ}
    (h : p.receive c s = (.ok c', t)) : c' = c := by
  rw [receive_eq] at h
  generalize s.beginReceive p.topic = begun at h
  obtain ⟨_ | _, t⟩ := begun
  · cases h
  · cases h
    rfl

/-- A collection that goes on has taken a message, and has begun another receive or failed to. -/
theorem poll?_receiving {p : Post} {c : Collection} {s t : Site σ}
    {r : Except ChannelError Collection} (h : p.poll? c s = some (.receiving r, t)) :
    ∃ next channel, c.poll p.settings p.topic s.now s.channel = (.more next, channel) ∧
      p.receive next { s with channel } = (r, t) := by
  rw [ poll?] at h
  split at h
  · cases h
  · next next channel hpoll =>
    cases h
    exact ⟨next, channel, hpoll, rfl⟩
  · cases h

theorem poll?_of_more {p : Post} {c next : Collection} {s : Site σ} {channel : Channel}
    (hpoll : c.poll p.settings p.topic s.now s.channel = (.more next, channel))
    (hfault : s.faults .receive = 0) :
    p.poll? c s = some (.receiving (.ok next), { s with channel }) := by
  rw [ poll?, hpoll]
  simp only
  rw [receive_of_no_fault (by exact hfault)]

theorem poll?_of_closed {p : Post} {c : Collection} {s : Site σ} {b : Option Batch}
    {channel : Channel} (hpoll : c.poll p.settings p.topic s.now s.channel = (.closed b, channel)) :
    p.poll? c s = some (.batch b, { s with channel }) := by
  rw [ poll?, hpoll]

theorem poll?_batch {p : Post} {c : Collection} {s t : Site σ} {b : Option Batch}
    (h : p.poll? c s = some (.batch b, t)) :
    ∃ channel, c.poll p.settings p.topic s.now s.channel = (.closed b, channel) ∧
      t = { s with channel } := by
  rw [ poll?] at h
  split at h
  · cases h
  · cases h
  · next b channel hpoll =>
    cases h
    exact ⟨channel, hpoll, rfl⟩

end Post

/-! ## Turns -/

/-- What a worker has in its hands. -/
inductive Hands where
  | nothing
  | collecting (c : Collection)
  | working (d : Site.Dispatch)

def Hands.isEmpty : Hands → Bool
  | .nothing => true
  | .collecting _ | .working _ => false

/-- Nothing, or a collection that has just begun. -/
inductive Hands.IsFresh (now : Nat) : Hands → Prop
  | nothing : IsFresh now .nothing
  | collecting (wait : Nat) : IsFresh now (.collecting (.start now wait))

/-- What the worker at a post does in one move with what it has in its hands. -/
inductive Turn (p : Post) (s : Site σ) : Hands → Hands → Site σ → Prop
  | stay {h : Hands} {t : Site σ} (hquiet : Quiet p s t)
      (hbusy : ∀ d, h = .working d → s.now < d.ends) : Turn p s h h t
  | begin {h : Hands} {t : Site σ} (hquiet : Quiet p s t) (hfresh : h.IsFresh s.now) :
      Turn p s .nothing h t
  | take {c next : Collection} {channel : Channel} {t : Site σ}
      (hpoll : c.poll p.settings p.topic s.now s.channel = (.more next, channel))
      (hquiet : Quiet p { s with channel } t) :
      Turn p s (.collecting c) (.collecting next) t
  /-- The next receive could not begin: the batch in the making is lost. -/
  | drop {c next : Collection} {channel : Channel} {t : Site σ}
      (hpoll : c.poll p.settings p.topic s.now s.channel = (.more next, channel))
      (hfault : s.faults .receive ≠ 0) (hquiet : Quiet p { s with channel } t) :
      Turn p s (.collecting c) .nothing t
  | giveUp {c : Collection} {channel : Channel} {t : Site σ}
      (hpoll : c.poll p.settings p.topic s.now s.channel = (.closed none, channel))
      (hquiet : Quiet p { s with channel } t) :
      Turn p s (.collecting c) .nothing t
  | start {c : Collection} {b : Batch} {channel : Channel} {d : Site.Dispatch} {t : Site σ}
      (hpoll : c.poll p.settings p.topic s.now s.channel = (.closed (some b), channel))
      (hwork : p.work b { s with channel } = (.dispatched d, t)) :
      Turn p s (.collecting c) (.working d) t
  | pass {c : Collection} {b : Batch} {channel : Channel} {h : Hands} {t u : Site σ}
      {result : Except ChannelError (Option Continuation)}
      (hpoll : c.poll p.settings p.topic s.now s.channel = (.closed (some b), channel))
      (hwork : p.work b { s with channel } = (.ended result, u))
      (hquiet : Quiet p u t) (hfresh : h.IsFresh u.now) :
      Turn p s (.collecting c) h t
  | finish {d : Site.Dispatch} {h : Hands} {t u : Site σ}
      {result : Option (Except ChannelError Continuation)} (hends : d.ends ≤ s.now)
      (hend : s.endIteration d = (result, u)) (hquiet : Quiet p u t) (hfresh : h.IsFresh u.now) :
      Turn p s (.working d) h t

namespace Post

variable {p : Post} {c c' : Collection} {s t u : Site σ}

theorem isFresh_collect {wait : Nat} (h : p.collect wait s = (.ok c, t)) :
    (Hands.collecting c).IsFresh s.now := by
  have hc := eq_of_receive_ok h
  subst hc
  exact .collecting wait

theorem quiet_collect (p : Post) (wait : Nat) (s : Site σ) : Quiet p s (p.collect wait s).2 :=
  quiet_receive p (.start s.now wait) s

theorem turn_received (h : p.poll? c s = some (.receiving (.ok c'), t)) :
    Turn p s (.collecting c) (.collecting c') t := by
  obtain ⟨next, channel, hpoll, hreceive⟩ := poll?_receiving h
  have hquiet := quiet_receive p next { s with channel }
  rw [hreceive] at hquiet
  have hc' := eq_of_receive_ok hreceive
  subst hc'
  exact .take hpoll hquiet

theorem turn_failed {e : ChannelError} (h : p.poll? c s = some (.receiving (.error e), t))
    (hafter : Quiet p t u) : Turn p s (.collecting c) .nothing u := by
  obtain ⟨next, channel, hpoll, hreceive⟩ := poll?_receiving h
  have hquiet := quiet_receive p next { s with channel }
  rw [hreceive] at hquiet
  refine .drop hpoll ?_ (hquiet.trans hafter)
  intro hfault
  rw [receive_of_no_fault (s := { s with channel }) hfault] at hreceive
  cases hreceive

end Post

/-! ## Servers -/

namespace Server

def hands (v : Server) : Hands :=
  match v.stage with
  | .collecting c => .collecting c
  | .working d _ => .working d
  | .ready | .pausing _ | .stopped | .broken => .nothing

theorem collect_spec (v : Server) (s : Site σ) :
    (v.collect s).1.post = v.post ∧ (v.collect s).1.hands.IsFresh s.now ∧
      Quiet v.post s (v.collect s).2 := by
  have hquiet := Post.quiet_collect v.post v.post.settings.idlePoll s
  rw [collect]
  rcases hcollect : v.post.collect v.post.settings.idlePoll s with ⟨e | c, t⟩
  · rw [hcollect] at hquiet
    exact ⟨rfl, .nothing, hquiet⟩
  · rw [hcollect] at hquiet
    exact ⟨rfl, Post.isFresh_collect hcollect, hquiet⟩

theorem turn_collect (v : Server) {s t : Site σ} (hquiet : Quiet v.post s t) :
    (v.collect t).1.post = v.post ∧ Turn v.post s .nothing (v.collect t).1.hands (v.collect t).2 := by
  obtain ⟨hpost, hfresh, hcollect⟩ := v.collect_spec t
  exact ⟨hpost, .begin (hquiet.trans hcollect) (hquiet.now_eq ▸ hfresh)⟩

theorem turn_stop (v : Server) (s : Site σ) :
    (v.stop s).1.post = v.post ∧ Turn v.post s .nothing (v.stop s).1.hands (v.stop s).2 := by
  rw [stop]
  split
  · exact ⟨rfl, .stay (Site.quiet_release v.post s) nofun⟩
  · exact ⟨rfl, .stay (.refl v.post s) nofun⟩

theorem turn_work {v : Server} {c : Collection} {b : Option Batch} {s t : Site σ}
    (h : v.post.poll? c s = some (.batch b, t)) :
    (v.work b t).1.post = v.post ∧
      Turn v.post s (.collecting c) (v.work b t).1.hands (v.work b t).2 := by
  obtain ⟨channel, hpoll, rfl⟩ := Post.poll?_batch h
  cases b with
  | none => exact ⟨rfl, .giveUp hpoll (.refl _ _)⟩
  | some b =>
    rw [work]
    rcases hwork : v.post.work b { s with channel } with ⟨d | result, t⟩
    · exact ⟨rfl, .start hpoll hwork⟩
    · exact ⟨rfl, .pass hpoll hwork (.refl _ _) .nothing⟩

theorem turn {v : Server} {s : Site σ} {r : Server × Site σ} (h : v.move? s = some r) :
    r.1.post = v.post ∧ Turn v.post s v.hands r.1.hands r.2 := by
  obtain ⟨post, leaseRetry, stopping, leading, stage⟩ := v
  cases stage with
  | ready =>
    simp only [move?] at h
    split at h
    · cases h
      exact turn_stop _ s
    · split at h
      · have hrenew := Post.quiet_renew post s
        split at h
        · next t heq =>
          rw [heq] at hrenew
          cases h
          exact turn_collect _ hrenew
        · next t heq =>
          rw [heq] at hrenew
          cases h
          exact ⟨rfl, .stay hrenew nofun⟩
      · have hacquire := Site.quiet_acquire post s
        split at h
        · next t heq =>
          rw [heq] at hacquire
          cases h
          exact turn_collect { post, leaseRetry, stopping, leading := true } hacquire
        · next t heq =>
          rw [heq] at hacquire
          cases h
          exact ⟨rfl, .stay hacquire nofun⟩
        · next e t heq =>
          rw [heq] at hacquire
          cases h
          exact ⟨rfl, .stay hacquire nofun⟩
  | pausing wake =>
    simp only [move?] at h
    split at h
    · cases h
      exact ⟨rfl, .stay (.refl _ _) nofun⟩
    · cases h
  | collecting c =>
    simp only [move?] at h
    split at h
    · cases h
    · next received t hpoll =>
      cases h
      cases received with
      | ok c' => exact ⟨rfl, Post.turn_received hpoll⟩
      | error e => exact ⟨rfl, Post.turn_failed hpoll (.refl _ _)⟩
    · next b t hpoll =>
      cases h
      exact turn_work hpoll
  | working d t =>
    simp only [move?] at h
    split at h
    · next hends =>
      split at h
      · next u hend =>
        cases h
        exact ⟨rfl, .finish hends hend (.refl _ _) .nothing⟩
      · next result u hend =>
        cases h
        exact ⟨rfl, .finish hends hend (.refl _ _) .nothing⟩
    · obtain ⟨⟨t', u⟩, htick, heq⟩ := Option.map_eq_some_iff.1 h
      cases heq
      exact ⟨rfl, .stay (Post.quiet_tick? htick) (by rintro _ ⟨⟩; omega)⟩
  | stopped => cases h
  | broken => cases h

end Server

/-! ## Drains -/

namespace Drain

def hands (v : Drain) : Hands :=
  match v.stage with
  | .collecting c _ => .collecting c
  | .working d _ _ => .working d
  | .ready | .ended _ | .broken => .nothing

theorem quiet_finish (v : Drain) (result : Except WorkerError DrainReport) (s : Site σ) :
    Quiet v.post s (v.finish result s).2 :=
  Site.quiet_release v.post s

theorem collect_spec (v : Drain) (wait : Nat) (s : Site σ) :
    (v.collect wait s).1.post = v.post ∧ (v.collect wait s).1.hands.IsFresh s.now ∧
      Quiet v.post s (v.collect wait s).2 := by
  have hquiet := Post.quiet_collect v.post wait s
  rw [collect]
  rcases hcollect : v.post.collect wait s with ⟨e | c, t⟩
  · rw [hcollect] at hquiet
    exact ⟨rfl, .nothing, hquiet.trans (v.quiet_finish _ t)⟩
  · rw [hcollect] at hquiet
    exact ⟨rfl, Post.isFresh_collect hcollect, hquiet⟩

theorem post_count (v : Drain) (c : Option Continuation) : (v.count c).post = v.post := by
  cases c <;> rfl

theorem next_spec (v : Drain) (held : Bool)
    (result : Except ChannelError (Option Continuation)) (s : Site σ) :
    (v.next held result s).1.post = v.post ∧ (v.next held result s).1.hands.IsFresh s.now ∧
      Quiet v.post s (v.next held result s).2 := by
  cases result with
  | error e => exact ⟨rfl, .nothing, v.quiet_finish _ s⟩
  | ok c =>
    have hpost := post_count v c
    cases held with
    | false =>
      refine ⟨hpost, .nothing, ?_⟩
      rw [← hpost]
      exact (v.count c).quiet_finish _ s
    | true =>
      obtain ⟨hcollect, hfresh, hquiet⟩ := (v.count c).collect_spec ((v.count c).waitAfter c) s
      exact ⟨hcollect.trans hpost, hfresh, hpost ▸ hquiet⟩

theorem turn_work {v : Drain} {held : Bool} {c : Collection} {b : Option Batch} {s t : Site σ}
    (h : v.post.poll? c s = some (.batch b, t)) :
    (v.work held b t).1.post = v.post ∧
      Turn v.post s (.collecting c) (v.work held b t).1.hands (v.work held b t).2 := by
  obtain ⟨channel, hpoll, rfl⟩ := Post.poll?_batch h
  cases b with
  | none => exact ⟨rfl, .giveUp hpoll (v.quiet_finish _ _)⟩
  | some b =>
    rw [work]
    rcases hwork : v.post.work b { s with channel } with ⟨d | result, t⟩
    · exact ⟨rfl, .start hpoll hwork⟩
    · obtain ⟨hpost, hfresh, hquiet⟩ := v.next_spec held result t
      exact ⟨hpost, .pass hpoll hwork hquiet hfresh⟩

theorem turn {v : Drain} {s : Site σ} {r : Drain × Site σ} (h : v.move? s = some r) :
    r.1.post = v.post ∧ Turn v.post s v.hands r.1.hands r.2 := by
  obtain ⟨post, report, stage⟩ := v
  cases stage with
  | ready =>
    have hacquire := Site.quiet_acquire post s
    simp only [move?] at h
    split at h
    · next e t heq =>
      rw [heq] at hacquire
      cases h
      exact ⟨rfl, .stay hacquire nofun⟩
    · next t heq =>
      rw [heq] at hacquire
      cases h
      exact ⟨rfl, .stay hacquire nofun⟩
    · next t heq =>
      rw [heq] at hacquire
      cases h
      obtain ⟨hpost, hfresh, hquiet⟩ :=
        collect_spec { post, report, stage := .ready } post.settings.idlePoll t
      exact ⟨hpost, .begin (hacquire.trans hquiet) (hacquire.now_eq ▸ hfresh)⟩
  | collecting c t =>
    simp only [move?] at h
    split at h
    · next received u hpoll =>
      cases h
      cases received with
      | ok c' => exact ⟨rfl, Post.turn_received hpoll⟩
      | error e => exact ⟨rfl, Post.turn_failed hpoll (quiet_finish _ _ u)⟩
    · next b u hpoll =>
      cases h
      exact turn_work hpoll
    · obtain ⟨⟨t', u⟩, htick, heq⟩ := Option.map_eq_some_iff.1 h
      cases heq
      exact ⟨rfl, .stay (Post.quiet_tick? htick) nofun⟩
  | working d t held =>
    simp only [move?] at h
    split at h
    · next hends =>
      split at h
      · next u hend =>
        cases h
        exact ⟨rfl, .finish hends hend (.refl _ _) .nothing⟩
      · next result u hend =>
        cases h
        obtain ⟨hpost, hfresh, hquiet⟩ :=
          next_spec { post, report, stage := .working d t held } (held && t.holding)
            (result.map some) u
        exact ⟨hpost, .finish hends hend hquiet hfresh⟩
    · obtain ⟨⟨t', u⟩, htick, heq⟩ := Option.map_eq_some_iff.1 h
      cases heq
      exact ⟨rfl, .stay (Post.quiet_tick? htick) (by rintro _ ⟨⟩; omega)⟩
  | ended result => cases h
  | broken => cases h

end Drain

/-! ## What a turn leaves alone -/

namespace Site

/-- Clock and engines stay as they are, no faults come up, and the leases change by calls of the
worker at a post only. -/
structure Tends (p : Post) (s t : Site σ) : Prop where
  now_eq : t.now = s.now
  calls : LeaseTable.Calls p.topic p.holder s.now s.leases t.leases
  roles_eq : t.roles = s.roles
  faults_le : ∀ o, t.faults o ≤ s.faults o

theorem Keeps.tends {s t : Site σ} (h : Keeps s t) (p : Post) : Tends p s t :=
  ⟨h.now_eq, h.leases_eq ▸ .none, h.roles_eq, h.faults_le⟩

theorem Quiet.tends {p : Post} {s t : Site σ} (h : Quiet p s t) : Tends p s t :=
  ⟨h.now_eq, h.calls, h.roles_eq, h.faults_le⟩

theorem Tends.trans {p : Post} {s t u : Site σ} (h₁ : Tends p s t) (h₂ : Tends p t u) :
    Tends p s u :=
  ⟨h₂.now_eq.trans h₁.now_eq, h₁.calls.trans (h₁.now_eq ▸ h₂.calls),
    h₂.roles_eq.trans h₁.roles_eq, fun o => Nat.le_trans (h₂.faults_le o) (h₁.faults_le o)⟩

theorem keeps_channel (s : Site σ) (channel : Channel) : Keeps s { s with channel } :=
  ⟨rfl, rfl, rfl, fun _ => Nat.le_refl _⟩

end Site

theorem Post.work_of_dispatched {p : Post} {b : Batch} {s t : Site σ} {e : Engine σ}
    {d : Site.Dispatch} (hrejected : b.isRejectedOnly = false)
    (hengine : s.engines[p.engine]? = some e)
    (hbegin : s.beginIteration p.engine e b = (.dispatched d, t)) :
    p.work b s = (.dispatched d, t) := by
  rw [work, hrejected, hengine]
  simp only [hbegin]
  rfl

theorem Post.keeps_work (p : Post) (b : Batch) (s : Site σ) : Site.Keeps s (p.work b s).2 := by
  rw [work]
  split
  · exact .refl s
  · split
    · exact .refl s
    · next e he =>
      have hbegin := Site.keeps_beginIteration he b
      split
      · next d t heq => rw [heq] at hbegin; exact hbegin
      · next result t heq => rw [heq] at hbegin; exact hbegin

theorem Post.keeps_of_work {p : Post} {b : Batch} {s t : Site σ} {channel : Channel}
    {started : Post.Started} (h : p.work b { s with channel } = (started, t)) :
    Site.Keeps s t := by
  have hkeeps := p.keeps_work b { s with channel }
  rw [h] at hkeeps
  exact (Site.keeps_channel s channel).trans hkeeps

theorem Turn.tends {p : Post} {s t : Site σ} {before after : Hands}
    (h : Turn p s before after t) : Site.Tends p s t := by
  cases h with
  | stay hquiet hbusy => exact hquiet.tends
  | begin hquiet hfresh => exact hquiet.tends
  | take hpoll hquiet => exact ((Site.keeps_channel s _).tends p).trans hquiet.tends
  | drop hpoll hfault hquiet => exact ((Site.keeps_channel s _).tends p).trans hquiet.tends
  | giveUp hpoll hquiet => exact ((Site.keeps_channel s _).tends p).trans hquiet.tends
  | start hpoll hwork => exact (Post.keeps_of_work hwork).tends p
  | pass hpoll hwork hquiet hfresh =>
    exact ((Post.keeps_of_work hwork).tends p).trans hquiet.tends
  | finish hends hend hquiet hfresh =>
    exact ((Site.keeps_of_endIteration hend).tends p).trans hquiet.tends

end TaskRelay
