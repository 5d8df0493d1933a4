import TaskRelay.Proofs.Worker.Turn

/-!
# What a move of a drain does to the drain

`Turn` follows the messages and tasks that go through a worker's hands.  `Drain.Step` follows the
drain itself: from which stage to which it goes, with which ticks, and where it acquires its lease
or gives it back.  `Drain.step_of_move?` says that every move is such a step, so what holds of a
drain in every move is shown case by case from `Step`.
-/

namespace TaskRelay

variable {σ : Type}

namespace Drain

/-- After the work on a batch has come to a result, gives the lease back because of an error, or begins
to collect with new ticks. -/
inductive GoesOn (v : Drain) (s : Site σ) :
    Except ChannelError (Option Continuation) → Drain → Site σ → Prop where
  | giveUp {result : Except ChannelError (Option Continuation)} (report : DrainReport)
      (e : WorkerError) (faults : Faults) :
    GoesOn v s result { v with report, stage := .ended (.error e) }
      ({ s with faults }.release v.post.topic v.post.holder).2
  | collect {c : Option Continuation} (report : DrainReport) (faults : Faults) :
    GoesOn v s (.ok c)
      { v with report, stage := .collecting (.start s.now (v.waitAfter c)) (Post.ticker s) }
      { s with faults }

inductive Step (v : Drain) (s : Site σ) : Drain → Site σ → Prop where
  | refuse {e : WorkerError} {t : Site σ} (hstage : v.stage = .ready) :
    Step v s { v with stage := .ended (.error e) } t
  | begin {t u : Site σ} {w : Drain} (hstage : v.stage = .ready)
      (hquiet : Site.Quiet v.post s t) (hgoes : GoesOn v t (.ok none) w u) :
    Step v s w u
  | receive {c next : Collection} {ticker : Ticker} {channel : Channel} (faults : Faults)
      (hstage : v.stage = .collecting c ticker)
      (hpoll : c.poll v.post.settings v.post.topic s.now s.channel = (.more next, channel)) :
    Step v s { v with stage := .collecting next ticker } { s with channel, faults }
  /-- A receive could not begin. -/
  | fail {c next : Collection} {ticker : Ticker} {channel : Channel} {e : WorkerError}
      (faults : Faults) (hstage : v.stage = .collecting c ticker)
      (hpoll : c.poll v.post.settings v.post.topic s.now s.channel = (.more next, channel)) :
    Step v s { v with stage := .ended (.error e) }
      ({ s with channel, faults }.release v.post.topic v.post.holder).2
  | tick {c : Collection} {ticker ticker' : Ticker} {t : Site σ}
      (hstage : v.stage = .collecting c ticker)
      (htick : v.post.tick? ticker s = some (ticker', t)) :
    Step v s { v with stage := .collecting c ticker' } t
  /-- No message has come, so there is nothing left to do. -/
  | stop {c : Collection} {ticker : Ticker} {channel : Channel}
      (hstage : v.stage = .collecting c ticker)
      (hpoll : c.poll v.post.settings v.post.topic s.now s.channel = (.closed none, channel)) :
    Step v s
      { v with
        stage := .ended
          (if ticker.holding then .ok v.report else .error (.notLeader v.post.topic)) }
      ({ s with channel }.release v.post.topic v.post.holder).2
  | start {c : Collection} {ticker ticker' : Ticker} {b : Batch} {channel : Channel}
      {d : Site.Dispatch} {held : Bool} {t : Site σ} (hstage : v.stage = .collecting c ticker)
      (hpoll : c.poll v.post.settings v.post.topic s.now s.channel = (.closed (some b), channel))
      (hwork : v.post.work b { s with channel } = (.dispatched d, t)) :
    Step v s { v with stage := .working d ticker' held } t
  /-- The work on a batch has ended at once. -/
  | pass {c : Collection} {ticker : Ticker} {b : Batch} {channel : Channel}
      {result : Except ChannelError (Option Continuation)} {t u : Site σ} {w : Drain}
      (hstage : v.stage = .collecting c ticker)
      (hpoll : c.poll v.post.settings v.post.topic s.now s.channel = (.closed (some b), channel))
      (hwork : v.post.work b { s with channel } = (.ended result, t))
      (hgoes : GoesOn v t result w u) :
    Step v s w u
  | tickAtWork {d : Site.Dispatch} {ticker ticker' : Ticker} {held : Bool} {t : Site σ}
      (hstage : v.stage = .working d ticker held)
      (htick : v.post.tick? ticker s = some (ticker', t)) :
    Step v s { v with stage := .working d ticker' held } t
  | breakOff {d : Site.Dispatch} {ticker : Ticker} {held : Bool} {t : Site σ}
      (hstage : v.stage = .working d ticker held) (hkeeps : Site.Keeps s t) :
    Step v s { v with stage := .broken } t
  | finish {d : Site.Dispatch} {ticker : Ticker} {held : Bool}
      {result : Except ChannelError Continuation} {t u : Site σ} {w : Drain}
      (hstage : v.stage = .working d ticker held) (hend : s.endIteration d = (some result, t))
      (hgoes : GoesOn v t (result.map some) w u) :
    Step v s w u

theorem goesOn_collect (v : Drain) (c : Option Continuation) (s : Site σ) :
    GoesOn v s (.ok c) (v.collect (v.waitAfter c) s).1 (v.collect (v.waitAfter c) s).2 := by
  rw [collect, Post.collect]
  rcases hreceive : v.post.receive (.start s.now (v.waitAfter c)) s with ⟨e | c', t⟩
  · obtain ⟨faults, rfl⟩ := Post.site_of_receive hreceive
    exact .giveUp v.report (.channel e) faults
  · obtain ⟨faults, rfl⟩ := Post.site_of_receive hreceive
    cases Post.eq_of_receive_ok hreceive
    exact .collect v.report faults

theorem collect_of_no_fault {s : Site σ} (h : s.faults .receive = 0) (v : Drain) (wait : Nat) :
    v.collect wait s =
      ({ v with stage := .collecting (.start s.now wait) (Post.ticker s) }, s) := by
  rw [collect, Post.collect, Post.receive_of_no_fault h]
  rfl

theorem idlePoll_le_waitAfter (v : Drain) (c : Option Continuation) :
    v.post.settings.idlePoll ≤ v.waitAfter c := by
  unfold waitAfter
  split
  · exact Nat.le_add_right _ _
  · exact Nat.le_refl _

theorem GoesOn.of_report {v w : Drain} {s t : Site σ} {report : DrainReport}
    {result : Except ChannelError (Option Continuation)}
    (h : GoesOn { v with report } s result w t) : GoesOn v s result w t := by
  cases h with
  | giveUp report' e faults => exact .giveUp report' e faults
  | collect report' faults => exact .collect report' faults

theorem goesOn_next (v : Drain) (held : Bool)
    (result : Except ChannelError (Option Continuation)) (s : Site σ) :
    GoesOn v s result (v.next held result s).1 (v.next held result s).2 := by
  cases result with
  | error e => exact .giveUp v.report (.channel e) s.faults
  | ok c =>
    obtain ⟨report, hcount⟩ : ∃ report, v.count c = { v with report } := by
      cases c with
      | none => exact ⟨v.report, rfl⟩
      | some c => exact ⟨_, rfl⟩
    simp only [next, hcount]
    cases held with
    | false => exact .giveUp report (.notLeader v.post.topic) s.faults
    | true => exact (goesOn_collect { v with report } c s).of_report

theorem step_work {v : Drain} {c : Collection} {ticker : Ticker} {b : Option Batch} {s t : Site σ}
    (hstage : v.stage = .collecting c ticker) (h : v.post.poll? c s = some (.batch b, t)) :
    Step v s (v.work ticker.holding b t).1 (v.work ticker.holding b t).2 := by
  obtain ⟨channel, hpoll, rfl⟩ := Post.poll?_batch h
  cases b with
  | none => exact .stop hstage hpoll
  | some b =>
    rw [work]
    rcases hwork : v.post.work b { s with channel } with ⟨d | result, t⟩
    · exact .start hstage hpoll hwork
    · exact .pass hstage hpoll hwork (v.goesOn_next ticker.holding result t)

theorem step_of_move? {v : Drain} {s : Site σ} {r : Drain × Site σ} (h : v.move? s = some r) :
    Step v s r.1 r.2 := by
  cases hstage : v.stage with
  | ready =>
    have hquiet := Site.quiet_acquire v.post s
    simp only [move?, hstage] at h
    split at h
    · cases h
      exact .refuse hstage
    · cases h
      exact .refuse hstage
    · next t hacquire =>
      rw [hacquire] at hquiet
      cases h
      exact .begin hstage hquiet (v.goesOn_collect none t)
  | collecting c ticker =>
    simp only [move?, hstage] at h
    split at h
    · next received u hpoll =>
      cases h
      obtain ⟨next, channel, hmore, hreceive⟩ := Post.poll?_receiving hpoll
      obtain ⟨faults, rfl⟩ := Post.site_of_receive hreceive
      cases received with
      | ok c' =>
        cases Post.eq_of_receive_ok hreceive
        exact .receive faults hstage hmore
      | error e => exact .fail faults hstage hmore
    · next b u hpoll =>
      cases h
      exact step_work hstage hpoll
    · obtain ⟨⟨ticker', u⟩, htick, heq⟩ := Option.map_eq_some_iff.1 h
      cases heq
      exact .tick hstage htick
  | working d ticker held =>
    simp only [move?, hstage] at h
    split at h
    · split at h
      · next u hend =>
        cases h
        exact .breakOff hstage (Site.keeps_of_endIteration hend)
      · next result u hend =>
        cases h
        exact .finish hstage hend (v.goesOn_next (held && ticker.holding) (result.map some) u)
    · obtain ⟨⟨ticker', u⟩, htick, heq⟩ := Option.map_eq_some_iff.1 h
      cases heq
      exact .tickAtWork hstage htick
  | ended result =>
    simp only [move?, hstage] at h
    cases h
  | broken =>
    simp only [move?, hstage] at h
    cases h

end Drain

end TaskRelay
