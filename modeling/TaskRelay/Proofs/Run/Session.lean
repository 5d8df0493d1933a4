import TaskRelay.Proofs.Run.Relay

/-!
# Runs one after the other

The steps of an engine share a state, and a run leaves it behind for the next one.  In a session runs
are triggered one after the other, each when the one before it is over (`Site.Session`).  If every
run that starts with a fit state completes in the same way and leaves a fit state
(`PlainRun.Routine`), then all runs of a session do, and there are sessions of any length.
-/

namespace TaskRelay

variable {σ : Type}

/-- A run of a session: what it was triggered with, how many iterations it took, and what was seen of
it. -/
structure RunRecord where
  attributes : Headers
  iterations : Nat
  shown : List Observation

/-- A run has taken so many iterations, and this is what was seen of it. -/
structure RunRecord.IsRoutine (run : RunRecord) (p : Pipeline) (n : Nat) (glimpses : List Glimpse)
    (Sees : Context → Prop) : Prop where
  iterations_eq : run.iterations = n
  glimpses_eq : run.shown.map Observation.glimpse = .told p.action .pending :: glimpses
  sees : ∀ context ∈ run.shown.filterMap Observation.context?, Sees context

namespace Site

/-- What has been seen last is the end of a run. -/
def IsOver (s : Site σ) : Prop :=
  ∃ o, s.observations.getLast? = some o ∧ o.isTerminal = true

/-- Runs that are triggered at a post with the same tasks, one after the other, and each of them
driven until it is over.  Between two of them time may pass. -/
inductive Session (p : Post) (tasks : TaskList) : List RunRecord → Site σ → Site σ → Prop
  | none {s : Site σ} : Session p tasks [] s s
  | more {s t u : Site σ} {e : Engine σ} {run : RunRecord} {runs : List RunRecord} {instant : Nat}
      (hle : s.now ≤ instant)
      (hdriven : Driven p e tasks run.attributes run.iterations { s with now := instant } t)
      (hover : t.IsOver) (hshown : t.observations = s.observations ++ run.shown)
      (hlater : Session p tasks runs t u) : Session p tasks (run :: runs) s u

/-- The engine of a post waits for a run, on a reliable site, with a fit state of its steps. -/
def Awaits (p : Post) (pl : Pipeline) (v : Service σ) (Fit : σ → Prop) (s : Site σ) : Prop :=
  ∃ state, Fit state ∧ Serves p pl v state [] s

end Site

/-- Every run with some tasks that starts with a fit state completes in the same way, and leaves a fit
state behind. -/
structure PlainRun.Routine (p : Pipeline) (v : Service σ) (tasks : TaskList) (n : Nat)
    (glimpses : List Glimpse) (Sees : Context → Prop) (Fit : σ → Prop) : Prop where
  completes : ∀ r : PlainRun σ, r.IsSound → r.tasks = .ofList tasks.tasks → Fit r.state →
    r.Completes p v n glimpses Sees Fit
  last : glimpses.getLast? = some (.continued .complete)

open Site PlainRun

variable {p : Post} {pl : Pipeline} {v : Service σ} {e : Engine σ} {tasks : TaskList} {n m : Nat}
  {glimpses : List Glimpse} {Sees : Context → Prop} {Fit : σ → Prop} {attributes : Headers}
  {s t : Site σ}

theorem Observation.eq_of_glimpse {o : Observation} {c : Continuation}
    (h : o.glimpse = .continued c) : o = .continued c := by
  cases o with
  | continued c' =>
    cases h
    rfl
  | report | dispatch => cases h

theorem Observation.not_isTerminal_of_messagesAfter {o : Observation} (h : o.messagesAfter = 1) :
    o.isTerminal = false := by
  cases o with
  | continued c =>
    cases hterminal : c.isTerminal with
    | false => exact hterminal
    | true =>
      rw [messagesAfter, if_pos hterminal] at h
      cases h
  | report | dispatch => rfl

/-- While there is a next iteration, a run is not over. -/
theorem Site.Driven.not_isOver (h : Driven p e tasks attributes m s t) (hround : ∃ u, Round p t u) :
    ¬ t.IsOver := by
  obtain ⟨shown, last, hshown, hlast, -, hpending⟩ := h.exists_shown
  rintro ⟨o, ho, hterminal⟩
  rw [hshown, List.getLast?_append, hlast, Option.some_or] at ho
  cases ho
  rw [h.exists_round_iff, hpending] at hround
  rw [Observation.not_isTerminal_of_messagesAfter hround] at hterminal
  cases hterminal

namespace PlainRun.Routine

variable (h : Routine pl v tasks n glimpses Sees Fit)

include h

/-- A run that is triggered on a fit state goes on for exactly so many iterations, however it is
driven.  Then it is over, and the engine waits for the next one. -/
theorem driven (hs : Awaits p pl v Fit s) (hdriven : Driven p e tasks attributes m s t) :
    m ≤ n ∧ ((∃ u, Round p t u) ↔ m < n) ∧ (t.IsOver ↔ m = n) ∧
      (m = n → Awaits p pl v Fit t ∧ ∃ shown, t.observations = s.observations ++ shown ∧
        RunRecord.IsRoutine ⟨attributes, m, shown⟩ pl n glimpses Sees) := by
  obtain ⟨state, hfit, hserves⟩ := hs
  cases hdriven.engine.symm.trans hserves.engine
  have hcompletes := h.completes (.start s { pipeline := pl, service := v, state } tasks attributes)
    (isSound_start _ _ _ _) rfl hfit
  obtain ⟨hle, hmore⟩ := hdriven.ends_after hcompletes.goesOn hcompletes.ended
  obtain ⟨-, -, hstart⟩ := hdriven.follows_start
  obtain ⟨-, hseen, hfollows⟩ := hdriven.follows
  have hend : m = n → t.IsOver ∧ Awaits p pl v Fit t ∧
      ∃ shown, t.observations = s.observations ++ shown ∧
        RunRecord.IsRoutine ⟨attributes, m, shown⟩ pl n glimpses Sees := by
    rintro rfl
    rw [hcompletes.ended] at hfollows
    obtain ⟨hreliable, hengine⟩ := hdriven.rounds.leaves hstart hdriven.topic
    refine ⟨?_, ⟨_, hcompletes.left, hreliable, hengine, hfollows⟩, _, hseen, rfl, ?_, ?_⟩
    · have hlast := h.last
      rw [← hcompletes.glimpses_eq, List.getLast?_map] at hlast
      obtain ⟨o, ho, hcomplete⟩ := Option.map_eq_some_iff.1 hlast
      refine ⟨o, ?_, by rw [Observation.eq_of_glimpse hcomplete]; rfl⟩
      rw [hseen, List.getLast?_append, List.getLast?_cons, ho]
      rfl
    · rw [List.map_cons, hcompletes.glimpses_eq]
      rfl
    · exact hcompletes.sees
  refine ⟨hle, hmore, ⟨fun hover => ?_, fun heq => (hend heq).1⟩, fun heq => (hend heq).2⟩
  rcases Nat.lt_or_eq_of_le hle with hlt | heq
  · exact absurd hover (hdriven.not_isOver (hmore.2 hlt))
  · exact heq

/-- All runs of a session complete in the same way. -/
theorem session {u : Site σ} {runs : List RunRecord} (hs : Awaits p pl v Fit s)
    (hsession : Session p tasks runs s u) :
    Awaits p pl v Fit u ∧ ∀ run ∈ runs, run.IsRoutine pl n glimpses Sees := by
  induction hsession with
  | none => exact ⟨hs, nofun⟩
  | @more s t u e run runs instant hle hdriven hover hshown hlater ih =>
    obtain ⟨state, hfit, hserves⟩ := hs
    obtain ⟨-, -, hiff, hend⟩ := h.driven ⟨state, hfit, hserves.pass instant⟩ hdriven
    obtain ⟨hawaits, shown, hseen, hroutine⟩ := hend (hiff.1 hover)
    obtain ⟨hlast, hruns⟩ := ih hawaits
    refine ⟨hlast, ?_⟩
    cases List.append_cancel_left (hshown.symm.trans hseen)
    intro run' hmem
    rcases List.mem_cons.1 hmem with rfl | hmem
    · exact hroutine
    · exact hruns run' hmem

/-- Whatever the runs are triggered with, there is such a session. -/
theorem exists_session (htopic : pl.topic = p.topic) (hs : Awaits p pl v Fit s)
    (given : List Headers) :
    ∃ runs u, Session p tasks runs s u ∧ runs.map RunRecord.attributes = given := by
  induction given generalizing s with
  | nil => exact ⟨[], s, .none, rfl⟩
  | cons attributes given ih =>
    obtain ⟨state, hfit, hserves⟩ := hs
    have hcompletes := h.completes (.start s { pipeline := pl, service := v, state } tasks attributes)
      (isSound_start _ _ _ _) rfl hfit
    obtain ⟨t, hdriven⟩ := exists_driven tasks attributes hserves.reliable hserves.engine htopic
      hserves.messages n hcompletes.goesOn
    obtain ⟨-, -, hiff, hend⟩ := h.driven ⟨state, hfit, hserves⟩ hdriven
    obtain ⟨hawaits, shown, hseen, hroutine⟩ := hend rfl
    obtain ⟨runs, u, hlater, hgiven⟩ := ih hawaits
    exact ⟨⟨attributes, n, shown⟩ :: runs, u,
      .more (Nat.le_refl _) hdriven (hiff.2 rfl) hseen hlater, congrArg (attributes :: ·) hgiven⟩

end PlainRun.Routine

end TaskRelay
