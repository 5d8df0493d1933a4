import Mathlib.Data.List.Chain
import TaskRelay.Proofs.Run.Calls
import TaskRelay.Proofs.Site.Posting

/-!
# The protocol of a run

Whatever its steps do, a run keeps to a protocol.  It is reported as pending; then steps start and
tasks are given up; and in the end the run is reported, once, as complete or as failed.  What is
reported about a task stands next to the call of its step (`Observation.Precedes`).  On its topic
there is one message as long as the run goes on, and none afterwards.

`Course` says this of a part of a run.  It holds of each single iteration (`Call.Shows.course`), and
parts of which the first one has not ended the run can be put together (`Course.append`).
-/

namespace TaskRelay

variable {σ : Type}

/-! ## What is seen -/

namespace Observation

def state? : Observation → Option JobState
  | .report _ _ n => some n.state
  | .dispatch _ | .continued _ => none

def context? : Observation → Option Context
  | .dispatch context => some context
  | .report _ _ _ | .continued _ => none

/-- Whether a step is called with a task of which no sub-step is done and that has not been put back
yet. -/
def isFirst : Observation → Bool
  | .dispatch context => context.task.subStep == 0 && context.loopCounter == 0
  | .report _ _ _ | .continued _ => false

def isTerminal : Observation → Bool
  | .continued c => c.isTerminal
  | .report _ _ _ | .dispatch _ => false

/-- Something is reported to have come to a state. -/
def Tells (o : Observation) (action : String) (state : JobState) : Prop :=
  ∃ id domain detail, o = .report id domain { action, state, detail }

/-- Whether something may be seen right before something else. -/
structure Precedes (a b : Observation) : Prop where
  /-- Nothing comes after the end of a run. -/
  goesOn : a.isTerminal = false
  /-- After the start of a step comes the call, the first one of its task. -/
  started : ∀ action, a.Tells action .started → ∃ context, b = .dispatch context ∧
    b.isFirst = true ∧ context.task.destination = action
  /-- Before the first call of a task comes the start of its step. -/
  first : ∀ context, b = .dispatch context → b.isFirst = true →
    a.Tells context.task.destination .started
  /-- A task is given up, or its step fails, right after the call. -/
  verdict : ∀ action, b.Tells action .timeout ∨ b.Tells action .failed →
    ∃ context, a = .dispatch context ∧ context.task.destination = action

theorem Tells.state?_eq {o : Observation} {action : String} {state : JobState}
    (h : o.Tells action state) : o.state? = some state := by
  obtain ⟨id, domain, detail, rfl⟩ := h
  rfl

theorem not_tells {o : Observation} {state : JobState} (h : o.state? ≠ some state)
    (action : String) : ¬ o.Tells action state :=
  fun htells => h htells.state?_eq

/-- Whether something may be seen right after something that does not ask for it. -/
structure Opens (b : Observation) : Prop where
  isFirst_eq : b.isFirst = false
  not_timeout : b.state? ≠ some .timeout
  not_failed : b.state? ≠ some .failed

theorem Opens.precedes {a b : Observation} (hb : b.Opens) (hgoesOn : a.isTerminal = false)
    (hstarted : a.state? ≠ some .started) : Precedes a b where
  goesOn := hgoesOn
  started := fun action htells => absurd htells (not_tells hstarted action)
  first := fun context _ hfirst => Bool.noConfusion (hb.isFirst_eq.symm.trans hfirst)
  verdict := by
    intro action htells
    rcases htells with htells | htells
    · exact absurd htells (not_tells hb.not_timeout action)
    · exact absurd htells (not_tells hb.not_failed action)

/-- The state to which a run has come, by what is seen of it last. -/
def closing : Option Observation → List JobState
  | some (.continued .complete) => [.ok]
  | some (.continued .aborted) => [.failed]
  | _ => []

/-- How many messages a run has on its topic, by what is seen of it last. -/
def messagesAfter : Observation → Nat
  | .report _ _ _ => 1
  | .dispatch _ => 0
  | .continued c => if c.isTerminal then 0 else 1

end Observation

open Observation (Precedes Opens closing)

/-! ## Parts of a run -/

/-- What is seen of a part of a run, with its calls. -/
structure Course (calls : List (Call σ)) (shown : List Observation) : Prop where
  dispatched : shown.filterMap Observation.context? = calls.map Call.context
  states : ∃ between, shown.filterMap Observation.state? = between ++ closing shown.getLast? ∧
    ∀ state ∈ between, state = .started ∨ state = .timeout
  started : (shown.filterMap Observation.state?).count .started = shown.countP Observation.isFirst
  timeouts : (shown.filterMap Observation.state?).count .timeout = calls.countP Call.isDropped
  adjacent : shown.IsChain Precedes
  opens : ∀ o, shown.head? = some o → o.Opens

theorem Course.nil : Course ([] : List (Call σ)) [] :=
  ⟨rfl, ⟨[], rfl, nofun⟩, rfl, rfl, .nil, nofun⟩

/-- A part of a run that has gone on is followed by another part. -/
theorem Course.append {calls more : List (Call σ)} {shown later : List Observation}
    {remaining delay : Nat} (h : Course calls shown)
    (hlast : shown.getLast? = some (.continued (.requeued remaining delay)))
    (hlater : Course more later) : Course (calls ++ more) (shown ++ later) where
  dispatched := by
    rw [List.filterMap_append, h.dispatched, hlater.dispatched, List.map_append]
  states := by
    obtain ⟨between, hbetween, hmem⟩ := h.states
    obtain ⟨between', hbetween', hmem'⟩ := hlater.states
    have hnone : closing shown.getLast? = [] := by rw [hlast]; rfl
    have hclosing : closing (shown ++ later).getLast? = closing later.getLast? := by
      rw [List.getLast?_append]
      cases later.getLast? with
      | none => exact hnone
      | some o => rfl
    refine ⟨between ++ between', ?_, ?_⟩
    · rw [List.filterMap_append, hbetween, hbetween', hnone, hclosing, List.append_nil,
        List.append_assoc]
    · intro state hstate
      rcases List.mem_append.1 hstate with hstate | hstate
      · exact hmem state hstate
      · exact hmem' state hstate
  started := by
    rw [List.filterMap_append, List.count_append, List.countP_append, h.started, hlater.started]
  timeouts := by
    rw [List.filterMap_append, List.count_append, List.countP_append, h.timeouts, hlater.timeouts]
  adjacent := by
    apply List.isChain_append.2 ⟨h.adjacent, hlater.adjacent, ?_⟩
    intro a ha b hb
    rw [hlast] at ha
    cases ha
    exact (hlater.opens b hb).precedes rfl nofun
  opens := by
    intro o ho
    apply h.opens o
    rwa [List.head?_append, Option.or_of_isSome] at ho
    cases shown with
    | nil => cases hlast
    | cons first shown => rfl

/-! ## Single iterations -/

theorem Context.isFirstInvocation_eq (c : Context) :
    c.isFirstInvocation = (Observation.dispatch c).isFirst := by
  have hstarted : (!c.task.isStarted) = (c.task.subStep == 0) := by
    rw [Task.isStarted, Bool.eq_iff_iff, Bool.not_eq_true', decide_eq_false_iff_not, beq_iff_eq]
    constructor
    · intro hle
      by_cases hzero : c.task.subStep = 0
      · exact hzero
      · exact absurd (UInt32.pos_iff_ne_zero.2 hzero) hle
    · intro hzero
      rw [hzero]
      decide
  rw [isFirstInvocation, hstarted]
  rfl

namespace Call

variable {p : Pipeline} {c : Call σ} {tail : List Observation}

theorem opening_eq (p : Pipeline) (c : Call σ) :
    c.opening p = if (Observation.dispatch c.context).isFirst then
      [c.report p { action := c.context.task.destination, state := .started }] else [] := by
  rw [opening, Pipeline.startNotices, Context.isFirstInvocation_eq]
  split
  · rfl
  · rfl

theorem opens_report {n : Notice} (htimeout : n.state ≠ .timeout) (hfailed : n.state ≠ .failed) :
    (c.report p n).Opens :=
  ⟨rfl, fun h => htimeout (Option.some.inj h), fun h => hfailed (Option.some.inj h)⟩

theorem opens_continued (continuation : Continuation) :
    (Observation.continued continuation).Opens :=
  ⟨rfl, nofun, nofun⟩

theorem precedes_dispatch (h : (Observation.dispatch c.context).isFirst = true) :
    Precedes (c.report p { action := c.context.task.destination, state := .started })
      (.dispatch c.context) where
  goesOn := rfl
  started := by
    rintro action ⟨id, domain, detail, heq⟩
    cases heq
    exact ⟨c.context, rfl, h, rfl⟩
  first := by
    rintro context heq -
    cases heq
    exact ⟨_, _, _, rfl⟩
  verdict := by
    rintro action (⟨_, _, _, heq⟩ | ⟨_, _, _, heq⟩) <;> cases heq

theorem precedes_verdict (state : JobState) (detail : Option String) :
    Precedes (.dispatch c.context)
      (c.report p { action := c.context.task.destination, state, detail }) where
  goesOn := rfl
  started := by
    rintro action ⟨_, _, _, heq⟩
    cases heq
  first := nofun
  verdict := by
    rintro action (⟨_, _, _, heq⟩ | ⟨_, _, _, heq⟩)
    · cases heq
      exact ⟨c.context, rfl, rfl⟩
    · cases heq
      exact ⟨c.context, rfl, rfl⟩

/-- What comes after the call and a task that has been given up, if it has. -/
theorem isChain_timeout {rest : List Observation} (hrest : rest.IsChain Precedes)
    (hopens : ∀ o, rest.head? = some o → o.Opens) :
    (Observation.dispatch c.context :: (c.timeout p ++ rest)).IsChain Precedes := by
  have hafter : ∀ a : Observation, a.isTerminal = false → a.state? ≠ some .started →
      (a :: rest).IsChain Precedes := by
    intro a hgoesOn hstarted
    cases rest with
    | nil => exact .singleton a
    | cons o rest =>
      exact List.isChain_cons_cons.2 ⟨(hopens o rfl).precedes hgoesOn hstarted, hrest⟩
  rw [timeout]
  split
  · apply List.isChain_cons_cons.2 ⟨precedes_verdict _ _, hafter _ rfl ?_⟩
    intro hstate
    cases hstate
  · apply hafter _ rfl
    intro hstate
    cases hstate

theorem Shows.isChain (h : c.Shows p tail) :
    (Observation.dispatch c.context :: tail).IsChain Precedes := by
  cases h with
  | breaksOff hreply hnext => exact .singleton _
  | fails hreply hnext =>
    apply List.isChain_cons_cons.2 ⟨precedes_verdict _ _, ?_⟩
    exact List.isChain_cons_cons.2 ⟨(opens_continued _).precedes rfl nofun, .singleton _⟩
  | completes hreply hnext =>
    apply isChain_timeout
    · exact List.isChain_cons_cons.2 ⟨(opens_continued _).precedes rfl nofun, .singleton _⟩
    · intro o ho
      cases ho
      exact opens_report nofun nofun
  | goesOn hreply hnext =>
    apply isChain_timeout (.singleton _)
    intro o ho
    cases ho
    exact opens_continued _

theorem isDropped_eq_false (h : c.attempt.reply ≠ .outcome .reschedule) : c.isDropped = false :=
  decide_eq_false fun hdropped => h hdropped.1

theorem filterMap_timeout (p : Pipeline) (c : Call σ) :
    (c.timeout p).filterMap Observation.state? = if c.isDropped then [.timeout] else [] := by
  rw [timeout]
  split
  · rfl
  · rfl

theorem Shows.states (h : c.Shows p tail) :
    tail.filterMap Observation.state? = (if c.isDropped then [.timeout] else []) ++
      closing (Observation.dispatch c.context :: tail).getLast? := by
  cases h with
  | breaksOff hreply hnext =>
    rw [isDropped_eq_false (by rw [hreply]; nofun)]
    rfl
  | fails hreply hnext =>
    rw [isDropped_eq_false (by rw [hreply]; nofun)]
    rfl
  | completes hreply hnext =>
    rw [List.filterMap_append, filterMap_timeout, ← List.cons_append, List.getLast?_append]
    rfl
  | goesOn hreply hnext =>
    rw [List.filterMap_append, filterMap_timeout, ← List.cons_append, List.getLast?_append]
    rfl

/-- No step is called after the call. -/
theorem Shows.context?_eq_none (h : c.Shows p tail) : ∀ o ∈ tail, o.context? = none := by
  have htimeout : ∀ o ∈ c.timeout p, o.context? = none := by
    intro o ho
    rw [timeout] at ho
    split at ho
    · rw [List.mem_singleton.1 ho]
      rfl
    · cases ho
  intro o ho
  cases h with
  | breaksOff hreply hnext => cases ho
  | fails hreply hnext =>
    simp only [List.mem_cons, List.not_mem_nil, or_false] at ho
    rcases ho with rfl | rfl
    · rfl
    · rfl
  | completes hreply hnext =>
    simp only [List.mem_append, List.mem_cons, List.not_mem_nil, or_false] at ho
    rcases ho with ho | rfl | rfl
    · exact htimeout o ho
    · rfl
    · rfl
  | goesOn hreply hnext =>
    simp only [List.mem_append, List.mem_singleton] at ho
    rcases ho with ho | rfl
    · exact htimeout o ho
    · rfl

theorem mem_closing {o : Option Observation} {state : JobState} (h : state ∈ closing o) :
    state = .ok ∨ state = .failed := by
  unfold closing at h
  split at h
  · exact .inl (List.mem_singleton.1 h)
  · exact .inr (List.mem_singleton.1 h)
  · cases h

theorem count_closing (state : JobState) (hok : state ≠ .ok) (hfailed : state ≠ .failed)
    (o : Option Observation) : (closing o).count state = 0 := by
  apply List.count_eq_zero.2
  intro hmem
  exact (mem_closing hmem).elim hok hfailed

theorem filterMap_opening (p : Pipeline) (c : Call σ) :
    (c.opening p).filterMap Observation.state? =
      if (Observation.dispatch c.context).isFirst then [.started] else [] := by
  rw [opening_eq]
  split
  · rfl
  · rfl

theorem isChain_opening (h : (Observation.dispatch c.context :: tail).IsChain Precedes) :
    (c.opening p ++ .dispatch c.context :: tail).IsChain Precedes := by
  rw [opening_eq]
  split
  · next hfirst => exact List.isChain_cons_cons.2 ⟨precedes_dispatch hfirst, h⟩
  · exact h

theorem opens_opening {o : Observation}
    (h : (c.opening p ++ .dispatch c.context :: tail).head? = some o) : o.Opens := by
  rw [opening_eq] at h
  split at h
  · cases h
    exact opens_report nofun nofun
  · next hfirst =>
    cases h
    exact ⟨Bool.eq_false_iff.2 hfirst, nofun, nofun⟩

theorem Shows.countP_isFirst (h : c.Shows p tail) :
    (c.opening p ++ .dispatch c.context :: tail).countP Observation.isFirst =
      if (Observation.dispatch c.context).isFirst then 1 else 0 := by
  have htail : tail.countP Observation.isFirst = 0 := by
    apply List.countP_eq_zero.2
    intro o ho hfirst
    have hcontext := h.context?_eq_none o ho
    cases o with
    | dispatch context => cases hcontext
    | report id domain n => cases hfirst
    | continued continuation => cases hfirst
  have hopening : (c.opening p).countP Observation.isFirst = 0 := by
    rw [opening_eq]
    split
    · rfl
    · rfl
  rw [List.countP_append, hopening, List.countP_cons, htail, Nat.zero_add, Nat.zero_add]

/-- **One iteration.** -/
theorem Shows.course (h : c.Shows p tail) :
    Course [c] (c.opening p ++ .dispatch c.context :: tail) := by
  have hlast : (c.opening p ++ .dispatch c.context :: tail).getLast? =
      (Observation.dispatch c.context :: tail).getLast? := by
    rw [List.getLast?_append, List.getLast?_cons]
    rfl
  have hstates : (c.opening p ++ .dispatch c.context :: tail).filterMap Observation.state? =
      (if (Observation.dispatch c.context).isFirst then [.started] else []) ++
        ((if c.isDropped then [.timeout] else []) ++
          closing (c.opening p ++ .dispatch c.context :: tail).getLast?) := by
    rw [hlast, ← h.states, List.filterMap_append, filterMap_opening]
    rfl
  refine ⟨?_, ?_, ?_, ?_, isChain_opening h.isChain, fun o => opens_opening⟩
  · have hopening : (c.opening p).filterMap Observation.context? = [] := by
      rw [opening_eq]
      split
      · rfl
      · rfl
    rw [List.filterMap_append, hopening, List.filterMap_cons,
      List.filterMap_eq_nil_iff.2 h.context?_eq_none]
    rfl
  · refine ⟨_, hstates.trans (List.append_assoc _ _ _).symm, ?_⟩
    intro state hstate
    rcases List.mem_append.1 hstate with hstate | hstate
    · split at hstate
      · exact .inl (List.mem_singleton.1 hstate)
      · cases hstate
    · split at hstate
      · exact .inr (List.mem_singleton.1 hstate)
      · cases hstate
  · rw [hstates, h.countP_isFirst, List.count_append, List.count_append,
      count_closing .started nofun nofun]
    cases (Observation.dispatch c.context).isFirst <;> cases c.isDropped <;> rfl
  · rw [hstates, List.count_append, List.count_append, count_closing .timeout nofun nofun,
      List.countP_singleton]
    cases (Observation.dispatch c.context).isFirst <;> cases c.isDropped <;> rfl

end Call

namespace PlainRun

variable {p : Pipeline} {v : Service σ} {r : PlainRun σ}

/-- The end of a run without a task. -/
theorem course_complete (p : Pipeline) (id : String) :
    Course ([] : List (Call σ))
      [.report id p.domain { action := p.action, state := .ok }, .continued .complete] := by
  refine ⟨rfl, ⟨[], rfl, nofun⟩, rfl, rfl, ?_, ?_⟩
  · exact List.isChain_cons_cons.2
      ⟨(Call.opens_continued _).precedes rfl nofun, .singleton _⟩
  · intro o ho
    cases ho
    exact ⟨rfl, nofun, nofun⟩

theorem getLast?_of_goesOn {c : Call σ} {next : PlainRun σ} {tail : List Observation}
    (h : c.Shows p tail) (hnext : c.next = some next) :
    ∃ delay, tail.getLast? = some (.continued (.requeued next.tasks.size delay)) := by
  cases h with
  | breaksOff hreply hnone => cases hnext.symm.trans hnone
  | fails hreply hnone => cases hnext.symm.trans hnone
  | completes hreply hnone => cases hnext.symm.trans hnone
  | @goesOn o r delay hreply hsome =>
    cases hnext.symm.trans hsome
    exact ⟨delay, by rw [List.getLast?_append]; rfl⟩

/-- **The course of a run**, for any number of iterations. -/
theorem course (n : Nat) (hr : r.IsSound) : Course (r.calls p v n) (r.iterations p v n).1 := by
  induction n generalizing r with
  | zero => exact .nil
  | succ n ih =>
    have hunfolds := unfolds p v n hr
    generalize r.calls p v (n + 1) = calls, r.iterations p v (n + 1) = shown at hunfolds ⊢
    cases hunfolds with
    | idle hcall => exact course_complete p _
    | last hcall hnext hshows => exact hshows.course
    | @more c next tail hcall hnext hsound hshows =>
      obtain ⟨delay, hlast⟩ := getLast?_of_goesOn hshows hnext
      have hgoesOn : (c.opening p ++ .dispatch c.context :: tail).getLast? =
          some (.continued (.requeued next.tasks.size delay)) := by
        rw [List.getLast?_append, List.getLast?_cons, hlast]
        rfl
      exact hshows.course.append hgoesOn (ih hsound)

end PlainRun

/-! ## Messages -/

namespace Site

variable {p : Post} {pl : Pipeline} {v : Service σ} {r : PlainRun σ} {s t : Site σ}

/-- Collecting publishes nothing. -/
theorem Polls.published_eq {c : Collection} {b : Option Batch} (h : Polls p c b s t)
    (topic : String) : t.channel.published topic = s.channel.published topic := by
  induction h with
  | pass hle hrest ih => exact ih
  | receive hpoll hrest ih =>
    obtain ⟨next, channel, hmore, hreceive⟩ := Post.poll?_receiving hpoll
    obtain ⟨faults, rfl⟩ := Post.site_of_receive hreceive
    rw [ih]
    exact Collection.published_of_poll hmore topic
  | close hpoll =>
    obtain ⟨channel, hclosed, rfl⟩ := Post.poll?_batch hpoll
    exact Collection.published_of_poll hclosed topic

theorem Iterates.gains {b : Batch} (h : Iterates p b s t) (topic : String) :
    s.channel.Gains topic t.channel := by
  cases h with
  | @atOnce e _ _ hengine hbegin =>
    have hgains := s.gains_beginIteration p.engine e b topic
    rw [hbegin] at hgains
    exact hgains
  | @called e d _ _ u instant hengine hbegin hle hends hend =>
    have hbegun := s.gains_beginIteration p.engine e b topic
    have hended := ({ u with now := instant } : Site σ).gains_endIteration d topic
    rw [hbegin] at hbegun
    rw [hend] at hended
    exact hbegun.trans hended

/-- What is on the topic of a run after an iteration is what the iteration has published. -/
theorem Round.published_eq {m : Message} (h : Round p s t) (hm : r.IsIn m)
    (hs : Serves p pl v r.state [m] s) :
    t.channel.published p.topic = s.channel.published p.topic + t.channel.pending p.topic := by
  induction h with
  | pass hle hrest ih => exact ih (hs.pass _)
  | skip hcollect hpolls hrest ih =>
    rw [hs.collect] at hcollect
    cases hcollect
    rcases hpolls.of_message hm rfl hs with ⟨-, hu⟩ | ⟨hb, -⟩
    · rw [hu] at ih
      exact ih (hs.pass _)
    · cases hb
  | work hcollect hpolls hiterates =>
    rw [hs.collect] at hcollect
    cases hcollect
    rcases hpolls.of_message hm rfl hs with ⟨hb, -⟩ | ⟨-, -, hserves⟩
    · cases hb
    · obtain ⟨new, honTopic, hpublished⟩ := hiterates.gains p.topic
      have hempty := List.map_eq_nil_iff.1 hserves.messages
      rw [hempty, List.nil_append] at honTopic
      rw [hpublished, hpolls.published_eq, Channel.pending, honTopic]

theorem pending_of_follows {next : Option (PlainRun σ)} (h : PlainRun.Follows p pl v s next) :
    s.channel.pending p.topic = if next.isSome then 1 else 0 := by
  have hlength : s.channel.pending p.topic = (s.channel.messages p.topic).length :=
    (List.length_map _).symm
  rw [hlength]
  cases next with
  | none =>
    rw [show s.channel.messages p.topic = [] from h]
    rfl
  | some r =>
    obtain ⟨-, m, -, hserves⟩ := h
    rw [hserves.messages]
    rfl

theorem Rounds.published_eq {n : Nat} (h : Rounds p n s t)
    (hs : PlainRun.Follows p pl v s (some r)) (htopic : pl.topic = p.topic) :
    t.channel.published p.topic + 1 =
      s.channel.published p.topic + n + t.channel.pending p.topic := by
  induction h generalizing r with
  | none => rw [pending_of_follows hs]; rfl
  | @more n s t u hround hrest ih =>
    obtain ⟨hr, m, hm, hserves⟩ := id hs
    have hpublished := hround.published_eq hm hserves
    obtain ⟨-, hfollows⟩ := hround.follows hr hm hserves htopic
    have hpending := pending_of_follows hfollows
    cases hnext : (r.iterate pl v).2 with
    | none =>
      rw [hnext] at hfollows hpending
      cases hrest with
      | none => rw [hpublished]; omega
      | more hround _ => exact absurd hround (not_round_of_empty hfollows)
    | some next =>
      rw [hnext] at hfollows hpending
      have hlater := ih hfollows
      simp only [Option.isSome_some, if_true] at hpending
      omega

end Site

/-! ## Runs that are triggered -/

/-- What is seen of a run from its trigger on. -/
structure Protocol (calls : List (Call σ)) (shown : List Observation) : Prop where
  /-- Steps are called as the calls say, and only so. -/
  dispatched : shown.filterMap Observation.context? = calls.map Call.context
  /-- The run is pending, then steps start and tasks are given up, and in the end the run is complete
  or has failed. -/
  states : ∃ between, shown.filterMap Observation.state? =
      .pending :: (between ++ closing shown.getLast?) ∧
    ∀ state ∈ between, state = .started ∨ state = .timeout
  started : (shown.filterMap Observation.state?).count .started = shown.countP Observation.isFirst
  timeouts : (shown.filterMap Observation.state?).count .timeout = calls.countP Call.isDropped
  adjacent : shown.IsChain Precedes

theorem Course.afterTrigger {calls : List (Call σ)} {shown : List Observation} (h : Course calls shown)
    (id domain action : String) :
    Protocol calls (.report id domain { action, state := .pending } :: shown) where
  dispatched := h.dispatched
  states := by
    obtain ⟨between, hbetween, hmem⟩ := h.states
    have hclosing : closing (Observation.report id domain { action, state := .pending } ::
        shown).getLast? = closing shown.getLast? := by
      rw [List.getLast?_cons]
      cases shown.getLast? with
      | none => rfl
      | some o => rfl
    refine ⟨between, ?_, hmem⟩
    rw [hclosing, ← hbetween]
    rfl
  started := h.started
  timeouts := h.timeouts
  adjacent := by
    cases shown with
    | nil => exact .singleton _
    | cons o shown =>
      exact List.isChain_cons_cons.2 ⟨(h.opens o rfl).precedes rfl nofun, h.adjacent⟩

/-- What is seen last of an iteration tells whether the run goes on. -/
theorem Call.Shows.exists_last {p : Pipeline} {c : Call σ} {tail : List Observation}
    (h : c.Shows p tail) :
    ∃ last, (Observation.dispatch c.context :: tail).getLast? = some last ∧
      last.messagesAfter = if c.next.isSome then 1 else 0 := by
  cases h with
  | breaksOff hreply hnext => exact ⟨_, rfl, by rw [hnext]; rfl⟩
  | fails hreply hnext => exact ⟨_, rfl, by rw [hnext]; rfl⟩
  | completes hreply hnext =>
    rw [← List.cons_append, List.getLast?_append]
    exact ⟨_, rfl, by rw [hnext]; rfl⟩
  | goesOn hreply hnext =>
    rw [← List.cons_append, List.getLast?_append]
    exact ⟨_, rfl, by rw [hnext]; rfl⟩

/-- What is seen last of a run tells whether it goes on. -/
theorem PlainRun.exists_last {p : Pipeline} {v : Service σ} {r : PlainRun σ} (n : Nat)
    (hr : r.IsSound) (first : Observation) (hfirst : first.messagesAfter = 1) :
    ∃ last, (first :: (r.iterations p v n).1).getLast? = some last ∧
      last.messagesAfter = if (r.iterations p v n).2.isSome then 1 else 0 := by
  induction n generalizing r first with
  | zero => exact ⟨first, rfl, hfirst⟩
  | succ n ih =>
    have hunfolds := unfolds p v n hr
    generalize r.calls p v (n + 1) = calls, r.iterations p v (n + 1) = shown at hunfolds ⊢
    cases hunfolds with
    | idle hcall => exact ⟨_, rfl, rfl⟩
    | last hcall hnext hshows =>
      obtain ⟨last, hlast, hmessages⟩ := hshows.exists_last
      refine ⟨last, ?_, by rw [hmessages, hnext]⟩
      rw [← List.cons_append, List.getLast?_append, hlast]
      rfl
    | @more c next tail hcall hnext hsound hshows =>
      obtain ⟨last, hlast, hmessages⟩ := hshows.exists_last
      have hshown : (first :: (c.opening p ++ .dispatch c.context :: tail)).getLast? =
          some last := by
        rw [← List.cons_append, List.getLast?_append, hlast]
        rfl
      rw [hnext] at hmessages
      obtain ⟨final, hseen, hfinal⟩ := ih hsound last hmessages
      refine ⟨final, ?_, hfinal⟩
      rw [← hseen, ← List.cons_append, List.getLast?_append, hshown, List.getLast?_cons]
      cases (next.iterations p v n).1.getLast? with
      | none => rfl
      | some o => rfl

namespace Site

variable {p : Post} {e : Engine σ} {tasks : TaskList} {attributes : Headers} {n : Nat}
  {s t : Site σ}

/-- Of the messages that have been published since a run was triggered, all but those on the topic
have been worked on, one in each iteration. -/
theorem Driven.published_eq (h : Driven p e tasks attributes n s t) :
    t.channel.published p.topic =
      s.channel.published p.topic + n + t.channel.pending p.topic := by
  obtain ⟨-, -, hstart⟩ := h.follows_start
  have hlater := h.rounds.published_eq hstart h.topic
  obtain ⟨new, honTopic, hpublished⟩ := s.gains_trigger e.pipeline tasks attributes p.topic
  have hone : (s.trigger e.pipeline tasks attributes).2.channel.pending p.topic = 1 :=
    pending_of_follows hstart
  rw [List.map_eq_nil_iff.1 h.empty, List.nil_append] at honTopic
  rw [Channel.pending, honTopic] at hone
  omega

/-- What is seen of a run that has been triggered keeps to the protocol. -/
theorem Driven.exists_shown (h : Driven p e tasks attributes n s t) :
    ∃ shown last, t.observations = s.observations ++ shown ∧ shown.getLast? = some last ∧
      Protocol ((PlainRun.start s e tasks attributes).calls e.pipeline e.service n) shown ∧
      t.channel.pending p.topic = last.messagesAfter := by
  obtain ⟨-, hseen, hfollows⟩ := h.follows
  have hsound := isSound_start s e tasks attributes
  obtain ⟨last, hlast, hmessages⟩ := PlainRun.exists_last (p := e.pipeline) (v := e.service) n
    hsound (.report (s.idFor (attributes.get? correlationHeader)).1 e.pipeline.domain
      { action := e.pipeline.action, state := .pending }) rfl
  refine ⟨_, last, hseen, hlast, (PlainRun.course n hsound).afterTrigger _ _ _, ?_⟩
  rw [pending_of_follows hfollows, hmessages]

/-- There is a next iteration exactly if there is a message of the run. -/
theorem Driven.exists_round_iff (h : Driven p e tasks attributes n s t) :
    (∃ u, Round p t u) ↔ t.channel.pending p.topic = 1 := by
  obtain ⟨-, -, hfollows⟩ := h.follows
  rw [isSome_iff_exists_round hfollows, pending_of_follows hfollows]
  split
  · next hsome => exact ⟨fun _ => rfl, fun _ => hsome⟩
  · next hnone => exact ⟨fun hsome => absurd hsome hnone, nofun⟩

/-- **A run keeps to its protocol**, whatever its steps do.  After any number of iterations what is
seen of it last tells whether there is a message of it on the topic, and with it whether there is a
next iteration; there is never more than one. -/
theorem Driven.protocol (h : Driven p e tasks attributes n s t) :
    ∃ shown last, t.observations = s.observations ++ shown ∧ shown.getLast? = some last ∧
      Protocol ((PlainRun.start s e tasks attributes).calls e.pipeline e.service n) shown ∧
      t.channel.pending p.topic = last.messagesAfter ∧
      t.channel.published p.topic = s.channel.published p.topic + n + last.messagesAfter ∧
      ((∃ u, Round p t u) ↔ last.messagesAfter = 1) := by
  obtain ⟨shown, last, hshown, hlast, hprotocol, hpending⟩ := h.exists_shown
  have hpublished := h.published_eq
  have hround := h.exists_round_iff
  rw [hpending] at hpublished hround
  exact ⟨shown, last, hshown, hlast, hprotocol, hpending, hpublished, hround⟩

/-- Two tasks, each of which is done at once. -/
theorem protocol_twoTasks :
    ∃ t, Driven (Sample.post "a" {}) (Sample.engine { reply := .outcome .done }) twoTasks ∅ 2
        (Sample.site 10 { reply := .outcome .done }) t ∧
      t.observations.filterMap Observation.state? = [.pending, .started, .started, .ok] ∧
      t.channel.pending "t" = 0 ∧ t.channel.published "t" = 2 := by
  obtain ⟨t, hdriven⟩ := exists_driven (p := Sample.post "a" {})
    (e := Sample.engine { reply := .outcome .done })
    (s := Sample.site 10 { reply := .outcome .done }) twoTasks ∅ (fun _ => rfl) rfl rfl rfl 2
    (by decide +kernel)
  obtain ⟨shown, last, hshown, hlast, -, hpending, hpublished, -⟩ := hdriven.protocol
  obtain ⟨-, hseen, -⟩ := hdriven.follows
  cases List.append_cancel_left (hshown.symm.trans hseen)
  have hcomplete : last = .continued .complete := by
    apply Option.some.inj
    rw [← hlast]
    decide +kernel
  subst hcomplete
  refine ⟨t, hdriven, ?_, hpending, hpublished⟩
  rw [hseen]
  decide +kernel

end Site

end TaskRelay
