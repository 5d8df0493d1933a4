import TaskRelay.Proofs.Run.Rounds

/-!
# The wire is transparent

A run that travels over a topic shows what the same run shows when it is kept as a value
(`Rounds.follows`).  Between two iterations the topic holds one message, the run as it is
(`PlainRun.message`).  A batch takes that message in and is the run again (`isIn_message`): the
tasks are read as they were written, none of them is merged with another, and there are no other
attributes.  Only the message of a trigger may hold a unit of work twice; the first of its tasks is
taken in then.
-/

namespace TaskRelay

variable {σ : Type}

/-! ## A run in a message -/

namespace PlainRun

/-- The message that the run travels in. -/
def message (r : PlainRun σ) : Message :=
  { attributes := r.attributes, payload := r.tasks.encode }

/-- The batch that the message makes. -/
def batch (r : PlainRun σ) : Batch :=
  { tasks := r.tasks, attributes := r.attributes, messages := 1 }

/-- No unit of work occurs twice, and the run has a correlation id. -/
structure IsSound (r : PlainRun σ) : Prop where
  distinct : r.tasks.Distinct
  correlated : (r.attributes.get? correlationHeader).isSome = true

/-- A batch takes a message in as the run. -/
def IsIn (r : PlainRun σ) (m : Message) : Prop :=
  (∅ : Batch).absorb m = r.batch

/-- Of the tasks of a message the first of each unit of work is taken in. -/
theorem isIn_encode (tasks : TaskList) (attributes : Headers) (state : σ) :
    IsIn { tasks := .ofList tasks.tasks, attributes, state } { attributes, payload := tasks.encode } := by
  have hread : (∅ : Batch).tasks.mergeText? tasks.encode =
      some (.ofList tasks.tasks, (TaskList.ofList tasks.tasks).size, 0) := by
    rw [TaskList.mergeText?_encode]
    show some ((TaskList.merge ∅ _).1, (TaskList.merge ∅ _).2, 0) = _
    rw [TaskList.merge_empty (TaskList.distinct_ofList tasks.tasks)]
  rw [IsIn, Batch.absorb, hread]
  show ({ (∅ : Batch) with
    tasks := .ofList tasks.tasks
    attributes := Headers.union ∅ attributes
    messages := 1 } : Batch) = _
  rw [Headers.empty_union]
  rfl

theorem isIn_message {r : PlainRun σ} (h : r.IsSound) : r.IsIn r.message := by
  have hencoded := isIn_encode r.tasks r.attributes r.state
  rw [TaskList.ofList_tasks h.distinct] at hencoded
  exact hencoded

/-- What is read of a message besides its tasks are its attributes. -/
theorem IsIn.attributes_eq {r : PlainRun σ} {m : Message} (h : r.IsIn m) :
    m.attributes = r.attributes := by
  rw [IsIn, Batch.absorb] at h
  split at h
  · have hattributes : Headers.union ∅ m.attributes = r.attributes := congrArg Batch.attributes h
    rw [← hattributes, Headers.empty_union]
  · cases congrArg Batch.messages h

end PlainRun

/-! ## Taking the message -/

theorem Channel.messages_of_take? {c c' : Channel} {topic : String} {now : Nat} {m : Message}
    (h : c.take? topic now = some (m, c')) :
    ∃ before after, c.messages topic = before ++ m :: after ∧
      c'.messages topic = before ++ after := by
  obtain ⟨before, held, after, hsplit, rfl, hdeliverable, -, rfl⟩ := take?_eq_some h
  have htopic : (held.topic == topic) = true :=
    beq_iff_eq.2 (Held.isDeliverable_iff.1 hdeliverable).1
  refine ⟨(before.filter (·.topic == topic)).map Held.message,
    (after.filter (·.topic == topic)).map Held.message, ?_, ?_⟩
  · simp [messages, onTopic, hsplit, htopic]
  · simp [messages, onTopic]

theorem Channel.take?_of_messages_eq_nil {c : Channel} {topic : String}
    (h : c.messages topic = []) (now : Nat) : c.take? topic now = none := by
  cases htake : c.take? topic now with
  | none => rfl
  | some taken =>
    obtain ⟨before, after, hbefore, -⟩ := messages_of_take? htake
    rw [h] at hbefore
    cases before <;> cases hbefore

theorem Channel.messages_of_take?_singleton {c c' : Channel} {topic : String} {now : Nat}
    {m m' : Message} (hone : c.messages topic = [m']) (h : c.take? topic now = some (m, c')) :
    m = m' ∧ c'.messages topic = [] := by
  obtain ⟨before, after, hbefore, hafter⟩ := messages_of_take? h
  rw [hone] at hbefore
  cases before with
  | nil =>
    cases hbefore
    exact ⟨rfl, hafter⟩
  | cons _ before =>
    have htail := (List.cons.inj hbefore).2
    cases before <;> cases htail

theorem Channel.onTopic_of_messages_singleton {c : Channel} {topic : String} {m : Message}
    (h : c.messages topic = [m]) : ∃ held, c.onTopic topic = [held] := by
  obtain ⟨held, hheld, -⟩ := List.map_eq_singleton_iff.1 h
  exact ⟨held, hheld⟩

namespace Site

variable {p : Post} {pl : Pipeline} {v : Service σ} {state : σ} {c : Collection}
  {b : Option Batch} {s t : Site σ}

/-- While the topic is empty a collection does not change any more. -/
theorem Polls.of_empty (h : Polls p c b s t) (hs : s.channel.messages p.topic = []) :
    b = c.batch ∧ t = { s with now := t.now } := by
  induction h with
  | pass hle hrest ih => exact ih hs
  | receive hpoll hrest ih =>
    obtain ⟨next, channel, hmore, -⟩ := Post.poll?_receiving hpoll
    obtain ⟨m, htake, -⟩ := Collection.poll_more hmore
    rw [Channel.take?_of_messages_eq_nil hs] at htake
    cases htake
  | close hpoll =>
    obtain ⟨channel, hclosed, rfl⟩ := Post.poll?_batch hpoll
    rcases Collection.poll_closed hclosed with ⟨m, htake, -⟩ | ⟨-, rfl, hb, -⟩
    · rw [Channel.take?_of_messages_eq_nil hs] at htake
      cases htake
    · exact ⟨hb, rfl⟩

/-- A collection that has begun on a topic with nothing but a run comes to nothing, or to the batch
that is the run. -/
theorem Polls.of_message {r : PlainRun σ} {m : Message} (hm : r.IsIn m) (h : Polls p c b s t)
    (hc : c.batch = none) (hs : Serves p pl v r.state [m] s) :
    (b = none ∧ t = { s with now := t.now }) ∨
      (b = some r.batch ∧ t.observations = s.observations ∧ Serves p pl v r.state [] t) := by
  induction h with
  | pass hle hrest ih => exact ih hc (hs.pass _)
  | @receive c next b s t u hpoll hrest ih =>
    obtain ⟨next, channel, hmore, hreceive⟩ := Post.poll?_receiving hpoll
    obtain ⟨m', htake, rfl, -⟩ := Collection.poll_more hmore
    obtain ⟨rfl, hempty⟩ := Channel.messages_of_take?_singleton hs.messages htake
    have hfault : ({ s with channel } : Site σ).faults .receive = 0 := hs.reliable .receive
    rw [Post.receive_of_no_fault hfault] at hreceive
    cases hreceive
    obtain ⟨hb, ht⟩ := hrest.of_empty hempty
    rw [hc] at hb
    refine .inr ⟨hb.trans (congrArg some hm), ?_⟩
    rw [ht]
    exact ⟨rfl, hs.reliable, hs.engine, hempty⟩
  | close hpoll =>
    obtain ⟨channel, hclosed, rfl⟩ := Post.poll?_batch hpoll
    rcases Collection.poll_closed hclosed with ⟨m', htake, hb⟩ | ⟨-, rfl, hb, -⟩
    · obtain ⟨rfl, hempty⟩ := Channel.messages_of_take?_singleton hs.messages htake
      rw [hc] at hb
      refine .inr ⟨hb.trans (congrArg some hm), rfl, ?_⟩
      exact ⟨hs.reliable, hs.engine, hempty⟩
    · exact .inl ⟨hb.trans hc, rfl⟩

end Site

/-! ## One iteration -/

namespace PlainRun

variable {p : Post} {pl : Pipeline} {v : Service σ} {r : PlainRun σ}

/-- What a run does after a reply depends on the tasks that are left only. -/
theorem conclude_outcome (pl : Pipeline) (rest : TaskList) (state : σ) (context : Context)
    (outcome : Outcome) :
    conclude pl rest state context (.outcome outcome) =
      let next := proceed pl context.correlationId
        { tasks := pl.tasksAfter rest context outcome
          attributes := context.carriedAttributes pl.carry, state }
        (pl.delayAfter context outcome)
      ((pl.noticesAfter context outcome).map (.report context.correlationId pl.domain) ++ next.1,
        next.2) := by
  simp only [conclude, Pipeline.tasksAfter, Pipeline.delayAfter, Pipeline.noticesAfter]
  cases pl.retry.decide outcome context.loopCounter <;> rfl

/-- What a site has to do with a run that goes on, or that is over. -/
def Follows (p : Post) (pl : Pipeline) (v : Service σ) (s : Site σ) : Option (PlainRun σ) → Prop
  | some r => r.IsSound ∧ ∃ m, r.IsIn m ∧ Site.Serves p pl v r.state [m] s
  | none => s.channel.messages p.topic = []

end PlainRun

open PlainRun (Follows)

namespace Site

variable {p : Post} {pl : Pipeline} {v : Service σ} {r : PlainRun σ} {s t : Site σ}

/-- Carrying out what a run goes on with makes a message of it. -/
theorem Serves.carryOut_advance (h : Serves p pl v r.state [] s) (hr : r.IsSound)
    (htopic : pl.topic = p.topic) (id : String) (delay : Nat) (notices : List Notice) :
    let next := pl.advance r.tasks r.attributes delay
    let t := (s.carryOut p.engine pl id { next with notices := notices ++ next.notices }).2
    t.observations = s.observations ++
        (notices.map (.report id pl.domain) ++ (PlainRun.proceed pl id r delay).1) ∧
      Follows p pl v t (PlainRun.proceed pl id r delay).2 := by
  intro next
  obtain ⟨t, hcarry, hseen, hserves⟩ :=
    h.carryOut htopic id { next with notices := notices ++ next.notices }
  rw [hcarry]
  by_cases hempty : r.tasks.tasks = []
  · have hnext : next = _ := Pipeline.advance_of_eq_empty hempty pl r.attributes delay
    have hproceed : PlainRun.proceed pl id r delay =
        ([.report id pl.domain { action := pl.action, state := .ok }, .continued .complete],
          none) := by
      rw [PlainRun.proceed, TaskList.isComplete, if_pos (by simpa using hempty)]
    rw [hproceed]
    rw [hnext] at hseen hserves
    refine ⟨?_, hserves.messages⟩
    rw [hseen, shown, List.map_append, List.append_assoc]
    rfl
  · have hnext : next = _ := Pipeline.advance_of_ne_empty hempty pl r.attributes delay
    have hproceed : PlainRun.proceed pl id r delay =
        ([.continued (.requeued r.tasks.size delay)], some r) := by
      rw [PlainRun.proceed, TaskList.isComplete, if_neg (by simpa using hempty)]
    rw [hproceed]
    rw [hnext] at hseen hserves
    refine ⟨?_, hr, r.message, PlainRun.isIn_message hr, hserves⟩
    rw [hseen, shown, List.append_nil]

/-- The end of a call shows what the run shows that is kept as a value. -/
theorem Serves.endIteration {d : Dispatch} {state : σ} (h : Serves p pl v state [] s)
    (htopic : pl.topic = p.topic) (hd : d.engine = p.engine) (hpl : d.pipeline = pl)
    (hrest : d.rest.Distinct) :
    let next := PlainRun.conclude pl d.rest state (d.context.editAll d.attempt.edits)
      d.attempt.reply
    (s.endIteration d).2.observations = s.observations ++ next.1 ∧
      Follows p pl v (s.endIteration d).2 next.2 := by
  have hnoted := h.noted d
  have hid := d.context.editAll_correlationId d.attempt.edits
  rw [endIteration_eq, hd, hpl, ← observations_noted s d, ← hid]
  generalize d.context.editAll d.attempt.edits = context
  cases d.attempt.reply with
  | panic =>
    refine ⟨(List.append_nil _).symm, hnoted.messages⟩
  | error e =>
    obtain ⟨t, hcarry, hseen, hserves⟩ := hnoted.carryOut htopic context.correlationId
      { notices := [{ action := context.task.destination, state := .failed, detail := e.message }]
        continuation := .aborted }
    simp only [Pipeline.conclude?, hcarry]
    exact ⟨hseen, hserves.messages⟩
  | outcome outcome =>
    have hsound : PlainRun.IsSound
        { tasks := pl.tasksAfter d.rest context outcome
          attributes := context.carriedAttributes pl.carry, state } :=
      ⟨Pipeline.distinct_tasksAfter hrest, by rw [Context.get?_carriedAttributes]; rfl⟩
    have hcarry := hnoted.carryOut_advance hsound htopic context.correlationId
      (pl.delayAfter context outcome) (pl.noticesAfter context outcome)
    simp only [Pipeline.conclude?, Pipeline.concludeOutcome_eq, PlainRun.conclude_outcome]
    exact hcarry

theorem idFor_of_isSound (hr : r.IsSound) (order : PhaseOrder) (s : Site σ) :
    ∃ id, r.batch.correlationOf? order = some id ∧
      s.idFor (r.batch.correlationOf? order) = (id, s) := by
  have hsome : (r.batch.correlationOf? order).isSome = true := by
    rw [Batch.correlationOf?]
    split
    · exact hr.correlated
    · next task rest hpop => exact Context.isSome_correlationOf? hr.correlated task
  obtain ⟨id, hid⟩ := Option.isSome_iff_exists.1 hsome
  rw [hid]
  exact ⟨id, rfl, rfl⟩

theorem Serves.beginIteration_none (h : Serves p pl v r.state [] s) (hr : r.IsSound)
    (htopic : pl.topic = p.topic) (hpop : r.tasks.popNext? pl.order = none) :
    ∃ result t,
      s.beginIteration p.engine { pipeline := pl, service := v, state := r.state } r.batch =
        (.ended result, t) ∧
      t.observations = s.observations ++ (r.iterate pl v).1 ∧
      Follows p pl v t (r.iterate pl v).2 := by
  obtain ⟨id, hcorrelation, hid⟩ := idFor_of_isSound hr pl.order s
  have hchoose : pl.choose r.batch id = .nothing := by
    rw [Pipeline.choose, PlainRun.batch, hpop]
  have hname : r.correlationId = id := by
    rw [Batch.correlationOf?, PlainRun.batch, hpop] at hcorrelation
    have hget : r.attributes.get? correlationHeader = some id := hcorrelation
    rw [PlainRun.correlationId, hget]
    rfl
  have hcarry := h.carryOut_advance hr htopic id 0 []
  rw [beginIteration_eq, hid]
  simp only [hchoose]
  refine ⟨_, _, rfl, ?_⟩
  rw [PlainRun.iterate, hpop, hname]
  exact hcarry

/-- Calling the step of the next task shows the call, and its end shows the rest. -/
theorem Serves.beginIteration_some {task : Task} {rest : TaskList}
    (h : Serves p pl v r.state [] s) (hr : r.IsSound) (htopic : pl.topic = p.topic)
    (hpop : r.tasks.popNext? pl.order = some (task, rest)) :
    ∃ d t,
      s.beginIteration p.engine { pipeline := pl, service := v, state := r.state } r.batch =
        (.dispatched d, t) ∧
      ∀ instant, (({ t with now := instant } : Site σ).endIteration d).2.observations =
          s.observations ++ (r.iterate pl v).1 ∧
        Follows p pl v (({ t with now := instant } : Site σ).endIteration d).2
          (r.iterate pl v).2 := by
  obtain ⟨id, hcorrelation, hid⟩ := idFor_of_isSound hr pl.order s
  have htask : Context.correlationOf? task r.attributes = some id := by
    rw [Batch.correlationOf?, PlainRun.batch, hpop] at hcorrelation
    exact hcorrelation
  have hchoose : pl.choose r.batch id = .dispatch (Context.rehydrate task r.attributes id) rest := by
    rw [Pipeline.choose, PlainRun.batch, hpop]
  have hcontext := Context.rehydrate_eq hr.correlated task id r.correlationId
  have hname : (Context.rehydrate task r.attributes r.correlationId).correlationId = id := by
    rw [Context.rehydrate, htask]
    rfl
  rw [beginIteration_eq, hid]
  simp only [hchoose, hcontext]
  generalize hdispatched : Context.rehydrate task r.attributes r.correlationId = context at hname
  subst hname
  obtain ⟨hseen, hserves⟩ := h.calling context context.correlationId
  generalize s.calling p.engine { pipeline := pl, service := v, state := r.state } context
    context.correlationId = called at hseen hserves ⊢
  have hdistinct := (TaskList.distinct_popNext? hpop hr.distinct).2
  refine ⟨_, _, rfl, fun instant => ?_⟩
  obtain ⟨hend, hfollows⟩ := (hserves.pass instant).endIteration htopic (d := {
    engine := p.engine, pipeline := pl, context, rest
    attempt := (v.invoke context r.state).1, start := called.now }) rfl rfl hdistinct
  rw [PlainRun.iterate_of_popNext? hpop, hdispatched]
  refine ⟨?_, hfollows⟩
  rw [hend, observations_pass, hseen, List.append_assoc, List.append_assoc]
  rfl

/-- An iteration on the batch that a run makes shows what the run shows as a value. -/
theorem Iterates.follows (h : Iterates p r.batch s t) (hr : r.IsSound)
    (hs : Serves p pl v r.state [] s) (htopic : pl.topic = p.topic) :
    t.observations = s.observations ++ (r.iterate pl v).1 ∧
      Follows p pl v t (r.iterate pl v).2 := by
  cases hpop : r.tasks.popNext? pl.order with
  | none =>
    obtain ⟨result, t', hbegun, hsim⟩ := hs.beginIteration_none hr htopic hpop
    cases h with
    | atOnce hengine hbegin =>
      cases hs.engine.symm.trans hengine
      cases hbegun.symm.trans hbegin
      exact hsim
    | called hengine hbegin hle hends hend =>
      cases hs.engine.symm.trans hengine
      cases hbegun.symm.trans hbegin
  | some popped =>
    obtain ⟨task, rest⟩ := popped
    obtain ⟨d, t', hbegun, hsim⟩ := hs.beginIteration_some hr htopic hpop
    cases h with
    | atOnce hengine hbegin =>
      cases hs.engine.symm.trans hengine
      cases hbegun.symm.trans hbegin
    | @called _ _ _ _ _ instant hengine hbegin hle hends hend =>
      cases hs.engine.symm.trans hengine
      cases hbegun.symm.trans hbegin
      have hsim := hsim instant
      rw [hend] at hsim
      exact hsim

/-! ## Many iterations -/

theorem Serves.collect {messages : List Message} {state : σ} {wait : Nat}
    (hs : Serves p pl v state messages s) :
    p.collect wait s = (.ok (.start s.now wait), s) :=
  Post.receive_of_no_fault (hs.reliable .receive) p _

theorem Round.follows {m : Message} (h : Round p s t) (hr : r.IsSound) (hm : r.IsIn m)
    (hs : Serves p pl v r.state [m] s) (htopic : pl.topic = p.topic) :
    t.observations = s.observations ++ (r.iterate pl v).1 ∧
      Follows p pl v t (r.iterate pl v).2 := by
  induction h with
  | pass hle hrest ih => exact ih (hs.pass _)
  | skip hcollect hpolls hrest ih =>
    rw [hs.collect] at hcollect
    cases hcollect
    rcases hpolls.of_message hm rfl hs with ⟨-, hu⟩ | ⟨hb, -⟩
    · -- a receive that times out leaves the message where it is
      rw [hu] at ih
      exact ih (hs.pass _)
    · cases hb
  | work hcollect hpolls hiterates =>
    rw [hs.collect] at hcollect
    cases hcollect
    rcases hpolls.of_message hm rfl hs with ⟨hb, -⟩ | ⟨hb, hseen, hserves⟩
    · cases hb
    · cases hb
      rw [← hseen]
      exact hiterates.follows hr hserves htopic

theorem not_round_of_empty (hs : s.channel.messages p.topic = []) : ¬ Round p s t := by
  intro h
  induction h with
  | pass hle hrest ih => exact ih hs
  | @skip s t u v wait c hcollect hpolls hrest ih =>
    obtain ⟨faults, rfl⟩ := Post.site_of_receive hcollect
    obtain ⟨-, hv⟩ := hpolls.of_empty hs
    rw [hv] at ih
    exact ih hs
  | @work s t u v wait c b hcollect hpolls hiterates =>
    obtain ⟨faults, rfl⟩ := Post.site_of_receive hcollect
    cases Post.eq_of_receive_ok hcollect
    obtain ⟨hb, -⟩ := hpolls.of_empty hs
    cases hb

/-- A collection on an empty topic ends in the end. -/
theorem exists_polls_of_empty (hs : s.channel.messages p.topic = []) (c : Collection) :
    ∃ t, Polls p c c.batch s t := by
  let late : Site σ := { s with now := max s.now c.deadline }
  have hpoll : c.poll p.settings p.topic late.now late.channel = (.closed c.batch, late.channel) := by
    rw [Collection.poll, Channel.take?_of_messages_eq_nil hs, if_pos (Nat.le_max_right _ _)]
  exact ⟨late, .pass (Nat.le_max_left s.now c.deadline) (.close (Post.poll?_of_closed hpoll))⟩

/-- A message that is due is taken into a batch. -/
theorem exists_polls_of_due {c : Collection} {m m' : Message} {channel : Channel} (hm : r.IsIn m)
    (hs : Serves p pl v r.state [m] s) (hc : c.batch = none)
    (htake : s.channel.take? p.topic s.now = some (m', channel)) :
    ∃ t, Polls p c (some r.batch) s t := by
  obtain ⟨rfl, hempty⟩ := Channel.messages_of_take?_singleton hs.messages htake
  have habsorb : (c.batch.getD ∅).absorb m' = r.batch := by
    rw [hc]
    exact hm
  have hpoll : c.poll p.settings p.topic s.now s.channel =
      (c.accept p.settings s.now m', channel) := by
    rw [Collection.poll, htake]
  rw [Collection.accept, habsorb] at hpoll
  by_cases hopen : c.received + 1 < p.settings.maxMessages ∧ s.now < c.windowEnd p.settings s.now
  · rw [if_pos hopen] at hpoll
    obtain ⟨t, hrest⟩ := exists_polls_of_empty (p := p) (s := { s with channel }) hempty
      { batch := some r.batch, received := c.received + 1
        deadline := c.windowEnd p.settings s.now }
    exact ⟨t, .receive (Post.poll?_of_more hpoll (hs.reliable .receive)) hrest⟩
  · rw [if_neg hopen] at hpoll
    exact ⟨{ s with channel }, .close (Post.poll?_of_closed hpoll)⟩

theorem exists_iterates {e : Engine σ} (hengine : s.engines[p.engine]? = some e) (b : Batch) :
    ∃ t, Iterates p b s t := by
  rcases hbegin : s.beginIteration p.engine e b with ⟨d | result, u⟩
  · let late : Site σ := { u with now := max u.now d.ends }
    exact ⟨(late.endIteration d).2,
      .called hengine hbegin (Nat.le_max_left u.now d.ends) (Nat.le_max_right _ _) rfl⟩
  · exact ⟨u, .atOnce hengine hbegin⟩

/-- Where a run is on its topic, its batch comes in the end and can be worked on. -/
theorem exists_round {m : Message} (hm : r.IsIn m) (hs : Serves p pl v r.state [m] s) :
    ∃ t, Round p s t := by
  obtain ⟨held, hheld⟩ := Channel.onTopic_of_messages_singleton hs.messages
  have hmem : held ∈ s.channel.onTopic p.topic := by rw [hheld]; exact List.mem_cons_self
  let due : Site σ := { s with now := max s.now held.due }
  have hserves : Serves p pl v r.state [m] due := hs.pass _
  have hsome : due.channel.take? p.topic due.now ≠ none := by
    intro hnone
    have hlate := Channel.lt_due_of_take?_eq_none hnone hmem
    exact Nat.not_le.2 hlate (Nat.le_max_right _ _)
  obtain ⟨⟨m', channel⟩, htake⟩ := Option.ne_none_iff_exists'.1 hsome
  obtain ⟨u, hpolls⟩ := exists_polls_of_due (c := .start due.now 0) hm hserves rfl htake
  rcases hpolls.of_message hm rfl hserves with ⟨hb, -⟩ | ⟨-, -, hu⟩
  · cases hb
  · obtain ⟨t, hiterates⟩ := exists_iterates hu.engine r.batch
    exact ⟨t, .pass (Nat.le_max_left s.now held.due) (.work hserves.collect hpolls hiterates)⟩

/-- **A run that travels over a topic shows what it shows as a value.** -/
theorem Rounds.follows {n : Nat} (h : Rounds p n s t) (hs : Follows p pl v s (some r))
    (htopic : pl.topic = p.topic) :
    t.observations = s.observations ++ (r.iterations pl v n).1 ∧
      Follows p pl v t (r.iterations pl v n).2 := by
  -- between two rounds the topic holds the message of the run and nothing else
  induction h generalizing r with
  | none => exact ⟨(List.append_nil _).symm, hs⟩
  | @more n s t u hround hrest ih =>
    obtain ⟨hr, m, hm, hserves⟩ := hs
    obtain ⟨hseen, hfollows⟩ := hround.follows hr hm hserves htopic
    rw [PlainRun.iterations]
    rcases hiterate : r.iterate pl v with ⟨observations, _ | next⟩
    · rw [hiterate] at hseen hfollows
      cases hrest with
      | none => exact ⟨hseen, hfollows⟩
      | more hround _ => exact absurd hround (not_round_of_empty hfollows)
    · rw [hiterate] at hseen hfollows
      obtain ⟨hlater, hlast⟩ := ih hfollows
      refine ⟨?_, hlast⟩
      rw [hlater, hseen, List.append_assoc]

theorem Serves.trigger {state : σ} (hs : Serves p pl v state [] s) (htopic : pl.topic = p.topic)
    (tasks : TaskList) (attributes : Headers) :
    let id := (s.idFor (attributes.get? correlationHeader)).1
    ∃ t, s.trigger pl tasks attributes = (.ok id, t) ∧
      t.observations =
        s.observations ++ [.report id pl.domain { action := pl.action, state := .pending }] ∧
      Serves p pl v state
        [{ attributes := attributes.insert correlationHeader id, payload := tasks.encode }] t := by
  have hgiven := hs.idFor (attributes.get? correlationHeader)
  have hsame : (s.idFor (attributes.get? correlationHeader)).2.observations = s.observations := by
    cases attributes.get? correlationHeader <;> rfl
  rw [Site.trigger]
  generalize s.idFor (attributes.get? correlationHeader) = given at hgiven hsame ⊢
  obtain ⟨id, given⟩ := given
  obtain ⟨t, hpublish, hseen, hserves⟩ := hgiven.publish
    { attributes := attributes.insert correlationHeader id, payload := tasks.encode } none
  simp only [htopic, hpublish]
  refine ⟨_, rfl, ?_, hserves.reportAll id pl.domain [{ action := pl.action, state := .pending }]⟩
  rw [observations_report hserves.reliable, hseen, hsame]

theorem isSome_iff_exists_round {next : Option (PlainRun σ)} (h : Follows p pl v s next) :
    (∃ t, Round p s t) ↔ next.isSome = true := by
  cases next with
  | none => exact ⟨fun ⟨t, ht⟩ => absurd ht (not_round_of_empty h), nofun⟩
  | some r =>
    obtain ⟨-, m, hm, hserves⟩ := h
    exact ⟨fun _ => rfl, fun _ => exists_round hm hserves⟩

/-! ## Runs that are triggered -/

/-- A run of the engine `e` that has been triggered on an empty topic of a site where no call fails,
and what has become of it after `n` iterations. -/
structure Driven (p : Post) (e : Engine σ) (tasks : TaskList) (attributes : Headers) (n : Nat)
    (s t : Site σ) : Prop where
  reliable : s.IsReliable
  engine : s.engines[p.engine]? = some e
  topic : e.pipeline.topic = p.topic
  empty : s.channel.messages p.topic = []
  rounds : Rounds p n (s.trigger e.pipeline tasks attributes).2 t

end Site

/-- The run that a trigger starts: of each unit of work the first task. -/
def PlainRun.start (s : Site σ) (e : Engine σ) (tasks : TaskList) (attributes : Headers) :
    PlainRun σ :=
  { tasks := .ofList tasks.tasks
    attributes :=
      attributes.insert correlationHeader (s.idFor (attributes.get? correlationHeader)).1
    state := e.state }

namespace Site

variable {p : Post} {e : Engine σ} {tasks : TaskList} {attributes : Headers} {n : Nat}
  {s t : Site σ}

theorem isSound_start (s : Site σ) (e : Engine σ) (tasks : TaskList) (attributes : Headers) :
    (PlainRun.start s e tasks attributes).IsSound := by
  refine ⟨TaskList.distinct_ofList _, ?_⟩
  rw [PlainRun.start, Headers.get?_insert, if_pos rfl]
  rfl

/-- A trigger reports a run as pending and puts it on its topic. -/
theorem Driven.follows_start (h : Driven p e tasks attributes n s t) :
    let id := (s.idFor (attributes.get? correlationHeader)).1
    let triggered := s.trigger e.pipeline tasks attributes
    triggered.1 = .ok id ∧
      triggered.2.observations = s.observations ++
        [.report id e.pipeline.domain { action := e.pipeline.action, state := .pending }] ∧
      Follows p e.pipeline e.service triggered.2 (some (PlainRun.start s e tasks attributes)) := by
  intro id triggered
  have hs : Serves p e.pipeline e.service e.state [] s := ⟨h.reliable, h.engine, h.empty⟩
  obtain ⟨u, htrigger, hseen, hserves⟩ := hs.trigger h.topic tasks attributes
  have htriggered : triggered = (.ok id, u) := htrigger
  rw [htriggered]
  exact ⟨rfl, hseen, isSound_start s e tasks attributes, _, PlainRun.isIn_encode tasks _ _, hserves⟩

/-- After the report that it is pending, a run shows what it shows as a value. -/
theorem Driven.follows (h : Driven p e tasks attributes n s t) :
    let id := (s.idFor (attributes.get? correlationHeader)).1
    let plain := (PlainRun.start s e tasks attributes).iterations e.pipeline e.service n
    (s.trigger e.pipeline tasks attributes).1 = .ok id ∧
      t.observations = s.observations ++
        .report id e.pipeline.domain { action := e.pipeline.action, state := .pending } ::
          plain.1 ∧
      Follows p e.pipeline e.service t plain.2 := by
  intro id plain
  obtain ⟨htrigger, hseen, hstart⟩ := h.follows_start
  obtain ⟨hlater, hfollows⟩ := h.rounds.follows hstart h.topic
  refine ⟨htrigger, ?_, hfollows⟩
  rw [hlater, hseen, List.append_assoc]
  rfl

/-- A message on the topic is the run as it goes on. -/
theorem Driven.exists_last_of_message {m : Message} (h : Driven p e tasks attributes n s t)
    (hm : m ∈ t.channel.messages p.topic) :
    ∃ last, ((PlainRun.start s e tasks attributes).iterations e.pipeline e.service n).2 = some last ∧
      m.attributes = last.attributes := by
  obtain ⟨-, -, hfollows⟩ := h.follows
  cases hlast : ((PlainRun.start s e tasks attributes).iterations e.pipeline e.service n).2 with
  | none =>
    rw [hlast] at hfollows
    have hempty : t.channel.messages p.topic = [] := hfollows
    rw [hempty] at hm
    cases hm
  | some last =>
    rw [hlast] at hfollows
    obtain ⟨-, m', hin, hserves⟩ := hfollows
    rw [hserves.messages, List.mem_singleton] at hm
    exact ⟨last, rfl, by rw [hm, hin.attributes_eq]⟩

/-- The site where a run has been triggered, before its first iteration. -/
theorem Driven.triggered (hreliable : s.IsReliable) (hengine : s.engines[p.engine]? = some e)
    (htopic : e.pipeline.topic = p.topic) (hempty : s.channel.messages p.topic = []) :
    Driven p e tasks attributes 0 s (s.trigger e.pipeline tasks attributes).2 :=
  ⟨hreliable, hengine, htopic, hempty, .none⟩

/-- There is a next iteration exactly if there is one of the value. -/
theorem Driven.exists_more_iff (h : Driven p e tasks attributes n s t) :
    (∃ u, Round p t u) ↔ ((PlainRun.start s e tasks attributes).iterations e.pipeline e.service
      n).2.isSome = true :=
  isSome_iff_exists_round h.follows.2.2

theorem Driven.more {u : Site σ} (h : Driven p e tasks attributes n s t) (hround : Round p t u) :
    Driven p e tasks attributes (n + 1) s u :=
  { h with rounds := h.rounds.snoc hround }

/-- A run that goes on as a value can be driven. -/
theorem exists_driven (tasks : TaskList) (attributes : Headers) (hreliable : s.IsReliable)
    (hengine : s.engines[p.engine]? = some e) (htopic : e.pipeline.topic = p.topic)
    (hempty : s.channel.messages p.topic = []) (n : Nat)
    (hmore : ∀ k < n, ((PlainRun.start s e tasks attributes).iterations e.pipeline e.service
      k).2.isSome = true) : ∃ t, Driven p e tasks attributes n s t := by
  induction n with
  | zero => exact ⟨_, .triggered hreliable hengine htopic hempty⟩
  | succ n ih =>
    obtain ⟨t, ht⟩ := ih fun k hk => hmore k (Nat.lt_succ_of_lt hk)
    obtain ⟨u, hround⟩ := ht.exists_more_iff.2 (hmore n (Nat.lt_succ_self n))
    exact ⟨u, ht.more hround⟩

/-- A run that is over as a value after so many iterations is driven as far and no farther. -/
theorem Driven.ends_after {m : Nat} (h : Driven p e tasks attributes m s t)
    (hmore : ∀ k < n, ((PlainRun.start s e tasks attributes).iterations e.pipeline e.service
      k).2.isSome = true)
    (hover : ((PlainRun.start s e tasks attributes).iterations e.pipeline e.service n).2 = none) :
    m ≤ n ∧ ((∃ u, Round p t u) ↔ m < n) := by
  have hend : ∀ {t : Site σ}, Driven p e tasks attributes n s t → ¬ ∃ u, Round p t u := by
    intro t ht hround
    have hgoesOn := ht.exists_more_iff.1 hround
    rw [hover] at hgoesOn
    cases hgoesOn
  have hle : m ≤ n := by
    apply Nat.le_of_not_lt
    intro hlt
    obtain ⟨u, w, hrounds, hround⟩ := h.rounds.exists_round hlt
    exact hend { h with rounds := hrounds } ⟨w, hround⟩
  refine ⟨hle, fun hround => ?_, fun hlt => h.exists_more_iff.2 (hmore m hlt)⟩
  rcases Nat.lt_or_eq_of_le hle with hlt | rfl
  · exact hlt
  · exact absurd hround (hend h)

/-- **The wire is transparent.**  A run of distinct units of work that is triggered on an empty
topic shows, after any number of iterations, what it shows as a value; and there is a next iteration
exactly if there is one of the value. -/
theorem Rounds.transparent {e : Engine σ} {tasks : TaskList} {attributes : Headers} {n : Nat}
    (hreliable : s.IsReliable) (hengine : s.engines[p.engine]? = some e)
    (htopic : e.pipeline.topic = p.topic) (hempty : s.channel.messages p.topic = [])
    (hdistinct : tasks.Distinct)
    (hrounds : Rounds p n (s.trigger e.pipeline tasks attributes).2 t) :
    let id := (s.idFor (attributes.get? correlationHeader)).1
    let plain := PlainRun.iterations e.pipeline e.service n
      { tasks, attributes := attributes.insert correlationHeader id, state := e.state }
    (s.trigger e.pipeline tasks attributes).1 = .ok id ∧
      t.observations = s.observations ++
        .report id e.pipeline.domain { action := e.pipeline.action, state := .pending } ::
          plain.1 ∧
      ((∃ u, Round p t u) ↔ plain.2.isSome = true) := by
  intro id plain
  have hdriven : Driven p e tasks attributes n s t := ⟨hreliable, hengine, htopic, hempty, hrounds⟩
  have hstart : PlainRun.start s e tasks attributes =
      { tasks, attributes := attributes.insert correlationHeader id, state := e.state } := by
    rw [PlainRun.start, TaskList.ofList_tasks hdistinct]
  obtain ⟨htrigger, hseen, -⟩ := hdriven.follows
  have hmore := hdriven.exists_more_iff
  rw [hstart] at hseen hmore
  exact ⟨htrigger, hseen, hmore⟩

def twoTasks : TaskList :=
  ⟨["a", "b"].map fun d => { phase := "load", destination := d }⟩

/-- A site on which they have been triggered. -/
def twoTasksTriggered : Site Unit :=
  ((Sample.site 10 { reply := .outcome .done }).trigger Sample.pipeline twoTasks ∅).2

theorem transparent_twoTasks :
    ∃ t, Rounds (Sample.post "a" {}) 2 twoTasksTriggered t ∧
      t.observations.getLast? = some (.continued .complete) ∧
      ¬ ∃ u, Round (Sample.post "a" {}) t u := by
  have hplain : ∀ {n : Nat} {t : Site Unit}, Rounds (Sample.post "a" {}) n twoTasksTriggered t →
      _ := fun h => Rounds.transparent (e := Sample.engine { reply := .outcome .done })
    (fun _ => rfl) rfl rfl rfl (by decide) h
  obtain ⟨t₁, h₁⟩ := (hplain .none).2.2.2 rfl
  obtain ⟨t₂, h₂⟩ := (hplain (.more h₁ .none)).2.2.2 (by decide +kernel)
  obtain ⟨-, hseen, hnext⟩ := hplain (.more h₁ (.more h₂ .none))
  refine ⟨t₂, .more h₁ (.more h₂ .none), ?_, fun hround => ?_⟩
  · rw [hseen]
    decide +kernel
  · exact absurd (hnext.1 hround) (by decide +kernel)

end Site

end TaskRelay
