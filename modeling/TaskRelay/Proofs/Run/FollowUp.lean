import TaskRelay.Proofs.Context
import TaskRelay.Proofs.Run.Protocol

/-!
# What a task that follows sees

A task in the list of a run stays there as it is until it is called (`context_of_find?_calls`):
tasks that follow or are put back in the meantime do not touch it.  So what a step writes, and hands
on to the task that it lets follow, is what the step of that task sees, however many other calls
come before (`Site.Iterates.handsOn`).  A task is not taken into the list, though, where its unit of
work is waiting already; that one is called as it has been, without what the step has written
(`Site.handsOver_waiting`).
-/

namespace TaskRelay

variable {σ : Type}

/-! ## Waiting in the list -/

theorem TaskList.mem_tasks_add_of_mem {l : TaskList} {u : Task} (h : u ∈ l.tasks) (t : Task) :
    u ∈ (l.add t).tasks := by
  by_cases hmem : t.key ∈ l.keys
  · rwa [add_of_mem hmem]
  · rw [add_of_not_mem hmem]
    exact List.mem_append_left _ h

/-- The tasks that were there besides are left as they were. -/
theorem Pipeline.mem_tasks_tasksAfter_of_mem {p : Pipeline} {rest : TaskList} {context : Context}
    {outcome : Outcome} {u : Task} (h : u ∈ rest.tasks) :
    u ∈ (p.tasksAfter rest context outcome).tasks := by
  unfold tasksAfter
  split
  · cases context.preparedFollowUp with
    | none => exact h
    | some next => exact TaskList.mem_tasks_add_of_mem h next
  · exact TaskList.mem_tasks_add_of_mem h _
  · exact h

namespace PlainRun

variable {p : Pipeline} {v : Service σ} {r : PlainRun σ} {c : Call σ} {u : Task}

/-- A task of the list is called as it is, or it waits on. -/
theorem called_or_waits (hr : r.IsSound) (hcall : r.call? p v = some c) (hu : u ∈ r.tasks.tasks) :
    (c.key = u.key ∧ c.context = Context.rehydrate u r.attributes r.correlationId) ∨
      c.key ≠ u.key ∧ ∀ next, c.next = some next → u ∈ next.tasks.tasks := by
  obtain ⟨task, rest, hpop, hc⟩ := popNext?_of_call? hcall
  have hkey : c.key = task.key := hc ▸ rfl
  rcases (TaskList.mem_tasks_popNext? hpop).1 hu with rfl | hrest
  · exact .inl ⟨hkey, hc ▸ rfl⟩
  · have hgone := (TaskList.distinct_popNext? hpop hr.distinct).1
    have hmem : u.key ∈ rest.keys := List.mem_map_of_mem hrest
    refine .inr ⟨fun heq => hgone (heq.symm.trans hkey ▸ hmem), fun next hnext => ?_⟩
    obtain ⟨task', rest', outcome, hpop', -, -, rfl⟩ := exists_after hr hcall hnext
    cases hpop.symm.trans hpop'
    exact Pipeline.mem_tasks_tasksAfter_of_mem hrest

/-- **A task is called as it is in the list**, whatever is called before. -/
theorem context_of_find?_calls {n : Nat} (hr : r.IsSound) (hu : u ∈ r.tasks.tasks)
    (h : (r.calls p v n).find? (·.key == u.key) = some c) :
    ∃ attributes fresh, c.context = Context.rehydrate u attributes fresh := by
  generalize hcalls : r.calls p v n = calls at h
  induction calls generalizing r n with
  | nil => cases h
  | cons first later ih =>
    obtain ⟨hcall, hlater⟩ := calls_eq_cons hr hcalls
    rw [List.find?_cons] at h
    rcases called_or_waits hr hcall hu with ⟨hkey, hcontext⟩ | ⟨hne, hwaits⟩
    · rw [beq_iff_eq.2 hkey] at h
      cases h
      exact ⟨_, _, hcontext⟩
    · rw [beq_eq_false_iff_ne.2 hne] at h
      rcases hlater with rfl | ⟨m, next, hnext, hsound, rfl⟩
      · cases h
      · exact ih hsound (hwaits next hnext) rfl h

end PlainRun

theorem TaskList.isComplete_add (l : TaskList) (t : Task) : (l.add t).isComplete = false := by
  have hmem : t.key ∈ (l.add t).keys := mem_keys_add.2 (.inr rfl)
  cases htasks : (l.add t).tasks with
  | nil =>
    rw [keys, htasks] at hmem
    cases hmem
  | cons u tasks => rw [isComplete, htasks, List.isEmpty_cons]

/-- A run whose step is done and lets a task follow goes on with it. -/
theorem PlainRun.conclude_done (pl : Pipeline) (rest : TaskList) (state : σ) {context : Context}
    {next : Task} (h : context.followUp = some next) :
    conclude pl rest state context (.outcome .done) =
      ([.continued (.requeued (rest.add (context.handedOn next)).size 0)],
        some { tasks := rest.add (context.handedOn next)
               attributes := context.carriedAttributes pl.carry, state }) := by
  have hprepared : context.preparedFollowUp = some (context.handedOn next) := by
    rw [Context.preparedFollowUp_eq, h, Option.map_some]
  simp only [conclude, RetryPolicy.decide, hprepared, Pipeline.withFollowUp, proceed,
    TaskList.isComplete_add, Bool.false_eq_true, if_false]

/-! ## An iteration on any batch -/

namespace Site

variable {p : Post} {pl : Pipeline} {v : Service σ} {state : σ} {b : Batch} {s t u : Site σ}
  {context : Context} {rest : TaskList} {n : Nat}

/-- The id under which an iteration reports is the one that its step sees. -/
theorem correlationId_of_choose
    (h : pl.choose b (s.idFor (b.correlationOf? pl.order)).1 = .dispatch context rest) :
    context.correlationId = (s.idFor (b.correlationOf? pl.order)).1 := by
  rw [Pipeline.choose] at h
  cases hpop : b.tasks.popNext? pl.order with
  | none =>
    rw [hpop] at h
    cases h
  | some popped =>
    rw [hpop] at h
    cases h
    rw [Batch.correlationOf?, hpop]
    simp only [Context.rehydrate]
    cases Context.correlationOf? popped.1 b.attributes <;> rfl

/-- An iteration that calls a step shows the call and what the reply comes to, and goes on with a
run.  The batch may be any. -/
theorem Iterates.follows_of_choose (h : Iterates p b s t) (hs : Serves p pl v state [] s)
    (htopic : pl.topic = p.topic)
    (hchoose : pl.choose b (s.idFor (b.correlationOf? pl.order)).1 = .dispatch context rest)
    (hrest : rest.Distinct) :
    let called := v.invoke context state
    let next := PlainRun.conclude pl rest called.2 (context.editAll called.1.edits) called.1.reply
    t.observations = s.observations ++
        ((Pipeline.startNotices context).map (.report context.correlationId pl.domain) ++
          .dispatch context :: next.1) ∧
      PlainRun.Follows p pl v t next.2 := by
  intro called next
  have hid := correlationId_of_choose hchoose
  obtain ⟨hseen, hserves⟩ := (hs.idFor (b.correlationOf? pl.order)).calling context
    context.correlationId
  rw [observations_idFor] at hseen
  have hbegun := beginIteration_eq s p.engine { pipeline := pl, service := v, state } b
  simp only [hchoose] at hbegun
  rw [← hid] at hbegun
  generalize (s.idFor (b.correlationOf? pl.order)).2.calling p.engine
    { pipeline := pl, service := v, state } context context.correlationId = begun
    at hseen hserves hbegun
  cases h with
  | atOnce hengine hbegin =>
    cases hs.engine.symm.trans hengine
    cases hbegun.symm.trans hbegin
  | @called _ _ _ _ _ instant hengine hbegin hle hends hend =>
    cases hs.engine.symm.trans hengine
    cases hbegun.symm.trans hbegin
    obtain ⟨hended, hfollows⟩ := (hserves.pass instant).endIteration htopic (d := {
      engine := p.engine, pipeline := pl, context, rest, attempt := called.1
      start := begun.now }) rfl rfl hrest
    rw [hend] at hended hfollows
    refine ⟨?_, hfollows⟩
    rw [hended, observations_pass, hseen, List.append_assoc, List.append_assoc]
    rfl

theorem filterMap_startNotices (context : Context) (id domain : String) :
    ((Pipeline.startNotices context).map (.report id domain)).filterMap Observation.context? =
      [] := by
  rw [List.filterMap_map, List.filterMap_eq_nil_iff]
  exact fun _ _ => rfl

/-- The steps that are seen to be called in some rounds are those of the run. -/
theorem Rounds.dispatched {r : PlainRun σ} (h : Rounds p n s t)
    (hs : PlainRun.Follows p pl v s (some r)) (htopic : pl.topic = p.topic) :
    ∃ shown, t.observations = s.observations ++ shown ∧
      shown.filterMap Observation.context? = (r.calls pl v n).map Call.context :=
  ⟨_, (h.follows hs htopic).1, (PlainRun.course n hs.1).dispatched⟩

/-! ## Handing on what has been written -/

/-- A step has written a header, is done, and lets a task follow that has nothing under the name. -/
structure HandsOver (context : Context) (attempt : Attempt) (name value : String) (next : Task) :
    Prop where
  reply : attempt.reply = .outcome .done
  unreserved : ¬ Context.IsReserved name
  written : Context.lastWritten? name attempt.edits = some value
  followUp : (context.editAll attempt.edits).followUp = some next
  lacks : next.header? name = none

theorem popNext?_of_choose {fresh : String} (h : pl.choose b fresh = .dispatch context rest) :
    ∃ task, b.tasks.popNext? pl.order = some (task, rest) ∧
      context = Context.rehydrate task b.attributes fresh := by
  rw [Pipeline.choose] at h
  cases hpop : b.tasks.popNext? pl.order with
  | none =>
    rw [hpop] at h
    cases h
  | some popped =>
    rw [hpop] at h
    cases h
    exact ⟨_, rfl, rfl⟩

/-- **What a step writes, the step of the task that follows sees.**  A batch of distinct units of
work is worked on at a topic with nothing on it, and the step of its first task writes a header and
lets a task follow whose unit of work is not waiting.  However many other steps are called before,
in the first call of that unit of work the step sees what has been written. -/
theorem Iterates.handsOn {name value : String} {next : Task} (hs : Serves p pl v state [] s)
    (htopic : pl.topic = p.topic) (hdistinct : b.tasks.Distinct)
    (hchoose : pl.choose b (s.idFor (b.correlationOf? pl.order)).1 = .dispatch context rest)
    (hover : HandsOver context (v.invoke context state).1 name value next)
    (hnew : next.key ∉ rest.keys) (hiterates : Iterates p b s u) (hrounds : Rounds p n u t) :
    ∃ shown later, t.observations = s.observations ++ shown ∧
      shown.filterMap Observation.context? = context :: later ∧
      ∀ seen, later.find? (·.task.key == next.key) = some seen →
        seen.header? name = some value := by
  obtain ⟨task, hpop, hcontext⟩ := popNext?_of_choose hchoose
  obtain ⟨hseen, hfollows⟩ := hiterates.follows_of_choose hs htopic hchoose
    (TaskList.distinct_popNext? hpop hdistinct).2
  have hwritten : context.written = [] := by rw [hcontext]; rfl
  have hheader := (context.editAll (v.invoke context state).1.edits).header?_handedOn next
    (fun heq => hover.unreserved (.inl heq) : name ≠ loopCounterHeader)
  rw [hover.lacks, Option.none_or, Context.get?_writtenHeaders_editAll hover.unreserved hwritten,
    hover.written] at hheader
  rw [hover.reply, PlainRun.conclude_done _ _ _ hover.followUp] at hseen hfollows
  have hkey := (context.editAll (v.invoke context state).1.edits).key_handedOn next
  generalize (context.editAll (v.invoke context state).1.edits).handedOn next = following
    at hseen hfollows hheader hkey
  obtain ⟨later, hlater, hcalls⟩ := hrounds.dispatched hfollows htopic
  have hwaits : following ∈ (rest.add following).tasks := by
    rw [TaskList.add_of_not_mem (hkey ▸ hnew)]
    exact List.mem_append_right _ (List.mem_singleton_self following)
  obtain ⟨first, hfirst, honly⟩ : ∃ first, u.observations = s.observations ++ first ∧
      first.filterMap Observation.context? = [context] :=
    ⟨_, hseen, by rw [List.filterMap_append, filterMap_startNotices]; rfl⟩
  refine ⟨first ++ later, later.filterMap Observation.context?, ?_, ?_, fun seen hfind => ?_⟩
  · rw [hlater, hfirst, List.append_assoc]
  · rw [List.filterMap_append, honly]
    rfl
  · rw [hcalls, List.find?_map] at hfind
    obtain ⟨c, hcall, rfl⟩ := Option.map_eq_some_iff.1 hfind
    rw [← hkey] at hcall
    obtain ⟨attributes, fresh, hcontext⟩ :=
      PlainRun.context_of_find?_calls hfollows.1 hwaits hcall
    rw [hcontext, Context.header?_rehydrate hover.unreserved, hheader]
    rfl

/-! ## Two small runs -/

/-- A run that goes on as a value goes on at its topic. -/
theorem exists_rounds {r : PlainRun σ} (hs : PlainRun.Follows p pl v s (some r))
    (htopic : pl.topic = p.topic) (n : Nat)
    (hmore : ∀ k < n, (r.iterations pl v k).2.isSome = true) : ∃ t, Rounds p n s t := by
  induction n with
  | zero => exact ⟨s, .none⟩
  | succ n ih =>
    obtain ⟨t, hrounds⟩ := ih fun k hk => hmore k (Nat.lt_succ_of_lt hk)
    obtain ⟨u, hround⟩ := (isSome_iff_exists_round (hrounds.follows hs htopic).2).2
      (hmore n (Nat.lt_succ_self n))
    exact ⟨u, hrounds.snoc hround⟩

/-- A step that writes a header twice and lets a task follow. -/
def passingOn (next : Task) : Attempt :=
  { edits := [.setHeader "note" "first", .setHeader "note" "last", .scheduleFollowUp next]
    reply := .outcome .done }

def twoTasksBatch : Batch :=
  { tasks := twoTasks, attributes := Headers.insert ∅ correlationHeader "c", messages := 1 }

/-- The context of the first call. -/
def firstContext : Context :=
  .rehydrate { phase := "load", destination := "a" } twoTasksBatch.attributes "c"

/-- What is left besides. -/
def firstRest : TaskList :=
  ⟨[{ phase := "load", destination := "b" }]⟩

theorem choose_twoTasksBatch (s : Site σ) : Sample.pipeline.choose twoTasksBatch
    (s.idFor (twoTasksBatch.correlationOf? Sample.pipeline.order)).1 =
      .dispatch firstContext firstRest := by
  have hid : twoTasksBatch.correlationOf? Sample.pipeline.order = some "c" := by decide +kernel
  have hchoose : Sample.pipeline.choose twoTasksBatch "c" = .dispatch firstContext firstRest := by
    decide +kernel
  rw [hid]
  exact hchoose

theorem handsOver_passingOn {next : Task} (h : next.header? "note" = none) (context : Context) :
    HandsOver context (passingOn next) "note" "last" next where
  reply := rfl
  unreserved := by decide
  written := rfl
  followUp := rfl
  lacks := h

/-- The run after the first call. -/
def passedOn (next : Task) : PlainRun Unit :=
  let context := firstContext.editAll (passingOn next).edits
  { tasks := firstRest.add (context.handedOn next)
    attributes := context.carriedAttributes Sample.pipeline.carry, state := () }

/-- The first call and those of some rounds after it. -/
theorem exists_passingOn (next : Task) (n : Nat)
    (hmore : ∀ k < n, ((passedOn next).iterations Sample.pipeline
      (Sample.engine (passingOn next)).service k).2.isSome = true) :
    ∃ u t, Iterates (Sample.post "a" {}) twoTasksBatch (Sample.site 10 (passingOn next)) u ∧
      Rounds (Sample.post "a" {}) n u t ∧
      t.observations.filterMap Observation.context? = firstContext ::
        ((passedOn next).calls Sample.pipeline (Sample.engine (passingOn next)).service n).map
          Call.context := by
  have hs : Serves (Sample.post "a" {}) Sample.pipeline (Sample.engine (passingOn next)).service ()
      [] (Sample.site 10 (passingOn next)) := ⟨fun _ => rfl, rfl, rfl⟩
  obtain ⟨u, hiterates⟩ := exists_iterates hs.engine twoTasksBatch
  obtain ⟨hseen, hfollows⟩ := hiterates.follows_of_choose hs rfl (choose_twoTasksBatch _)
    (by decide)
  have hscheduled : (firstContext.editAll (passingOn next).edits).followUp = some next := rfl
  have hconclude := PlainRun.conclude_done Sample.pipeline firstRest () hscheduled
  have hpassed : PlainRun.Follows _ _ _ u (some (passedOn next)) := hconclude ▸ hfollows
  obtain ⟨t, hrounds⟩ := exists_rounds hpassed rfl n hmore
  obtain ⟨later, hlater, hcalls⟩ := hrounds.dispatched hpassed rfl
  refine ⟨u, t, hiterates, hrounds, ?_⟩
  have hfirst : u.observations.filterMap Observation.context? = [firstContext] := by
    rw [hseen, List.filterMap_append, List.filterMap_append, filterMap_startNotices]
    exact congrArg (firstContext :: ·.1.filterMap Observation.context?) hconclude
  rw [hlater, List.filterMap_append, hfirst, hcalls]
  rfl

/-- One that follows is called after another task, and its step sees the last value that has been
written. -/
theorem handsOn_twoTasks :
    ∃ u t seen, Iterates (Sample.post "a" {}) twoTasksBatch
        (Sample.site 10 (passingOn { phase := "load", destination := "c" })) u ∧
      Rounds (Sample.post "a" {}) 2 u t ∧
      t.observations.filterMap Observation.context? = firstContext :: seen ∧
      seen.map (·.task.destination) = ["b", "c"] ∧
      ∀ c, seen.find? (·.task.key == ⟨"load", "c"⟩) = some c → c.header? "note" = some "last" := by
  obtain ⟨u, t, hiterates, hrounds, hcalls⟩ :=
    exists_passingOn { phase := "load", destination := "c" } 2 (by decide +kernel)
  have hs : Serves (Sample.post "a" {}) Sample.pipeline
      (Sample.engine (passingOn { phase := "load", destination := "c" })).service () []
      (Sample.site 10 (passingOn { phase := "load", destination := "c" })) :=
    ⟨fun _ => rfl, rfl, rfl⟩
  obtain ⟨shown, later, hshown, hdispatched, hsees⟩ := hiterates.handsOn hs rfl (by decide)
    (choose_twoTasksBatch _) (handsOver_passingOn (by decide) firstContext) (by decide) hrounds
  have hseen : t.observations = shown := hshown
  rw [hseen, hdispatched] at hcalls
  refine ⟨u, t, later, hiterates, hrounds, hseen ▸ hdispatched, ?_, hsees⟩
  rw [List.cons.inj hcalls |>.2]
  decide +kernel

/-- Where the unit of work is waiting already, its step does not see what has been written. -/
theorem handsOver_waiting :
    let next : Task := { phase := "load", destination := "b" }
    (HandsOver firstContext (passingOn next) "note" "last" next ∧ next.key ∈ firstRest.keys) ∧
    ∃ u t seen, Iterates (Sample.post "a" {}) twoTasksBatch (Sample.site 10 (passingOn next)) u ∧
      Rounds (Sample.post "a" {}) 1 u t ∧
      t.observations.filterMap Observation.context? = firstContext :: seen ∧
      seen.map (fun c => (c.task.key, c.header? "note")) = [(next.key, none)] := by
  intro next
  obtain ⟨u, t, hiterates, hrounds, hcalls⟩ := exists_passingOn next 1 (by decide +kernel)
  exact ⟨⟨handsOver_passingOn (by decide) firstContext, by decide⟩, u, t, _, hiterates, hrounds,
    hcalls, by decide +kernel⟩

end Site

end TaskRelay
