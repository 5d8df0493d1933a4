import TaskRelay.Proofs.Context
import TaskRelay.Proofs.Run.Rounds
import TaskRelay.Proofs.TaskList.Priority

/-!
# One iteration

What an iteration does on any batch of distinct units of work (`Site.iteration_spec`).  It calls the
step of the one task that comes before all others, and nothing is published until the step has
replied.  The reply settles what becomes of the task (`Pipeline.Adds`); the others are left as they
are, and are published together with what is added to them (`Site.Concludes`).

What is added, and what travels with it, is told by the headers one by one, from what the step has
written, the headers of the task and the attributes of the batch.
-/

namespace TaskRelay

variable {σ : Type}

/-! ## What becomes of the task -/

namespace Task

/-- The loop counter of a task that is put back; it stays at the largest number there is. -/
def nextLoopCounter (t : Task) : Nat :=
  min (t.loopCounter.toNat + 1) 4294967295

/-- A task that follows is the one that the step has named, without a loop counter.  It has what the
step has written under names under which it has nothing of its own. -/
structure IsFollowUp (edits : List Context.Edit) (next following : Task) : Prop where
  phase_eq : following.phase = next.phase
  subStep_eq : following.subStep = next.subStep
  destination_eq : following.destination = next.destination
  header?_eq : ∀ name, following.header? name =
    if name = loopCounterHeader then none
    else (next.header? name).or (Context.writes? edits name)

/-- A task that is put back is the same, with what its step has written laid over its headers and
with the next loop counter. -/
structure IsPutBack (edits : List Context.Edit) (t back : Task) : Prop where
  phase_eq : back.phase = t.phase
  subStep_eq : back.subStep = t.subStep
  destination_eq : back.destination = t.destination
  loopCounter_eq : back.loopCounter.toNat = t.nextLoopCounter
  header?_eq : ∀ name, back.header? name =
    if name = loopCounterHeader then some t.nextLoopCounter.repr
    else (Context.writes? edits name).or (t.header? name)

end Task

namespace Pipeline

/-- What an answer adds to the other tasks, how long they are held back, and what is reported about
the task itself. -/
inductive Adds (p : Pipeline) (t : Task) (others : List Task) (edits : List Context.Edit) :
    Outcome → List Task → Nat → List Notice → Prop
  | nothing (hnext : Context.scheduled? edits = none) : Adds p t others edits .done [] 0 []
  /-- The unit of work that is to follow is there already. -/
  | waiting {next : Task} (hnext : Context.scheduled? edits = some next)
      (hwaits : next.key ∈ others.map Task.key) : Adds p t others edits .done [] 0 []
  | following {next following : Task} (hnext : Context.scheduled? edits = some next)
      (hnew : next.key ∉ others.map Task.key) (hfollowing : next.IsFollowUp edits following) :
      Adds p t others edits .done [following] 0 []
  | puttingBack {back : Task} (hlimit : t.nextLoopCounter ≤ p.retry.maxRetries.toNat)
      (hback : t.IsPutBack edits back) : Adds p t others edits .reschedule [back] p.retry.delay []
  | givingUp (hlimit : p.retry.maxRetries.toNat < t.nextLoopCounter) :
      Adds p t others edits .reschedule [] 0
        [{ action := t.destination, state := .timeout
           detail := some ("gave up after " ++ t.nextLoopCounter.repr ++ " reschedules") }]

/-- The attributes of the message that continues a run: its correlation id, and the carried headers
that the step has seen in the end, be they written by it, of its task or of the batch. -/
def Carries (p : Pipeline) (id : String) (t : Task) (attributes : Headers)
    (edits : List Context.Edit) (carried : Headers) : Prop :=
  ∀ name, carried.get? name =
    if name = correlationHeader then some id
    else if p.carry.carries name then
      (Context.writes? edits name).or ((t.header? name).or (attributes.get? name))
    else none

end Pipeline

/-- What the end of an iteration comes to, from the site `v` on, when the step of the task `t` has
replied and `others` are the tasks besides. -/
inductive Site.Concludes (p : Pipeline) (id : String) (t : Task) (others : List Task)
    (attributes : Headers) (a : Attempt) (v : Site σ) : Continuation → Site σ → Prop
  | aborted {e : StepError} {w : Site σ} (hreply : a.reply = .error e)
      (hchannel : w.channel = v.channel)
      (hshown : w.observations = v.observations ++
        [.report id p.domain { action := t.destination, state := .failed, detail := e.message },
          .continued .aborted]) : Concludes p id t others attributes a v .aborted w
  | complete {o : Outcome} {delay : Nat} {notices : List Notice} {w : Site σ}
      (hreply : a.reply = .outcome o) (hadds : p.Adds t others a.edits o [] delay notices)
      (hothers : others = []) (hchannel : w.channel = v.channel)
      (hshown : w.observations = v.observations ++
        (notices.map (.report id p.domain) ++
          [.report id p.domain { action := p.action, state := .ok }, .continued .complete])) :
      Concludes p id t others attributes a v .complete w
  | requeued {o : Outcome} {added : List Task} {delay : Nat} {notices : List Notice} {m : Message}
      {w : Site σ} (hreply : a.reply = .outcome o)
      (hadds : p.Adds t others a.edits o added delay notices) (hne : others ++ added ≠ [])
      (htasks : TaskList.decode? m.payload = some ⟨others ++ added⟩)
      (hattributes : p.Carries id t attributes a.edits m.attributes)
      (hchannel : w.channel = v.channel.publish p.topic m (v.now + delay))
      (hshown : w.observations = v.observations ++
        (notices.map (.report id p.domain) ++
          [.continued (.requeued (others ++ added).length delay)])) :
      Concludes p id t others attributes a v (.requeued (others ++ added).length delay) w

/-! ## The task that comes first -/

/-- Of distinct units of work one comes before all others. -/
theorem TaskList.exists_first {l : TaskList} (h : l.Distinct) (hne : l.tasks ≠ [])
    (order : PhaseOrder) :
    ∃ before t after, l.tasks = before ++ t :: after ∧
      l.popNext? order = some (t, ⟨before ++ after⟩) ∧
      ∀ u ∈ before ++ after, priority order t u = .lt := by
  cases hpop : l.popNext? order with
  | none => exact absurd (popNext?_eq_none_iff.1 hpop) hne
  | some popped =>
    obtain ⟨t, rest⟩ := popped
    obtain ⟨before, after, hl, hrest, -⟩ := popNext?_split hpop
    obtain ⟨hnew, -⟩ := distinct_popNext? hpop h
    refine ⟨before, t, after, hl, by rw [← hrest], fun u hu => ?_⟩
    rw [← hrest] at hu
    rcases Ordering.isLE_iff_eq_lt_or_eq_eq.1 (isLE_of_popNext? hpop u hu) with hlt | heq
    · exact hlt
    · exact absurd (key_eq_of_priority_eq heq ▸ List.mem_map_of_mem hu) hnew

/-! ## The answer of its step -/

section Answers

variable {p : Pipeline} {t : Task} {others : List Task} {attributes : Headers} {id : String}
  {c : Context}

/-- A context as it is given to the step of a task. -/
structure Context.IsFor (t : Task) (attributes : Headers) (id : String) (c : Context) : Prop where
  task_eq : c.task = t
  loopCounter_eq : c.loopCounter = t.loopCounter
  correlationId_eq : c.correlationId = id
  written_eq : c.written = []
  followUp_eq : c.followUp = none
  header?_eq : ∀ name, ¬ Context.IsReserved name →
    c.header? name = (t.header? name).or (attributes.get? name)

theorem isFollowUp_handedOn (hc : c.written = []) (edits : List Context.Edit) (next : Task) :
    next.IsFollowUp edits ((c.editAll edits).handedOn next) where
  phase_eq := rfl
  subStep_eq := rfl
  destination_eq := rfl
  header?_eq name := by
    split
    · next heq =>
      subst heq
      show ((next.headers.overlay _).erase loopCounterHeader).get? loopCounterHeader = none
      rw [Headers.get?_erase, if_pos rfl]
    · next hne => rw [Context.header?_handedOn _ _ hne, Context.get?_writtenHeaders_eq hc]

theorem isPutBack_retryTask (hc : c.IsFor t attributes id) (edits : List Context.Edit) :
    t.IsPutBack edits ((c.editAll edits).retryTask (RetryPolicy.succCounter t.loopCounter)) := by
  have htask : (c.editAll edits).task = t := (c.editAll_task edits).trans hc.task_eq
  have hcounter := RetryPolicy.toNat_succCounter_eq t.loopCounter
  refine ⟨by rw [← htask]; rfl, by rw [← htask]; rfl, by rw [← htask]; rfl, ?_, fun name => ?_⟩
  · rw [Context.loopCounter_retryTask, hcounter, Task.nextLoopCounter]
  · split
    · next heq =>
      subst heq
      rw [Task.header?, Context.retryTask, Task.withHeader, Headers.get?_insert, if_pos rfl, hcounter,
        Task.nextLoopCounter]
    · next hne =>
      rw [Context.header?_retryTask _ _ hne, Context.get?_writtenHeaders_eq hc.written_eq, htask]

/-- Whatever the answer, the other tasks are left, with what it adds. -/
theorem exists_adds (p : Pipeline) (hc : c.IsFor t attributes id)
    (hnew : t.key ∉ others.map Task.key) (edits : List Context.Edit) (o : Outcome) :
    ∃ added, p.Adds t others edits o added (p.delayAfter (c.editAll edits) o)
        (p.noticesAfter (c.editAll edits) o) ∧
      (p.tasksAfter ⟨others⟩ (c.editAll edits) o).tasks = others ++ added := by
  have hloop : (c.editAll edits).loopCounter = t.loopCounter :=
    (c.editAll_loopCounter edits).trans hc.loopCounter_eq
  have htask : (c.editAll edits).task = t := (c.editAll_task edits).trans hc.task_eq
  have hcounter := RetryPolicy.toNat_succCounter_eq t.loopCounter
  simp only [Pipeline.delayAfter, Pipeline.noticesAfter, Pipeline.tasksAfter, hloop]
  cases o with
  | done =>
    have hnext := c.followUp_editAll_eq edits
    rw [hc.followUp_eq, Option.or_none] at hnext
    simp only [RetryPolicy.decide, Context.preparedFollowUp_eq, hnext]
    cases hscheduled : Context.scheduled? edits with
    | none => exact ⟨[], .nothing hscheduled, (List.append_nil _).symm⟩
    | some next =>
      have hkey := (c.editAll edits).key_handedOn next
      simp only [Option.map_some, Pipeline.withFollowUp]
      by_cases hwaits : next.key ∈ others.map Task.key
      · refine ⟨[], .waiting hscheduled hwaits, ?_⟩
        rw [TaskList.add_of_mem (by rw [hkey]; exact hwaits), List.append_nil]
      · refine ⟨_, .following hscheduled hwaits (isFollowUp_handedOn hc.written_eq edits next), ?_⟩
        rw [TaskList.add_of_not_mem (by rw [hkey]; exact hwaits)]
  | reschedule =>
    cases hexhausted : p.retry.isExhausted (RetryPolicy.succCounter t.loopCounter) with
    | true =>
      have hlt := UInt32.lt_iff_toNat_lt.1 (of_decide_eq_true hexhausted)
      rw [hcounter] at hlt
      rw [RetryPolicy.decide_reschedule_of_exhausted hexhausted]
      simp only [htask, Pipeline.timeoutDetail, hcounter]
      exact ⟨[], .givingUp hlt, (List.append_nil _).symm⟩
    | false =>
      have hle := UInt32.le_iff_toNat_le.1 (UInt32.not_lt.1 (of_decide_eq_false hexhausted))
      rw [hcounter] at hle
      rw [RetryPolicy.decide_reschedule_of_not_exhausted hexhausted]
      refine ⟨_, .puttingBack hle (isPutBack_retryTask hc edits), ?_⟩
      have hkey := (c.editAll edits).key_retryTask (RetryPolicy.succCounter t.loopCounter)
      rw [htask] at hkey
      exact congrArg TaskList.tasks (TaskList.add_of_not_mem (by rw [hkey]; exact hnew))

theorem carries_carriedAttributes (p : Pipeline) (hc : c.IsFor t attributes id)
    (edits : List Context.Edit) :
    p.Carries id t attributes edits ((c.editAll edits).carriedAttributes p.carry) := by
  intro name
  rw [Context.carriedAttributes, Headers.get?_insert, c.editAll_correlationId, hc.correlationId_eq]
  split
  · next heq => rw [if_pos heq.symm]
  · next hne =>
    rw [if_neg (Ne.symm hne), CarryOver.select, Headers.get?_filter]
    split
    · next hcarries =>
      have hreserved : ¬ Context.IsReserved name := by
        rintro (rfl | rfl)
        · rw [CarryOver.carries, decide_eq_false (fun hne => hne rfl)] at hcarries
          cases hcarries
        · exact hne rfl
      rw [← hc.header?_eq name hreserved, Context.writes?, if_neg hreserved,
        ← Context.header?_editAll hreserved]
      rfl
    · rfl

end Answers

/-! ## From the beginning to the end -/

theorem Context.isFor_rehydrate (t : Task) (attributes : Headers) (fresh : String) :
    (rehydrate t attributes fresh).IsFor t attributes
      (((t.header? correlationHeader).or (attributes.get? correlationHeader)).getD fresh) where
  task_eq := rfl
  loopCounter_eq := rfl
  correlationId_eq := correlationId_rehydrate t attributes fresh
  written_eq := rfl
  followUp_eq := rfl
  header?_eq _ hreserved := header?_rehydrate hreserved t attributes fresh

namespace Site

variable {s v : Site σ}

/-- Where no call fails a conclusion is carried out: what it shows is seen, and its message is
published. -/
theorem exists_carryOut (hv : v.IsReliable) (i : Nat) (p : Pipeline) (id : String)
    (c : Conclusion) :
    ∃ w, v.carryOut i p id c = (.ok c.continuation, w) ∧
      w.observations = v.observations ++ shown p id c ∧
      w.channel = match c.requeue with
        | none => v.channel
        | some (m, delay) => v.channel.publish p.topic m (v.now + delay) := by
  have hchannel := channel_carryOut hv.canPublish i p id c
  have hreported := (keeps_reportAll v id p.domain c.notices).isReliable hv
  have hseen := observations_reportAll hv id p.domain c.notices
  rw [carryOut] at hchannel ⊢
  generalize v.reportAll id p.domain c.notices = reported at hchannel hreported hseen ⊢
  have hrecorded : ∀ (t : Site σ), t.observations = reported.observations →
      (t.record (.continued i c.continuation)).observations = v.observations ++ shown p id c := by
    intro t ht
    rw [observations_record, ht, hseen, List.append_assoc]
    rfl
  cases hrequeue : c.requeue with
  | none =>
    simp only [hrequeue] at hchannel ⊢
    exact ⟨_, rfl, hrecorded _ rfl, hchannel⟩
  | some requeue =>
    obtain ⟨m, delay⟩ := requeue
    have hfault : reported.faults (publishing (if delay = 0 then none else some delay)) = 0 :=
      hreported _
    simp only [hrequeue, publish_eq _ _ _ _ hfault] at hchannel ⊢
    exact ⟨_, rfl, hrecorded _ rfl, hchannel⟩

/-- The end of a call, at whatever site it comes to its end. -/
theorem exists_concludes {d : Dispatch} {t : Task} {others : List Task} {attributes : Headers}
    {id : String} (hv : v.IsReliable) (hc : d.context.IsFor t attributes id)
    (hrest : d.rest = ⟨others⟩) (hnew : t.key ∉ others.map Task.key)
    (hreply : d.attempt.reply ≠ .panic) :
    ∃ result w, v.endIteration d = (some (.ok result), w) ∧
      Concludes d.pipeline id t others attributes d.attempt v result w := by
  have hnoted : (v.noted d).IsReliable := (keeps_noted v d).isReliable hv
  have htask := (d.context.editAll_task d.attempt.edits).trans hc.task_eq
  have hend := endIteration_eq v d
  rw [hc.correlationId_eq, hrest] at hend
  cases hanswer : d.attempt.reply with
  | panic => exact absurd hanswer hreply
  | error e =>
    rw [hanswer] at hend
    simp only [Pipeline.conclude?, htask] at hend
    obtain ⟨w, hcarry, hseen, hchannel⟩ := exists_carryOut hnoted d.engine d.pipeline id
      { notices := [{ action := t.destination, state := .failed, detail := e.message }]
        continuation := .aborted }
    rw [hcarry] at hend
    rw [observations_noted] at hseen
    exact ⟨_, w, hend, .aborted hanswer (hchannel.trans (channel_noted v d)) hseen⟩
  | outcome o =>
    rw [hanswer] at hend
    simp only [Pipeline.conclude?, Pipeline.concludeOutcome_eq] at hend
    obtain ⟨added, hadds, htasks⟩ := exists_adds d.pipeline hc hnew d.attempt.edits o
    have hcarries := carries_carriedAttributes d.pipeline hc d.attempt.edits
    generalize d.pipeline.tasksAfter ⟨others⟩ (d.context.editAll d.attempt.edits) o = left
      at hend htasks
    generalize (d.context.editAll d.attempt.edits).carriedAttributes d.pipeline.carry = carried
      at hend hcarries
    generalize d.pipeline.delayAfter (d.context.editAll d.attempt.edits) o = delay at hend hadds
    generalize d.pipeline.noticesAfter (d.context.editAll d.attempt.edits) o = notices
      at hend hadds
    obtain ⟨tasks⟩ := left
    have hleft : tasks = others ++ added := htasks
    subst hleft
    by_cases hempty : others ++ added = []
    · have hnone : TaskList.tasks ⟨others ++ added⟩ = [] := hempty
      have hadvance := Pipeline.advance_of_eq_empty hnone d.pipeline carried delay
      rw [hadvance] at hend
      obtain ⟨w, hcarry, hseen, hchannel⟩ := exists_carryOut hnoted d.engine d.pipeline id
        { notices := notices ++ [{ action := d.pipeline.action, state := .ok }]
          continuation := .complete }
      rw [hcarry] at hend
      rw [observations_noted, shown, List.map_append, List.append_assoc] at hseen
      obtain ⟨rfl, rfl⟩ := List.append_eq_nil_iff.1 hempty
      exact ⟨_, w, hend, .complete hanswer hadds rfl (hchannel.trans (channel_noted v d)) hseen⟩
    · have hsome : TaskList.tasks ⟨others ++ added⟩ ≠ [] := hempty
      have hadvance := Pipeline.advance_of_ne_empty hsome d.pipeline carried delay
      rw [hadvance] at hend
      let m : Message := { attributes := carried, payload := TaskList.encode ⟨others ++ added⟩ }
      obtain ⟨w, hcarry, hseen, hchannel⟩ := exists_carryOut hnoted d.engine d.pipeline id
        { notices := notices ++ [], requeue := some (m, delay)
          continuation := .requeued (others ++ added).length delay }
      have hended : v.endIteration d = (some (.ok (.requeued (others ++ added).length delay)), w) := by
        rw [hend]
        exact congrArg (fun r => (some r.1, r.2)) hcarry
      rw [observations_noted, shown, List.append_nil] at hseen
      simp only [channel_noted, (keeps_noted v d).now_eq] at hchannel
      exact ⟨_, w, hended, .requeued (m := m) hanswer hadds hempty (TaskList.decode?_encode _)
        hcarries hchannel hseen⟩

theorem idFor_fst (s : Site σ) (id : Option String) : (s.idFor id).1 = id.getD s.nextId := by
  cases id <;> rfl

theorem correlationOf?_of_popNext? {b : Batch} {t : Task} {rest : TaskList} {order : PhaseOrder}
    (h : b.tasks.popNext? order = some (t, rest)) :
    b.correlationOf? order =
      (t.header? correlationHeader).or (b.attributes.get? correlationHeader) := by
  rw [Batch.correlationOf?, h]
  exact Context.correlationOf?_eq t b.attributes

/-- **One iteration, exactly.**  On a batch of distinct units of work, of which there is one at least,
an iteration calls the step of the task that comes before all others, once, and publishes nothing
before it has replied.  When the step has replied, be it at whatever site, the iteration ends as
`Concludes` says. -/
theorem iteration_spec {i : Nat} {e : Engine σ} {b : Batch} (hs : s.IsReliable)
    (hengine : s.engines[i]? = some e) (hdistinct : b.tasks.Distinct) (hne : b.tasks.tasks ≠ []) :
    ∃ before t after, b.tasks.tasks = before ++ t :: after ∧
      (∀ u ∈ before ++ after, TaskList.priority e.pipeline.order t u = .lt) ∧
      let id := ((t.header? correlationHeader).or (b.attributes.get? correlationHeader)).getD s.nextId
      let context := Context.rehydrate t b.attributes id
      let called := e.service.invoke context e.state
      ∃ d begun, s.beginIteration i e b = (.dispatched d, begun) ∧
        d.attempt = called.1 ∧ d.ends = s.now + called.1.duration ∧
        begun.engines = s.engines.set i { e with state := called.2 } ∧
        begun.channel = s.channel ∧
        begun.observations = s.observations ++
          ((Pipeline.startNotices context).map (.report id e.pipeline.domain) ++
            [.dispatch context]) ∧
        (called.1.reply ≠ .panic → ∀ v : Site σ, v.IsReliable →
          ∃ result w, v.endIteration d = (some (.ok result), w) ∧
            Concludes e.pipeline id t (before ++ after) b.attributes called.1 v result w) := by
  obtain ⟨before, t, after, htasks, hpop, hfirst⟩ :=
    TaskList.exists_first hdistinct hne e.pipeline.order
  obtain ⟨hnew, -⟩ := TaskList.distinct_popNext? hpop hdistinct
  refine ⟨before, t, after, htasks, hfirst, ?_⟩
  intro id context called
  have hid : (s.idFor (b.correlationOf? e.pipeline.order)).1 = id := by
    rw [idFor_fst, correlationOf?_of_popNext? hpop]
  have hc : context.IsFor t b.attributes id := by
    have hfor := Context.isFor_rehydrate t b.attributes id
    have hsame : ((t.header? correlationHeader).or (b.attributes.get? correlationHeader)).getD id =
        id := by
      show Option.getD _ (Option.getD _ _) = Option.getD _ _
      cases (t.header? correlationHeader).or (b.attributes.get? correlationHeader) <;> rfl
    rwa [hsame] at hfor
  have hchoose : e.pipeline.choose b id = .dispatch context ⟨before ++ after⟩ := by
    rw [Pipeline.choose, hpop]
  have hbegin := beginIteration_eq s i e b
  rw [hid] at hbegin
  simp only [hchoose] at hbegin
  have hgiven : Serves { engine := i, topic := e.pipeline.topic, holder := "", settings := {} }
      e.pipeline e.service e.state (s.channel.messages e.pipeline.topic) s := ⟨hs, hengine, rfl⟩
  obtain ⟨hseen, -⟩ := (hgiven.idFor (b.correlationOf? e.pipeline.order)).calling context id
  rw [observations_idFor] at hseen
  have hkept := keeps_idFor s (b.correlationOf? e.pipeline.order)
  have hsame : (s.idFor (b.correlationOf? e.pipeline.order)).2.engines[i]? = some e := by
    rw [engines_idFor, hengine]
  refine ⟨_, _, hbegin, rfl, ?_, ?_, ?_, hseen, fun hreply v hv => ?_⟩
  · rw [Dispatch.ends, (keeps_calling hsame context id).now_eq, hkept.now_eq]
  · rw [engines_calling, engines_idFor]
  · rw [channel_calling, channel_idFor]
  · exact exists_concludes hv hc rfl hnew hreply

/-- A step that writes a header and wants to see its task again. -/
def awaiting : Attempt :=
  { duration := 3, edits := [.setHeader "h" "1"], reply := .outcome .reschedule }

/-- A task in flight that waits for another, and two that are behind it. -/
def crowd : TaskList :=
  ⟨[{ phase := "load", destination := "a" }, { phase := "load", subStep := 1, destination := "b" },
    { phase := "TIDY", destination := "c" }]⟩

theorem iteration_spec_crowd :
    ∃ d begun w t others, (Sample.site 10 awaiting).beginIteration 0 (Sample.engine awaiting)
        { tasks := crowd } = (.dispatched d, begun) ∧
      d.ends = 3 ∧ t ∈ crowd.tasks ∧
      begun.endIteration d = (some (.ok (.requeued 3 15000)), w) ∧
      Concludes Sample.pipeline "1" t others ∅ awaiting begun (.requeued 3 15000) w := by
  obtain ⟨before, t, after, htasks, -, d, begun, hbegin, -, hends, -, -, -, hend⟩ :=
    iteration_spec (s := Sample.site 10 awaiting) (i := 0) (e := Sample.engine awaiting)
      (b := { tasks := crowd }) (fun _ => rfl) rfl (by decide) (by decide)
  have hkeeps := keeps_beginIteration (s := Sample.site 10 awaiting) (i := 0)
    (e := Sample.engine awaiting) rfl { tasks := crowd }
  rw [hbegin] at hkeeps
  obtain ⟨result, w, hended, hconcludes⟩ := hend nofun begun (hkeeps.isReliable fun _ => rfl)
  have hmem : t ∈ crowd.tasks := htasks ▸ List.mem_append_right before List.mem_cons_self
  have hid : ((t.header? correlationHeader).or ((∅ : Headers).get? correlationHeader)).getD
      (Sample.site 10 awaiting).nextId = "1" :=
    (by decide : ∀ u ∈ crowd.tasks, ((u.header? correlationHeader).or
      ((∅ : Headers).get? correlationHeader)).getD (Sample.site 10 awaiting).nextId = "1") t hmem
  have hcount : (before ++ after).length = 2 := by
    have hlength := congrArg List.length htasks
    rw [List.length_append, List.length_cons] at hlength
    rw [List.length_append]
    exact Nat.succ.inj hlength.symm
  have hfirst : t.nextLoopCounter = 1 :=
    (by decide : ∀ u ∈ crowd.tasks, u.nextLoopCounter = 1) t hmem
  have hresult : result = .requeued 3 15000 := by
    cases hconcludes with
    | aborted hreply => cases hreply
    | complete hreply hadds hothers => rw [hothers] at hcount; cases hcount
    | requeued hreply hadds =>
      cases hreply
      cases hadds with
      | puttingBack => rw [List.length_append, hcount]; rfl
      | givingUp hlimit => rw [hfirst] at hlimit; exact absurd hlimit (by decide)
  subst hresult
  exact ⟨d, begun, w, t, before ++ after, hbegin, hends, hmem, hended, hid ▸ hconcludes⟩

end Site

end TaskRelay
