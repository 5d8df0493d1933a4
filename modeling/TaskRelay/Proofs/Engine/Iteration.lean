import TaskRelay.Proofs.Headers
import TaskRelay.Proofs.Retry
import TaskRelay.Proofs.Site.Frame
import TaskRelay.Proofs.TaskList.Wire

/-!
# What an iteration hands on

After an answer a run goes on with the tasks that are left, those of `Pipeline.tasksAfter`, after a
pause (`Pipeline.delayAfter`); `concludeOutcome_eq` says that nothing else depends on the verdict.
What is left is published unless it is nothing (`Site.channel_carryOut`).  A step edits its context,
but not the task, its loop counter or the correlation id of the run.
-/

namespace TaskRelay

/-! ## Contexts -/

namespace Context

theorem editAll_cons (c : Context) (e : Edit) (edits : List Edit) :
    c.editAll (e :: edits) = (c.edit e).editAll edits := rfl

theorem edit_task (c : Context) (e : Edit) : (c.edit e).task = c.task := by
  cases e with
  | setHeader name value =>
    rw [edit, setHeader]
    split <;> rfl
  | scheduleFollowUp next => rfl

theorem editAll_task (c : Context) (edits : List Edit) : (c.editAll edits).task = c.task := by
  induction edits generalizing c with
  | nil => rfl
  | cons e edits ih => rw [editAll_cons, ih, edit_task]

theorem edit_loopCounter (c : Context) (e : Edit) : (c.edit e).loopCounter = c.loopCounter := by
  cases e with
  | setHeader name value =>
    rw [edit, setHeader]
    split <;> rfl
  | scheduleFollowUp next => rfl

theorem editAll_loopCounter (c : Context) (edits : List Edit) :
    (c.editAll edits).loopCounter = c.loopCounter := by
  induction edits generalizing c with
  | nil => rfl
  | cons e edits ih => rw [editAll_cons, ih, edit_loopCounter]

theorem edit_correlationId (c : Context) (e : Edit) :
    (c.edit e).correlationId = c.correlationId := by
  cases e with
  | setHeader name value =>
    rw [edit, setHeader]
    split <;> rfl
  | scheduleFollowUp next => rfl

theorem editAll_correlationId (c : Context) (edits : List Edit) :
    (c.editAll edits).correlationId = c.correlationId := by
  induction edits generalizing c with
  | nil => rfl
  | cons e edits ih => rw [editAll_cons, ih, edit_correlationId]

/-- What follows is left as it is unless the step says something else. -/
theorem editAll_followUp {c : Context} {edits : List Edit}
    (h : ∀ next, .scheduleFollowUp next ∉ edits) : (c.editAll edits).followUp = c.followUp := by
  induction edits generalizing c with
  | nil => rfl
  | cons e edits ih =>
    rw [editAll_cons, ih fun next hmem => h next (List.mem_cons_of_mem _ hmem)]
    cases e with
    | setHeader name value =>
      rw [edit, setHeader]
      split <;> rfl
    | scheduleFollowUp next => exact absurd List.mem_cons_self (h next)

theorem key_retryTask (c : Context) (loopCounter : UInt32) :
    (c.retryTask loopCounter).key = c.task.key := rfl

theorem key_of_preparedFollowUp {c : Context} {next : Task} (h : c.followUp = some next) :
    ∃ prepared, c.preparedFollowUp = some prepared ∧ prepared.key = next.key := by
  rw [preparedFollowUp, h]
  exact ⟨_, rfl, rfl⟩

/-! ### The correlation id -/

theorem correlationOf?_eq (task : Task) (attributes : Headers) :
    correlationOf? task attributes =
      (task.headers.get? correlationHeader).or (attributes.get? correlationHeader) := by
  rw [correlationOf?, shownHeaders, Headers.get?_erase, if_neg (by decide), Headers.get?_overlay]

/-- A task of a run that has a correlation id has one. -/
theorem isSome_correlationOf? {attributes : Headers}
    (h : (attributes.get? correlationHeader).isSome = true)
    (task : Task) : (correlationOf? task attributes).isSome = true := by
  rw [correlationOf?_eq, Option.isSome_or, h, Bool.or_true]

/-- A run that has a correlation id needs no new one. -/
theorem rehydrate_eq {attributes : Headers}
    (h : (attributes.get? correlationHeader).isSome = true) (task : Task)
    (fresh fresh' : String) : rehydrate task attributes fresh = rehydrate task attributes fresh' := by
  obtain ⟨id, hid⟩ := Option.isSome_iff_exists.1 (isSome_correlationOf? h task)
  rw [rehydrate, rehydrate, hid]
  rfl

theorem get?_carriedAttributes (c : Context) (carry : CarryOver) :
    (c.carriedAttributes carry).get? correlationHeader = some c.correlationId := by
  rw [carriedAttributes, Headers.get?_insert, if_pos rfl]

/-- Of the headers that a step has left, the run carries on those that are to be carried on. -/
theorem get?_carriedAttributes_of_ne (c : Context) (carry : CarryOver) {name : String}
    (hname : name ≠ correlationHeader) :
    (c.carriedAttributes carry).get? name =
      if carry.carries name then c.header? name else none := by
  rw [carriedAttributes, Headers.get?_insert, if_neg hname.symm, CarryOver.select,
    Headers.get?_filter, header?]

/-! ### The loop counter -/

theorem loopCounter_retryTask (c : Context) (loopCounter : UInt32) :
    (c.retryTask loopCounter).loopCounter = loopCounter := by
  have hheader : (c.retryTask loopCounter).header? loopCounterHeader =
      some loopCounter.toNat.repr := by
    rw [Task.header?, retryTask, Task.withHeader, Headers.get?_insert, if_pos rfl]
  rw [Task.loopCounter, hheader, Option.bind_some, Text.word32?_repr]
  rfl

/-- The loop counter of a task is not carried on to other tasks. -/
theorem get?_carriedAttributes_loopCounter (c : Context) (carry : CarryOver) :
    (c.carriedAttributes carry).get? loopCounterHeader = none := by
  have hcarries : carry.carries loopCounterHeader = false := by
    rw [CarryOver.carries, decide_eq_false (fun hne => hne rfl), Bool.false_and]
  rw [get?_carriedAttributes_of_ne c carry (by decide), hcarries]
  rfl

end Context

/-! ## What is left -/

namespace Pipeline

variable {p : Pipeline} {rest : TaskList} {context : Context} {outcome : Outcome}

/-- The tasks that are left after an answer. -/
def tasksAfter (p : Pipeline) (rest : TaskList) (context : Context) (outcome : Outcome) : TaskList :=
  match p.retry.decide outcome context.loopCounter with
  | .finished => withFollowUp rest context.preparedFollowUp
  | .retry loopCounter _ => rest.add (context.retryTask loopCounter)
  | .timedOut _ => rest

/-- How long they are held back. -/
def delayAfter (p : Pipeline) (context : Context) (outcome : Outcome) : Nat :=
  match p.retry.decide outcome context.loopCounter with
  | .retry _ delay => delay
  | .finished | .timedOut _ => 0

/-- What is reported about the task itself. -/
def noticesAfter (p : Pipeline) (context : Context) (outcome : Outcome) : List Notice :=
  match p.retry.decide outcome context.loopCounter with
  | .timedOut loopCounter =>
    [{ action := context.task.destination, state := .timeout
       detail := some (timeoutDetail loopCounter) }]
  | .finished | .retry _ _ => []

/-- Whatever the verdict, the run goes on with the tasks that are left. -/
theorem concludeOutcome_eq (p : Pipeline) (rest : TaskList) (context : Context)
    (outcome : Outcome) :
    p.concludeOutcome rest context outcome =
      let next := p.advance (p.tasksAfter rest context outcome)
        (context.carriedAttributes p.carry) (p.delayAfter context outcome)
      { next with notices := p.noticesAfter context outcome ++ next.notices } := by
  unfold concludeOutcome tasksAfter delayAfter noticesAfter
  cases p.retry.decide outcome context.loopCounter <;> rfl

theorem mem_keys_withFollowUp {next : Option Task} {key : TaskKey} :
    key ∈ (withFollowUp rest next).keys ↔ key ∈ rest.keys ∨ ∃ t, next = some t ∧ key = t.key := by
  cases next with
  | none => simp [withFollowUp]
  | some t => simp [withFollowUp, TaskList.mem_keys_add]

/-- The tasks that were there besides are left, whatever the verdict. -/
theorem mem_keys_tasksAfter_of_mem {key : TaskKey} (h : key ∈ rest.keys) :
    key ∈ (p.tasksAfter rest context outcome).keys := by
  unfold tasksAfter
  split
  · exact mem_keys_withFollowUp.2 (.inl h)
  · exact TaskList.mem_keys_add.2 (.inl h)
  · exact h

theorem distinct_tasksAfter (h : rest.Distinct) :
    (p.tasksAfter rest context outcome).Distinct := by
  unfold tasksAfter
  split
  · unfold withFollowUp
    split
    · exact TaskList.distinct_add h _
    · exact h
  · exact TaskList.distinct_add h _
  · exact h

theorem advance_of_ne_empty {tasks : TaskList} (h : tasks.tasks ≠ []) (p : Pipeline)
    (attributes : Headers) (delay : Nat) :
    p.advance tasks attributes delay =
      { requeue := some ({ attributes, payload := tasks.encode }, delay)
        continuation := .requeued tasks.size delay } := by
  rw [advance, TaskList.isComplete, if_neg (by simpa using h)]

theorem advance_of_eq_empty {tasks : TaskList} (h : tasks.tasks = []) (p : Pipeline)
    (attributes : Headers) (delay : Nat) :
    p.advance tasks attributes delay =
      { notices := [{ action := p.action, state := .ok }], continuation := .complete } := by
  rw [advance, TaskList.isComplete, if_pos (by simpa using h)]

/-- The tasks that are left are in the message that continues the run. -/
theorem requeue_advance {tasks : TaskList} {key : TaskKey} (h : key ∈ tasks.keys) (p : Pipeline)
    (attributes : Headers) (delay : Nat) :
    ∃ m, (p.advance tasks attributes delay).requeue = some (m, delay) ∧ key ∈ m.keys := by
  have hne : tasks.tasks ≠ [] := by
    intro hnil
    rw [TaskList.keys, hnil] at h
    cases h
  rw [advance_of_ne_empty hne]
  exact ⟨_, rfl, Message.mem_keys_encode.2 h⟩

/-- Only a step that breaks off leaves a run without a conclusion. -/
theorem exists_conclude? (p : Pipeline) (rest : TaskList) (context : Context) {reply : Reply}
    (h : reply ≠ .panic) : ∃ c, p.conclude? rest context reply = some c := by
  cases reply with
  | outcome outcome => exact ⟨_, rfl⟩
  | error e => exact ⟨_, rfl⟩
  | panic => exact absurd rfl h

theorem requeue_conclude? {key : TaskKey} (h : key ∈ (p.tasksAfter rest context outcome).keys) :
    ∃ c m delay, p.conclude? rest context (.outcome outcome) = some c ∧
      c.requeue = some (m, delay) ∧ key ∈ m.keys := by
  obtain ⟨m, hrequeue, hkey⟩ := requeue_advance h p (context.carriedAttributes p.carry)
    (p.delayAfter context outcome)
  refine ⟨_, m, p.delayAfter context outcome, rfl, ?_, hkey⟩
  rw [concludeOutcome_eq]
  exact hrequeue

end Pipeline

/-! ## Publishing what is left -/

namespace Site

variable {σ : Type}

/-- Whether messages can be published. -/
def CanPublish (s : Site σ) : Prop :=
  s.faults .publish = 0 ∧ s.faults .publishDelayed = 0

theorem Keeps.canPublish {s t : Site σ} (h : Keeps s t) (hs : s.CanPublish) : t.CanPublish :=
  ⟨h.faults_eq_zero hs.1, h.faults_eq_zero hs.2⟩

theorem channel_publish {s : Site σ} (hs : s.CanPublish) (topic : String) (m : Message)
    (delay : Option Nat) :
    (s.publish topic m delay).2.channel = s.channel.publish topic m (s.now + delay.getD 0) := by
  have hfault : s.faults (publishing delay) = 0 := by
    cases delay with
    | none => exact hs.1
    | some delay => exact hs.2
  rw [publish_eq s topic m delay hfault]

/-- A trigger publishes its tasks. -/
theorem channel_trigger {s : Site σ} (hs : s.CanPublish) (p : Pipeline) (tasks : TaskList)
    (attributes : Headers) :
    (s.trigger p tasks attributes).2.channel = s.channel.publish p.topic
      { attributes := attributes.insert correlationHeader
          (s.idFor (attributes.get? correlationHeader)).1
        payload := tasks.encode } s.now := by
  have hid := keeps_idFor s (attributes.get? correlationHeader)
  have hchannel := channel_idFor s (attributes.get? correlationHeader)
  rw [trigger]
  generalize s.idFor (attributes.get? correlationHeader) = given at hid hchannel ⊢
  obtain ⟨id, t⟩ := given
  simp only
  rw [publish_eq _ _ _ _ (hid.canPublish hs).1]
  simp only
  rw [channel_report, hchannel, hid.now_eq]
  rfl

/-- The channel after a conclusion has been carried out. -/
theorem channel_carryOut {s : Site σ} (hs : s.CanPublish) (engine : Nat) (p : Pipeline)
    (id : String) (c : Conclusion) :
    (s.carryOut engine p id c).2.channel =
      match c.requeue with
      | none => s.channel
      | some (m, delay) => s.channel.publish p.topic m (s.now + delay) := by
  have hreport := keeps_reportAll s id p.domain c.notices
  have hchannel := channel_reportAll s id p.domain c.notices
  have hcan := hreport.canPublish hs
  rw [carryOut]
  cases c.requeue with
  | none => exact hchannel
  | some requeue =>
    obtain ⟨m, delay⟩ := requeue
    by_cases hdelay : delay = 0
    · simp only [hdelay, if_true]
      rw [publish_eq _ _ _ _ (by exact hcan.1)]
      simp only
      rw [record, hchannel, hreport.now_eq]
      rfl
    · simp only [hdelay, if_false]
      rw [publish_eq _ _ _ _ (by exact hcan.2)]
      simp only
      rw [record, hchannel, hreport.now_eq]
      rfl

end Site

end TaskRelay
