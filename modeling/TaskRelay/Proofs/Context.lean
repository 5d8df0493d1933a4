import TaskRelay.Proofs.Engine.Iteration

/-!
# What a step writes

Of what a step writes under a name, the last value counts (`Context.lastWritten?`).  The step has it
in its own context, and it is handed on to the task that follows, where that has no value of its
own, and to the task when it is put back.  The program's own headers cannot be written, so in a task
that is put back they are as they were; a task that follows has those with which it has been
scheduled.
-/

namespace TaskRelay

namespace Context

/-- Whether a header is the program's own. -/
def IsReserved (name : String) : Prop :=
  name = loopCounterHeader ∨ name = correlationHeader

instance (name : String) : Decidable (IsReserved name) :=
  inferInstanceAs (Decidable (_ ∨ _))

/-- The value that an edit gives to a header. -/
def Edit.value? (name : String) : Edit → Option String
  | .setHeader written value => if written = name then some value else none
  | .scheduleFollowUp _ => none

/-- The value that is last written under a name. -/
def lastWritten? (name : String) (edits : List Edit) : Option String :=
  edits.reverse.findSome? (Edit.value? name)

theorem lastWritten?_cons (name : String) (e : Edit) (edits : List Edit) :
    lastWritten? name (e :: edits) = (lastWritten? name edits).or (e.value? name) := by
  rw [lastWritten?, List.reverse_cons, List.findSome?_append, lastWritten?]
  cases h : e.value? name <;> simp [h]

theorem lastWritten?_append (name : String) (edits later : List Edit) :
    lastWritten? name (edits ++ later) =
      (lastWritten? name later).or (lastWritten? name edits) := by
  rw [lastWritten?, List.reverse_append, List.findSome?_append]
  rfl

/-! ## In the context -/

section Written

variable {name : String}

theorem setHeader_of_isReserved (h : IsReserved name) (c : Context) (value : String) :
    c.setHeader name value = c := if_pos h

theorem setHeader_of_not_isReserved (h : ¬ IsReserved name) (c : Context) (value : String) :
    c.setHeader name value =
      { c with headers := c.headers.insert name value, written := name :: c.written } := if_neg h

/-- An edit writes a header of the step, or leaves it as it is. -/
theorem header?_edit (h : ¬ IsReserved name) (c : Context) (e : Edit) :
    (c.edit e).header? name = (e.value? name).or (c.header? name) := by
  cases e with
  | scheduleFollowUp next => rfl
  | setHeader other value =>
    rw [edit, Edit.value?]
    by_cases hreserved : IsReserved other
    · have hne : other ≠ name := fun heq => h (heq ▸ hreserved)
      rw [setHeader_of_isReserved hreserved, if_neg hne, Option.none_or]
    · rw [setHeader_of_not_isReserved hreserved, header?, Headers.get?_insert]
      split <;> rfl

theorem header?_editAll (h : ¬ IsReserved name) (c : Context) (edits : List Edit) :
    (c.editAll edits).header? name = (lastWritten? name edits).or (c.header? name) := by
  induction edits generalizing c with
  | nil => rfl
  | cons e edits ih => rw [editAll_cons, ih, header?_edit h, lastWritten?_cons, Option.or_assoc]

theorem mem_written_edit (h : ¬ IsReserved name) (c : Context) (e : Edit) :
    name ∈ (c.edit e).written ↔ (e.value? name).isSome = true ∨ name ∈ c.written := by
  cases e with
  | scheduleFollowUp next =>
    rw [Edit.value?]
    simp [edit, scheduleFollowUp]
  | setHeader other value =>
    rw [edit, Edit.value?]
    by_cases hreserved : IsReserved other
    · have hne : other ≠ name := fun heq => h (heq ▸ hreserved)
      rw [setHeader_of_isReserved hreserved, if_neg hne]
      simp
    · rw [setHeader_of_not_isReserved hreserved, List.mem_cons]
      by_cases heq : other = name
      · simp [heq]
      · simp [heq, Ne.symm heq]

theorem mem_written_editAll (h : ¬ IsReserved name) (c : Context) (edits : List Edit) :
    name ∈ (c.editAll edits).written ↔
      (lastWritten? name edits).isSome = true ∨ name ∈ c.written := by
  induction edits generalizing c with
  | nil => simp [editAll, lastWritten?]
  | cons e edits ih =>
    rw [editAll_cons, ih, mem_written_edit h, lastWritten?_cons, Option.isSome_or, Bool.or_eq_true,
      or_assoc]

theorem mem_written_edit_of_isReserved (h : IsReserved name) (c : Context) (e : Edit) :
    name ∈ (c.edit e).written ↔ name ∈ c.written := by
  cases e with
  | scheduleFollowUp next => rfl
  | setHeader other value =>
    rw [edit]
    by_cases hreserved : IsReserved other
    · rw [setHeader_of_isReserved hreserved]
    · have hne : name ≠ other := fun heq => hreserved (heq ▸ h)
      rw [setHeader_of_not_isReserved hreserved, List.mem_cons, or_iff_right hne]

theorem mem_written_editAll_of_isReserved (h : IsReserved name) (c : Context) (edits : List Edit) :
    name ∈ (c.editAll edits).written ↔ name ∈ c.written := by
  induction edits generalizing c with
  | nil => rfl
  | cons e edits ih => rw [editAll_cons, ih, mem_written_edit_of_isReserved h]

theorem get?_writtenHeaders (c : Context) (name : String) :
    c.writtenHeaders.get? name = if name ∈ c.written then c.header? name else none := by
  rw [writtenHeaders, Headers.get?_filter c.headers fun name => c.written.contains name, header?]
  simp only [List.contains_iff_mem]

/-- What a step has written is what it has written last. -/
theorem get?_writtenHeaders_editAll {c : Context} (h : ¬ IsReserved name) (hc : c.written = [])
    (edits : List Edit) : (c.editAll edits).writtenHeaders.get? name = lastWritten? name edits := by
  rw [get?_writtenHeaders, header?_editAll h]
  simp only [mem_written_editAll h, hc, List.not_mem_nil, or_false]
  cases lastWritten? name edits <;> rfl

/-- The program's own headers are never among what a step has written. -/
theorem get?_writtenHeaders_of_isReserved {c : Context} (h : IsReserved name) (hc : c.written = [])
    (edits : List Edit) : (c.editAll edits).writtenHeaders.get? name = none := by
  rw [get?_writtenHeaders, if_neg]
  rw [mem_written_editAll_of_isReserved h, hc]
  exact List.not_mem_nil

/-- What a step writes under a name in the end; the program's own headers are out of its reach. -/
def writes? (edits : List Edit) (name : String) : Option String :=
  if IsReserved name then none else lastWritten? name edits

theorem get?_writtenHeaders_eq {c : Context} (hc : c.written = []) (edits : List Edit)
    (name : String) : (c.editAll edits).writtenHeaders.get? name = writes? edits name := by
  rw [writes?]
  split
  · next hreserved => exact get?_writtenHeaders_of_isReserved hreserved hc edits
  · next hreserved => exact get?_writtenHeaders_editAll hreserved hc edits

/-! ## In the tasks -/

def Edit.next? : Edit → Option Task
  | .setHeader _ _ => none
  | .scheduleFollowUp next => some next

/-- The task that a step lets follow: of several the last one. -/
def scheduled? (edits : List Edit) : Option Task :=
  edits.reverse.findSome? Edit.next?

theorem scheduled?_cons (e : Edit) (edits : List Edit) :
    scheduled? (e :: edits) = (scheduled? edits).or e.next? := by
  rw [scheduled?, List.reverse_cons, List.findSome?_append, scheduled?]
  cases h : e.next? <;> simp [h]

theorem followUp_editAll_eq (c : Context) (edits : List Edit) :
    (c.editAll edits).followUp = (scheduled? edits).or c.followUp := by
  induction edits generalizing c with
  | nil => rfl
  | cons e edits ih =>
    rw [editAll_cons, ih, scheduled?_cons, Option.or_assoc]
    congr 1
    cases e with
    | setHeader name value =>
      rw [edit, setHeader]
      split <;> rfl
    | scheduleFollowUp next => rfl

/-- A task that is to follow, with what the step has written. -/
def handedOn (c : Context) (next : Task) : Task :=
  (next.withHeaders (c.writtenHeaders.filter fun name _ => (next.header? name).isNone)).withoutHeader
    loopCounterHeader

theorem preparedFollowUp_eq (c : Context) : c.preparedFollowUp = c.followUp.map c.handedOn := rfl

theorem key_handedOn (c : Context) (next : Task) : (c.handedOn next).key = next.key := rfl

/-- A task that follows has not been put back yet. -/
theorem loopCounter_handedOn (c : Context) (next : Task) : (c.handedOn next).loopCounter = 0 := by
  rw [Task.loopCounter, Task.header?, handedOn, Task.withoutHeader, Headers.get?_erase, if_pos rfl]
  rfl

/-- What is written is handed on to the task that follows, where that has nothing under the name. -/
theorem header?_handedOn (c : Context) (next : Task) (hname : name ≠ loopCounterHeader) :
    (c.handedOn next).header? name = (next.header? name).or (c.writtenHeaders.get? name) := by
  show ((next.headers.overlay _).erase loopCounterHeader).get? name = _
  rw [Headers.get?_erase, if_neg hname.symm, Headers.get?_overlay,
    Headers.get?_filter _ fun name => (next.header? name).isNone, Task.header?]
  cases next.headers.get? name <;> simp

/-- What is written is laid over the headers of a task that is put back. -/
theorem header?_retryTask (c : Context) (loopCounter : UInt32)
    (hname : name ≠ loopCounterHeader) :
    (c.retryTask loopCounter).header? name =
      (c.writtenHeaders.get? name).or (c.task.header? name) := by
  rw [Task.header?, retryTask, Task.withHeader, Headers.get?_insert, if_neg hname.symm,
    Task.withHeaders, Headers.get?_overlay]
  rfl

/-- A step sees the headers of its task, and of the attributes those that the task lacks. -/
theorem header?_rehydrate (h : ¬ IsReserved name) (task : Task) (attributes : Headers)
    (fresh : String) : (rehydrate task attributes fresh).header? name =
      (task.header? name).or (attributes.get? name) := by
  have hloop : loopCounterHeader ≠ name := fun heq => h (.inl heq.symm)
  have hcorrelation : correlationHeader ≠ name := fun heq => h (.inr heq.symm)
  rw [header?, rehydrate, Headers.get?_insert, if_neg hcorrelation, shownHeaders, Headers.get?_erase,
    if_neg hloop, Headers.get?_overlay]
  rfl

end Written

/-! ## The correlation id -/

theorem correlationId_rehydrate (task : Task) (attributes : Headers) (fresh : String) :
    (rehydrate task attributes fresh).correlationId =
      ((task.header? correlationHeader).or (attributes.get? correlationHeader)).getD fresh := by
  rw [rehydrate, correlationOf?_eq]
  rfl

end Context

end TaskRelay
