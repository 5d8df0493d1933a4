import TaskRelay.Proofs.Context
import TaskRelay.Proofs.Run.Calls
import TaskRelay.Proofs.TaskList.Lookup

/-!
# Keeping a book on the tasks of a run

What becomes of a task in the list of a run is up to the calls of its own step.  A `Book` has an entry
on each task in the list, and is kept by the calls of the run alone (`Book.after`): an entry is made
when a task comes in, it is changed by each call after which the task is put back, and it is closed by
the call after which the task is gone, be it done or given up.

If entries fit their tasks when these come in, and again when they are put back, they fit in all calls
of a run (`PlainRun.exists_entry_of_calls`).  A call leaves the entries on other tasks as they are, so
the entry on a task is changed by its own calls only (`Book.foldl_after`).
-/

namespace TaskRelay

variable {σ α : Type}

/-- The task of the call is put back. -/
def Call.PutsBack (c : Call σ) : Prop :=
  c.attempt.reply = .outcome .reschedule ∧ c.isDropped = false

/-- An entry on each of some tasks, by their units of work. -/
def Book (α : Type) := TaskKey → Option α

/-- How books of a kind are kept. -/
structure Bookkeeping (σ α : Type) where
  /-- The entry on a task that is triggered. -/
  triggered : Task → α
  /-- The entry on a task that a call lets follow. -/
  following : Call σ → Task → α
  /-- What becomes of an entry with a call after which its task is put back. -/
  again : Call σ → α → α

namespace Book

/-- The entries on the tasks of a trigger: of each unit of work the first one comes in. -/
def start (k : Bookkeeping σ α) (tasks : TaskList) : Book α := fun key =>
  (tasks.get? key).map k.triggered

def close (b : Book α) (key : TaskKey) : Book α := fun other =>
  if other = key then none else b other

/-- A task comes in, unless its unit of work is in the list. -/
def enter (b : Book α) (key : TaskKey) (a : α) : Book α := fun other =>
  if other = key then some ((b key).getD a) else b other

def update (b : Book α) (key : TaskKey) (f : α → α) : Book α := fun other =>
  if other = key then (b key).map f else b other

/-- The entries after a call. -/
def after (k : Bookkeeping σ α) (b : Book α) (c : Call σ) : Book α :=
  match c.attempt.reply with
  | .outcome .done =>
    match c.followUp? with
    | none => b.close c.key
    | some next => (b.close c.key).enter next.key (k.following c next)
  | .outcome .reschedule => if c.isDropped then b.close c.key else b.update c.key (k.again c)
  | .error _ | .panic => b.close c.key

/-! ## Entries and tasks -/

/-- The entries are on the tasks of a list, and each fits its task. -/
def Agrees (fits : Task → α → Prop) (b : Book α) (l : TaskList) : Prop :=
  ∀ key, Option.Rel fits (l.get? key) (b key)

variable {fits : Task → α → Prop} {b : Book α} {l rest : TaskList} {t : Task} {order : PhaseOrder}

theorem Agrees.exists_entry (h : b.Agrees fits l) (hl : l.Distinct) (ht : t ∈ l.tasks) :
    ∃ a, b t.key = some a ∧ fits t a := by
  have hentry := h t.key
  rw [TaskList.get?_of_mem hl ht] at hentry
  generalize b t.key = entry at hentry
  cases hentry with
  | some hfits => exact ⟨_, rfl, hfits⟩

theorem agrees_start {k : Bookkeeping σ α} (hk : ∀ t, fits t (k.triggered t)) (tasks : TaskList) :
    (start k tasks).Agrees fits (.ofList tasks.tasks) := by
  intro key
  rw [TaskList.get?_ofList, start]
  cases tasks.get? key with
  | none => exact .none
  | some t => exact .some (hk t)

/-- A task is taken out of the list. -/
theorem Agrees.close (h : b.Agrees fits l) (hl : l.Distinct)
    (hpop : l.popNext? order = some (t, rest)) : (b.close t.key).Agrees fits rest := by
  intro key
  rw [TaskList.get?_popNext? hl hpop, Book.close]
  split
  · exact .none
  · exact h key

/-- A task is added, and an entry is made unless there is one. -/
theorem Agrees.enter {a : α} (h : b.Agrees fits l) (ha : fits t a) :
    (b.enter t.key a).Agrees fits (l.add t) := by
  intro key
  have hentry := h key
  rw [TaskList.get?_add, Book.enter]
  by_cases hkey : key = t.key
  · rw [if_pos hkey.symm, if_pos hkey, ← hkey]
    generalize l.get? key = task, b key = entry at hentry
    cases hentry with
    | none => exact .some ha
    | some hfits => exact .some hfits
  · rw [if_neg (Ne.symm hkey), if_neg hkey, Option.or_none]
    exact hentry

/-- The task that is taken out is put back. -/
theorem Agrees.update {back : Task} {f : α → α} (h : b.Agrees fits l) (hl : l.Distinct)
    (hpop : l.popNext? order = some (t, rest)) (hkey : back.key = t.key)
    (hf : ∀ a, fits t a → fits back (f a)) : (b.update t.key f).Agrees fits (rest.add back) := by
  intro key
  rw [TaskList.get?_add, TaskList.get?_popNext? hl hpop, hkey, Book.update]
  by_cases hsame : key = t.key
  · obtain ⟨a, ha, hfits⟩ := h.exists_entry hl ((TaskList.mem_tasks_popNext? hpop).2 (.inl rfl))
    rw [if_pos hsame, if_pos hsame.symm, if_pos hsame, ha]
    exact .some (hf a hfits)
  · rw [if_neg hsame, if_neg (Ne.symm hsame), if_neg hsame, Option.or_none]
    exact h key

/-! ## Entries on other tasks -/

variable {k : Bookkeeping σ α} {c : Call σ} {key : TaskKey} {a : α}

theorem enter_of_some (h : b key = some a) (other : TaskKey) (new : α) :
    b.enter other new key = some a := by
  rw [enter]
  split
  · next heq => rw [← heq, h, Option.getD_some]
  · exact h

/-- A call leaves the entries on other tasks as they are. -/
theorem after_of_ne (hne : c.key ≠ key) (h : b key = some a) : b.after k c key = some a := by
  have hclose : b.close c.key key = some a := (if_neg hne.symm).trans h
  rw [after]
  cases c.attempt.reply with
  | panic => exact hclose
  | error e => exact hclose
  | outcome outcome =>
    cases outcome with
    | done =>
      cases c.followUp? with
      | none => exact hclose
      | some next => exact enter_of_some hclose next.key _
    | reschedule =>
      cases c.isDropped with
      | true => exact hclose
      | false => exact (if_neg hne.symm).trans h

theorem after_of_putsBack (hc : c.PutsBack) (h : b c.key = some a) :
    b.after k c c.key = some (k.again c a) := by
  obtain ⟨hreply, hkept⟩ := hc
  simp only [after, hreply, hkept, Bool.false_eq_true, if_false]
  rw [update, if_pos rfl, h, Option.map_some]

/-- **While a task is in the list, its entry is changed by its own calls only.** -/
theorem foldl_after {calls : List (Call σ)} (h : b key = some a)
    (hcalls : ∀ c ∈ calls, c.key = key → c.PutsBack) :
    calls.foldl (after k) b key =
      some ((calls.filter (·.key = key)).foldl (fun a c => k.again c a) a) := by
  induction calls generalizing b a with
  | nil => exact h
  | cons c calls ih =>
    obtain ⟨hc, hrest⟩ := List.forall_mem_cons.1 hcalls
    rw [List.foldl_cons, List.filter_cons]
    -- only a call of the task itself counts, and after that the task is still in the list
    by_cases hkey : c.key = key
    · subst hkey
      rw [if_pos (decide_eq_true rfl), List.foldl_cons]
      exact ih (after_of_putsBack (hc rfl) h) hrest
    · rw [if_neg (by simpa using hkey)]
      exact ih (after_of_ne hkey h) hrest

end Book

/-! ## Runs -/

/-- The entries fit the tasks that come in, and those that are put back. -/
structure Bookkeeping.Fits (k : Bookkeeping σ α) (p : Pipeline) (fits : Task → α → Prop) :
    Prop where
  triggered (t : Task) : fits t (k.triggered t)
  following (c : Call σ) (next : Task) (hc : c.context.written = []) :
    fits (c.edited.handedOn next) (k.following c next)
  again (c : Call σ) (a : α) (hc : c.context.written = [])
    (hkept : p.retry.isExhausted (RetryPolicy.succCounter c.context.task.loopCounter) = false)
    (h : fits c.context.task a) :
    fits (c.edited.retryTask (RetryPolicy.succCounter c.context.task.loopCounter)) (k.again c a)

namespace PlainRun

variable {p : Pipeline} {v : Service σ} {r next : PlainRun σ} {c : Call σ}
  {k : Bookkeeping σ α} {fits : Task → α → Prop} {b : Book α}

/-- **A call keeps the book in agreement with the tasks that are left.** -/
theorem agrees_next (hk : k.Fits p fits) (hr : r.IsSound) (h : b.Agrees fits r.tasks)
    (hcall : r.call? p v = some c) (hnext : c.next = some next) :
    (b.after k c).Agrees fits next.tasks := by
  obtain ⟨task, rest, outcome, hpop, rfl, hreply, rfl⟩ := exists_after hr hcall hnext
  have hclosed := h.close hr.distinct hpop
  have hcounter : (r.editedContext p v task).loopCounter = task.loopCounter :=
    Context.editAll_loopCounter _ _
  have htask : (r.editedContext p v task).task = task := Context.editAll_task _ _
  have hdropped := isDropped_callFor hr hpop hreply
  show Book.Agrees _ _ (p.tasksAfter rest (r.editedContext p v task) outcome)
  rw [Book.after, hreply, Pipeline.tasksAfter, hcounter]
  -- the entry goes with the task that is taken out, and one is made for whatever is added then
  cases outcome with
  | done =>
    have hfollowUp : (r.callFor p v task).followUp? = (r.editedContext p v task).followUp := rfl
    simp only [hfollowUp, RetryPolicy.decide, Context.preparedFollowUp_eq]
    cases (r.editedContext p v task).followUp with
    | none => exact hclosed
    | some following => exact hclosed.enter (hk.following (r.callFor p v task) following rfl)
  | reschedule =>
    cases hexhausted : p.retry.isExhausted (RetryPolicy.succCounter task.loopCounter) with
    | true =>
      rw [RetryPolicy.decide_reschedule_of_exhausted hexhausted]
      simp only [hdropped.2 ⟨rfl, hexhausted⟩, if_true]
      exact hclosed
    | false =>
      have hkept : ¬ (r.callFor p v task).isDropped = true := by
        intro hgone
        exact Bool.noConfusion (hexhausted.symm.trans (hdropped.1 hgone).2)
      rw [RetryPolicy.decide_reschedule_of_not_exhausted hexhausted]
      simp only [if_neg hkept]
      refine h.update hr.distinct hpop ?_ fun a ha =>
        hk.again (r.callFor p v task) a rfl hexhausted ha
      rw [Context.key_retryTask, htask]
      rfl

/-- In each call of a run there is an entry on its task, and it fits. -/
theorem exists_entry_of_calls {before after : List (Call σ)} (n : Nat) (hk : k.Fits p fits)
    (hr : r.IsSound) (h : b.Agrees fits r.tasks) (hcalls : r.calls p v n = before ++ c :: after) :
    ∃ a, before.foldl (Book.after k) b c.key = some a ∧ fits c.context.task a := by
  induction before generalizing r b n with
  | nil =>
    obtain ⟨hcall, -⟩ := calls_eq_cons hr hcalls
    obtain ⟨task, rest, hpop, rfl⟩ := popNext?_of_call? hcall
    exact h.exists_entry hr.distinct ((TaskList.mem_tasks_popNext? hpop).2 (.inl rfl))
  | cons first before ih =>
    obtain ⟨hcall, hnil | ⟨m, next, hnext, hsound, hrest⟩⟩ := calls_eq_cons hr hcalls
    · exact absurd hnil (List.append_ne_nil_of_right_ne_nil _ (List.cons_ne_nil _ _))
    · exact ih m hsound (agrees_next hk hr h hcall hnext) hrest.symm

end PlainRun

end TaskRelay
