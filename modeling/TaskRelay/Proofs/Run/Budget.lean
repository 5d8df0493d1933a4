import TaskRelay.Proofs.Run.Books
import TaskRelay.Proofs.Run.Protocol

/-!
# Retry budgets

Each task in the list of a run has its own budget of retries.  A `Ledger` keeps an account of each
task from when it comes into the list: the loop counter that it came with, how often its step has
been called and how often the step wanted to see it again.  It is kept by the calls of the run alone
(`Ledger.after`): a task that is done or given up leaves the list, and one that follows comes in with
the counter 0, also if it is the next sub-step of the task that is done.

The accounts fit the loop counters all the time (`Ledger.fits_keeping`).  These travel as the texts of
headers, but nothing that steps write, carry on or let follow gets into them.
-/

namespace TaskRelay

variable {σ : Type}

/-! ## Accounts -/

/-- What is kept of a task since it has come into the list. -/
structure Account where
  /-- The loop counter that it has come with. -/
  entered : Nat
  /-- How often its step has been called. -/
  calls : Nat := 0
  /-- How often its step wanted to see it again. -/
  answers : Nat := 0

/-- Whether an account fits the loop counter of its task, of which there are `limit` retries. -/
structure Account.Fits (limit : Nat) (a : Account) (loopCounter : UInt32) : Prop where
  counter : loopCounter.toNat = a.entered + a.answers
  called : a.calls = a.answers
  within : a.answers ≤ limit - a.entered

/-- The accounts of the tasks in a list, by their units of work. -/
def Ledger := TaskKey → Option Account

namespace Ledger

/-- The accounts of the tasks of a trigger: of each unit of work the first one comes in. -/
def start (tasks : TaskList) : Ledger := fun key =>
  (tasks.tasks.find? (·.key == key)).map fun t => { entered := t.loopCounter.toNat }

def close (ledger : Ledger) (key : TaskKey) : Ledger := fun other =>
  if other = key then none else ledger other

/-- A task comes in with the counter 0, unless its unit of work is in the list. -/
def enter (ledger : Ledger) (key : TaskKey) : Ledger := fun other =>
  if other = key then some ((ledger key).getD { entered := 0 }) else ledger other

/-- The step of a task wants to see it again. -/
def again (ledger : Ledger) (key : TaskKey) : Ledger := fun other =>
  if other = key then
    (ledger key).map fun a => { a with calls := a.calls + 1, answers := a.answers + 1 }
  else ledger other

/-- The accounts after a call. -/
def after (ledger : Ledger) (c : Call σ) : Ledger :=
  match c.attempt.reply with
  | .outcome .done =>
    match c.followUp? with
    | none => ledger.close c.key
    | some next => (ledger.close c.key).enter next.key
  | .outcome .reschedule => if c.isDropped then ledger.close c.key else ledger.again c.key
  | .error _ | .panic => ledger.close c.key

/-- Accounts are kept as books are. -/
def keeping : Bookkeeping σ Account where
  triggered t := { entered := t.loopCounter.toNat }
  following _ _ := { entered := 0 }
  again _ a := { a with calls := a.calls + 1, answers := a.answers + 1 }

theorem after_eq (ledger : Ledger) (c : Call σ) : ledger.after c = Book.after keeping ledger c := by
  unfold after Book.after
  cases c.attempt.reply with
  | panic => rfl
  | error e => rfl
  | outcome outcome =>
    cases outcome with
    | done => cases c.followUp? <;> rfl
    | reschedule => rfl

/-- The account of a task fits its loop counter. -/
def Describes (limit : Nat) (t : Task) (a : Account) : Prop :=
  a.Fits limit t.loopCounter

theorem describes_triggered (limit : Nat) (t : Task) :
    Describes limit t { entered := t.loopCounter.toNat } :=
  ⟨rfl, rfl, Nat.zero_le _⟩

theorem agrees_start (limit : Nat) (tasks : TaskList) :
    Book.Agrees (Describes limit) (start tasks) (.ofList tasks.tasks) :=
  Book.agrees_start (k := (keeping : Bookkeeping Unit Account)) (describes_triggered limit) tasks

theorem fits_keeping {p : Pipeline} (hretries : p.retry.maxRetries.toNat < 4294967295) :
    (keeping : Bookkeeping σ Account).Fits p (Describes p.retry.maxRetries.toNat) where
  triggered := describes_triggered _
  following c next _ := by
    have hcounter : (c.edited.handedOn next).loopCounter = 0 := Context.loopCounter_handedOn _ _
    refine ⟨?_, rfl, Nat.zero_le _⟩
    rw [hcounter]
    rfl
  again c a _ hkept ha := by
    have hlimit := (RetryPolicy.isExhausted_succCounter_eq_false_iff hretries).1 hkept
    have hcounter := ha.counter
    refine ⟨?_, congrArg (· + 1) ha.called, ?_⟩
    · rw [Context.loopCounter_retryTask, RetryPolicy.toNat_succCounter (Nat.lt_trans hlimit hretries),
        ha.counter, Nat.add_assoc]
      rfl
    · show a.answers + 1 ≤ p.retry.maxRetries.toNat - a.entered
      omega

end Ledger

/-! ## Calls -/

namespace PlainRun

variable {p : Pipeline} {v : Service σ} {r : PlainRun σ} {c : Call σ} {ledger : Ledger}

/-- In each call of a run the step sees the loop counter that the account of its task tells. -/
theorem exists_account_of_calls {before after : List (Call σ)} (n : Nat) (hr : r.IsSound)
    (hretries : p.retry.maxRetries.toNat < 4294967295)
    (h : Book.Agrees (Ledger.Describes p.retry.maxRetries.toNat) ledger r.tasks)
    (hcalls : r.calls p v n = before ++ c :: after) :
    ∃ a, before.foldl Ledger.after ledger c.key = some a ∧
      a.Fits p.retry.maxRetries.toNat c.context.loopCounter := by
  have hafter : (Ledger.after : Ledger → Call σ → Ledger) = Book.after Ledger.keeping :=
    funext fun ledger => funext fun c => Ledger.after_eq ledger c
  obtain ⟨fresh, hcontext⟩ := exists_rehydrate_of_calls n hr hcalls
  rw [hafter, hcontext]
  exact exists_entry_of_calls n (Ledger.fits_keeping hretries) hr h hcalls

/-- What a run carries on holds no loop counter. -/
theorem get?_attributes_of_iterations {last : PlainRun σ} (n : Nat) (hr : r.IsSound)
    (h : (r.iterations p v (n + 1)).2 = some last) :
    last.attributes.get? loopCounterHeader = none := by
  obtain ⟨before, c, hbefore, hcall, hnext⟩ := exists_call_of_iterations n hr h
  obtain ⟨task, rest, outcome, -, -, -, rfl⟩ := exists_after hbefore hcall hnext
  exact Context.get?_carriedAttributes_loopCounter _ _

end PlainRun

/-! ## Runs that are triggered -/

namespace Site

variable {p : Post} {e : Engine σ} {tasks : TaskList} {attributes : Headers} {n : Nat}
  {s t : Site σ}

/-- **Retry budgets are isolated.**  Whatever its steps write and let follow, in every call that is
seen of a run the step sees the loop counter that its task has come into the list with, and one more
for each time that the step wanted to see it again.  So no task is called more often than its retries
allow; and no message that the run goes on with has a loop counter among its attributes. -/
theorem Driven.budget (h : Driven p e tasks attributes n s t)
    (hretries : e.pipeline.retry.maxRetries < 4294967295) :
    let limit := e.pipeline.retry.maxRetries.toNat
    let calls := (PlainRun.start s e tasks attributes).calls e.pipeline e.service n
    (∃ shown, t.observations = s.observations ++ shown ∧
        shown.filterMap Observation.context? = calls.map Call.context) ∧
      (∀ before c after, calls = before ++ c :: after →
        ∃ a, before.foldl Ledger.after (.start tasks) c.key = some a ∧
          c.context.loopCounter.toNat = a.entered + a.answers ∧
          a.calls + 1 ≤ limit - a.entered + 1) ∧
      (0 < n → ∀ m ∈ t.channel.messages p.topic, m.attributes.get? loopCounterHeader = none) := by
  intro limit calls
  have hsound := isSound_start s e tasks attributes
  obtain ⟨shown, -, hshown, -, hprotocol, -⟩ := h.exists_shown
  refine ⟨⟨shown, hshown, hprotocol.dispatched⟩, ?_, ?_⟩
  · intro before c after hcalls
    obtain ⟨a, ha, hfits⟩ := PlainRun.exists_account_of_calls n hsound hretries
      (Ledger.agrees_start _ tasks) hcalls
    refine ⟨a, ha, hfits.counter, ?_⟩
    rw [hfits.called]
    exact Nat.succ_le_succ hfits.within
  · intro hn m hm
    obtain ⟨k, rfl⟩ := Nat.exists_eq_succ_of_ne_zero (Nat.ne_of_gt hn)
    obtain ⟨-, -, hfollows⟩ := h.follows
    cases hlast : ((PlainRun.start s e tasks attributes).iterations e.pipeline e.service
        (k + 1)).2 with
    | none =>
      have hempty : t.channel.messages p.topic = [] := by
        rw [hlast] at hfollows
        exact hfollows
      rw [hempty] at hm
      cases hm
    | some last =>
      rw [hlast] at hfollows
      obtain ⟨-, m', hin, hserves⟩ := hfollows
      rw [hserves.messages, List.mem_singleton] at hm
      rw [hm, hin.attributes_eq]
      exact PlainRun.get?_attributes_of_iterations k hsound hlast

/-- A step that wants to see its task again, and tries to write its loop counter. -/
def countingUp : Attempt :=
  { edits := [.setHeader loopCounterHeader "7"], reply := .outcome .reschedule }

theorem budget_countingUp :
    ∃ t, Driven (Sample.post "a" {}) (Sample.engine countingUp) twoTasks
        (Headers.insert ∅ loopCounterHeader "9") 2 (Sample.site 10 countingUp) t ∧
      (t.observations.filterMap Observation.context?).map Context.loopCounter = [0, 1] ∧
      ∀ m ∈ t.channel.messages "t", m.attributes.get? loopCounterHeader = none := by
  obtain ⟨t, hdriven⟩ := exists_driven (p := Sample.post "a" {}) (e := Sample.engine countingUp)
    (s := Sample.site 10 countingUp) twoTasks (Headers.insert ∅ loopCounterHeader "9")
    (fun _ => rfl) rfl rfl rfl 2 (by decide +kernel)
  obtain ⟨⟨shown, hshown, hcalls⟩, -, hmessages⟩ := hdriven.budget (by decide)
  refine ⟨t, hdriven, ?_, hmessages (by decide)⟩
  have hseen : t.observations = shown := hshown
  rw [hseen, hcalls]
  decide +kernel

end Site

end TaskRelay
