import TaskRelay.Proofs.Run.Protocol
import TaskRelay.Proofs.TaskList.Priority

/-!
# The schedule of a run

Where no step lets a task follow, it is known beforehand what a run will do.  Its tasks are done one
after the other, in their order (`TaskList.inOrder`).  A task whose step wants to see it again comes
back at once: it is in flight then, and all tasks that were before it are done.  So each task is
called as often as its step wants to see it and its retries allow (`Demand.visits`), with nothing in
between (`Demand.marks`).
-/

namespace TaskRelay

variable {σ : Type}

/-! ## What is wanted -/

/-- How often the steps still want to see their tasks again, by units of work; `none` is without
end. -/
def Demand := TaskKey → Option Nat

namespace Demand

/-- What is left after a call. -/
def less (d : Demand) (key : TaskKey) : Demand := fun other =>
  if other = key then (d key).map (· - 1) else d other

/-- How often a task is called that may be put back until its loop counter is `limit`. -/
def visits (d : Demand) (limit : Nat) (t : Task) : Nat :=
  match d t.key with
  | none => limit - t.loopCounter.toNat + 1
  | some n => min n (limit - t.loopCounter.toNat) + 1

/-- Whether the step wants to see the task more often than that. -/
def exceeds (d : Demand) (limit : Nat) (t : Task) : Bool :=
  match d t.key with
  | none => true
  | some n => limit - t.loopCounter.toNat < n

/-- How often the tasks of a list are called, all of them together. -/
def rounds (d : Demand) (limit : Nat) : List Task → Nat
  | [] => 0
  | t :: tasks => d.visits limit t + d.rounds limit tasks

/-- In the calls of a run each step wants to see its task again as often as `d` says, and is done with
it then; none lets a task follow. -/
def Answered : Demand → List (Call σ) → Prop
  | _, [] => True
  | d, c :: calls =>
    c.followUp? = none ∧
      c.attempt.reply = .outcome (if d c.key = some 0 then .done else .reschedule) ∧
      Answered (d.less c.key) calls

end Demand

/-! ## What is seen -/

/-- What a schedule tells of an observation. -/
inductive Mark where
  | told (action : String) (state : JobState)
  | called (key : TaskKey) (loopCounter : Nat)
deriving DecidableEq, Repr

def Observation.mark? : Observation → Option Mark
  | .report _ _ n => some (.told n.action n.state)
  | .dispatch context => some (.called context.task.key context.loopCounter.toNat)
  | .continued _ => none

/-- What is seen of a task: its start if nothing has been done of it yet, the calls, one after the
other, and that it is given up if its step wants to see it once more. -/
def Demand.marks (d : Demand) (limit : Nat) (t : Task) : List Mark :=
  (if t.subStep = 0 ∧ t.loopCounter = 0 then [.told t.destination .started] else []) ++
    (List.range (d.visits limit t)).map (fun k => .called t.key (t.loopCounter.toNat + k)) ++
    if d.exceeds limit t then [.told t.destination .timeout] else []

/-- What is seen of a call. -/
def Call.marks (c : Call σ) : List Mark :=
  (if (Observation.dispatch c.context).isFirst then
    [.told c.context.task.destination .started] else []) ++
    .called c.key c.context.loopCounter.toNat ::
      if c.isDropped then [.told c.context.task.destination .timeout] else []

/-! ## Calls as they are wanted -/

namespace Demand

variable {d : Demand} {limit : Nat} {t u back : Task} {tasks : List Task}

theorem visits_less (h : u.key ≠ t.key) (limit : Nat) :
    (d.less t.key).visits limit u = d.visits limit u := by
  rw [visits, visits, less, if_neg h]

theorem marks_less (h : u.key ≠ t.key) (limit : Nat) :
    (d.less t.key).marks limit u = d.marks limit u := by
  rw [marks, marks, visits_less h, exceeds, exceeds, less, if_neg h]

theorem rounds_less (h : ∀ u ∈ tasks, u.key ≠ t.key) (limit : Nat) :
    (d.less t.key).rounds limit tasks = d.rounds limit tasks := by
  induction tasks with
  | nil => rfl
  | cons u tasks ih =>
    rw [rounds, rounds, visits_less (h u List.mem_cons_self),
      ih fun v hv => h v (List.mem_cons_of_mem _ hv)]

theorem flatMap_marks_less (h : ∀ u ∈ tasks, u.key ≠ t.key) (limit : Nat) :
    tasks.flatMap ((d.less t.key).marks limit) = tasks.flatMap (d.marks limit) := by
  induction tasks with
  | nil => rfl
  | cons u tasks ih =>
    rw [List.flatMap_cons, List.flatMap_cons, marks_less (h u List.mem_cons_self),
      ih fun v hv => h v (List.mem_cons_of_mem _ hv)]

theorem visits_pos (d : Demand) (limit : Nat) (t : Task) : 0 < d.visits limit t := by
  rw [visits]
  split
  · exact Nat.succ_pos _
  · exact Nat.succ_pos _

/-- A task that is done at once, or cannot be put back, is called once. -/
theorem visits_eq_one (h : d t.key = some 0 ∨ limit ≤ t.loopCounter.toNat) :
    d.visits limit t = 1 := by
  rw [visits]
  rcases h with h | h
  · rw [h]
    exact congrArg (· + 1) (Nat.zero_min _)
  · rw [Nat.sub_eq_zero_of_le h]
    split
    · rfl
    · rw [Nat.min_zero]

theorem rounds_perm {others : List Task} (h : tasks.Perm others) (d : Demand) (limit : Nat) :
    d.rounds limit tasks = d.rounds limit others := by
  induction h with
  | nil => rfl
  | cons u h ih => rw [rounds, rounds, ih]
  | swap u w l => rw [rounds, rounds, rounds, rounds, Nat.add_left_comm]
  | trans h₁ h₂ ih₁ ih₂ => exact ih₁.trans ih₂

theorem exceeds_eq_false (h : d t.key = some 0) : d.exceeds limit t = false := by
  rw [exceeds, h]
  exact decide_eq_false (Nat.not_lt_zero _)

theorem exceeds_eq_true (h : d t.key ≠ some 0) (hlimit : limit ≤ t.loopCounter.toNat) :
    d.exceeds limit t = true := by
  rw [exceeds, Nat.sub_eq_zero_of_le hlimit]
  split
  · rfl
  · next n hn =>
    apply decide_eq_true
    exact Nat.pos_of_ne_zero fun hzero => h (hzero ▸ hn)

theorem marks_once (h : d t.key = some 0 ∨ limit ≤ t.loopCounter.toNat) : d.marks limit t =
    (if t.subStep = 0 ∧ t.loopCounter = 0 then [.told t.destination .started] else []) ++
      .called t.key t.loopCounter.toNat ::
        if d.exceeds limit t then [.told t.destination .timeout] else [] := by
  rw [marks, visits_eq_one h, List.append_assoc]
  rfl

section Back

variable (h : d t.key ≠ some 0) (hlimit : t.loopCounter.toNat < limit) (hkey : back.key = t.key)
  (hcounter : back.loopCounter.toNat = t.loopCounter.toNat + 1)

include h hlimit hkey hcounter

theorem visits_back : d.visits limit t = (d.less t.key).visits limit back + 1 := by
  rw [visits, visits, less, if_pos hkey]
  cases hd : d t.key with
  | none =>
    simp only [Option.map_none]
    omega
  | some n =>
    have hn : n ≠ 0 := fun hzero => h (hzero ▸ hd)
    simp only [Option.map_some]
    omega

theorem exceeds_back : d.exceeds limit t = (d.less t.key).exceeds limit back := by
  rw [exceeds, exceeds, less, if_pos hkey]
  cases hd : d t.key with
  | none => rfl
  | some n =>
    have hn : n ≠ 0 := fun hzero => h (hzero ▸ hd)
    simp only [Option.map_some, decide_eq_decide]
    omega

/-- What is seen of a task that is put back goes on where it comes back. -/
theorem marks_back : d.marks limit t =
    (if t.subStep = 0 ∧ t.loopCounter = 0 then [.told t.destination .started] else []) ++
      .called t.key t.loopCounter.toNat :: (d.less t.key).marks limit back := by
  have hback : ¬ (back.subStep = 0 ∧ back.loopCounter = 0) := by
    rintro ⟨-, hzero⟩
    rw [hzero] at hcounter
    exact Nat.succ_ne_zero _ hcounter.symm
  have hdestination : back.destination = t.destination := congrArg TaskKey.destination hkey
  have hcalls : (fun k => Mark.called back.key (back.loopCounter.toNat + k)) =
      (fun k => Mark.called t.key (t.loopCounter.toNat + k)) ∘ Nat.succ := by
    funext k
    rw [Function.comp_apply, hkey, hcounter, Nat.add_assoc, Nat.add_comm 1]
  rw [marks, marks, visits_back h hlimit hkey hcounter, exceeds_back h hlimit hkey hcounter,
    if_neg hback, hdestination, hcalls, List.range_succ_eq_map]
  simp

end Back

end Demand

/-! ## Calls of a run -/

/-- An iteration shows its call, and the end of the run if it is over. -/
theorem Call.Shows.filterMap_mark? {p : Pipeline} {c : Call σ} {tail : List Observation}
    {o : Outcome} (h : c.Shows p tail) (hreply : c.attempt.reply = .outcome o) :
    (c.opening p ++ .dispatch c.context :: tail).filterMap Observation.mark? =
      c.marks ++ if c.next.isSome then [] else [.told p.action .ok] := by
  have hopening : (c.opening p).filterMap Observation.mark? =
      if (Observation.dispatch c.context).isFirst then
        [.told c.context.task.destination .started] else [] := by
    rw [opening_eq]
    split
    · rfl
    · rfl
  have htimeout : (c.timeout p).filterMap Observation.mark? =
      if c.isDropped then [.told c.context.task.destination .timeout] else [] := by
    rw [timeout]
    split
    · rfl
    · rfl
  have hcall : (Observation.dispatch c.context :: tail).filterMap Observation.mark? =
      .called c.key c.context.loopCounter.toNat :: tail.filterMap Observation.mark? := rfl
  rw [List.filterMap_append, hopening, hcall, marks, List.append_assoc, List.cons_append, ← htimeout]
  cases h with
  | breaksOff hpanic hnext => cases hreply.symm.trans hpanic
  | fails herror hnext => cases hreply.symm.trans herror
  | completes hreply hnext =>
    rw [List.filterMap_append, hnext]
    rfl
  | goesOn hreply hnext =>
    rw [List.filterMap_append, hnext]
    rfl

/-- Each task comes before all later ones. -/
def IsSorted (order : PhaseOrder) (tasks : List Task) : Prop :=
  tasks.Pairwise fun a b => TaskList.priority order a b = .lt

/-- A call is the first one that is wanted of some tasks, and leaves others. -/
structure Call.Meets (p : Pipeline) (d : Demand) (c : Call σ) (tasks left : List Task) : Prop where
  rounds : d.rounds p.retry.maxRetries.toNat tasks =
    (d.less c.key).rounds p.retry.maxRetries.toNat left + 1
  marks : tasks.flatMap (d.marks p.retry.maxRetries.toNat) =
    c.marks ++ left.flatMap ((d.less c.key).marks p.retry.maxRetries.toNat)
  sorted : IsSorted p.order left
  perm : ∀ next, c.next = some next → next.tasks.tasks.Perm left
  ended : c.next = none ↔ left = []

namespace PlainRun

variable {p : Pipeline} {v : Service σ} {r : PlainRun σ} {d : Demand} {u : Task} {rest : TaskList}
  {later left : List Task} {outcome : Outcome}

theorem left_callFor (left : List Task) (hpop : r.tasks.popNext? p.order = some (u, rest))
    (hreply : (r.callFor p v u).attempt.reply = .outcome outcome)
    (hleft : (p.tasksAfter rest (r.editedContext p v u) outcome).tasks.Perm left) :
    (∀ next, (r.callFor p v u).next = some next → next.tasks.tasks.Perm left) ∧
      ((r.callFor p v u).next = none ↔ left = []) := by
  rw [next_callFor hpop hreply]
  split
  · next hempty =>
    have hnil : left = [] := by
      have hafter : (p.tasksAfter rest (r.editedContext p v u) outcome).tasks = [] := hempty
      rw [hafter] at hleft
      exact hleft.symm.eq_nil
    exact ⟨nofun, fun _ => hnil, fun _ => rfl⟩
  · next hne =>
    refine ⟨?_, nofun, ?_⟩
    · intro next hnext
      cases hnext
      exact hleft
    · rintro rfl
      exact absurd hleft.eq_nil hne

theorem marks_callFor (r : PlainRun σ) (p : Pipeline) (v : Service σ) (u : Task) :
    (r.callFor p v u).marks =
      (if u.subStep = 0 ∧ u.loopCounter = 0 then [.told u.destination .started] else []) ++
        .called u.key u.loopCounter.toNat ::
          if (r.callFor p v u).isDropped then [.told u.destination .timeout] else [] := by
  have hfirst : (Observation.dispatch (r.callFor p v u).context).isFirst = true ↔
      u.subStep = 0 ∧ u.loopCounter = 0 := by
    show (u.subStep == 0 && u.loopCounter == 0) = true ↔ _
    rw [Bool.and_eq_true, beq_iff_eq, beq_iff_eq]
  rw [Call.marks]
  simp only [hfirst]
  rfl

/-- A task that does not come back is called once. -/
theorem meets_of_over (hpop : r.tasks.popNext? p.order = some (u, rest))
    (hperm : rest.tasks.Perm later) (hsorted : IsSorted p.order (u :: later))
    (hothers : ∀ w ∈ later, w.key ≠ u.key)
    (hreply : (r.callFor p v u).attempt.reply = .outcome outcome)
    (hafter : p.tasksAfter rest (r.editedContext p v u) outcome = rest)
    (honce : d u.key = some 0 ∨ p.retry.maxRetries.toNat ≤ u.loopCounter.toNat)
    (hdropped : (r.callFor p v u).isDropped = d.exceeds p.retry.maxRetries.toNat u) :
    (r.callFor p v u).Meets p d (u :: later) later where
  rounds := by
    show _ = (d.less u.key).rounds _ later + 1
    rw [Demand.rounds, Demand.visits_eq_one honce, Demand.rounds_less hothers, Nat.add_comm]
  marks := by
    show _ = _ ++ later.flatMap ((d.less u.key).marks _)
    rw [List.flatMap_cons, Demand.flatMap_marks_less hothers, marks_callFor,
      Demand.marks_once honce, hdropped]
  sorted := (List.pairwise_cons.1 hsorted).2
  perm := (left_callFor later hpop hreply (by rw [hafter]; exact hperm)).1
  ended := (left_callFor later hpop hreply (by rw [hafter]; exact hperm)).2

/-- A task that comes back is before all others again. -/
theorem meets_of_back {back : Task} (hpop : r.tasks.popNext? p.order = some (u, rest))
    (hperm : rest.tasks.Perm later) (hsorted : IsSorted p.order (u :: later))
    (hothers : ∀ w ∈ later, w.key ≠ u.key)
    (hreply : (r.callFor p v u).attempt.reply = .outcome outcome)
    (hafter : (p.tasksAfter rest (r.editedContext p v u) outcome).tasks = rest.tasks ++ [back])
    (hkey : back.key = u.key) (hcounter : back.loopCounter.toNat = u.loopCounter.toNat + 1)
    (hwanted : d u.key ≠ some 0) (hlimit : u.loopCounter.toNat < p.retry.maxRetries.toNat)
    (hdropped : (r.callFor p v u).isDropped = false) :
    (r.callFor p v u).Meets p d (u :: later) (back :: later) := by
  obtain ⟨hfirst, hlater⟩ := List.pairwise_cons.1 hsorted
  have hflight : back.isInFlight = true := by
    have hpos : 0 < back.loopCounter := by
      rw [UInt32.lt_iff_toNat_lt, hcounter]
      exact Nat.succ_pos _
    rw [Task.isInFlight, decide_eq_true hpos, Bool.or_true]
  have hleft : (p.tasksAfter rest (r.editedContext p v u) outcome).tasks.Perm (back :: later) := by
    rw [hafter]
    exact (List.perm_append_singleton back rest.tasks).trans (hperm.cons back)
  refine ⟨?_, ?_, ?_, (left_callFor _ hpop hreply hleft).1, (left_callFor _ hpop hreply hleft).2⟩
  · show _ = (d.less u.key).rounds _ (back :: later) + 1
    rw [Demand.rounds, Demand.rounds, Demand.visits_back hwanted hlimit hkey hcounter,
      Demand.rounds_less hothers, Nat.add_right_comm]
  · show _ = _ ++ (back :: later).flatMap ((d.less u.key).marks _)
    rw [List.flatMap_cons, List.flatMap_cons, Demand.flatMap_marks_less hothers, marks_callFor,
      Demand.marks_back hwanted hlimit hkey hcounter, hdropped, List.append_assoc, List.append_assoc]
    rfl
  · apply List.pairwise_cons.2 ⟨?_, hlater⟩
    intro w hw
    exact TaskList.priority_of_isInFlight hkey hflight (hfirst w hw)

/-- **A call is as it is wanted.**  The task that comes before all others is done or given up, or it
comes back, and then it comes before all others again. -/
theorem exists_meets (hr : r.IsSound) (hretries : p.retry.maxRetries.toNat < 4294967295)
    (hpop : r.tasks.popNext? p.order = some (u, rest)) (hperm : rest.tasks.Perm later)
    (hsorted : IsSorted p.order (u :: later)) (hfollowUp : (r.callFor p v u).followUp? = none)
    (hreply : (r.callFor p v u).attempt.reply =
      .outcome (if d u.key = some 0 then .done else .reschedule)) :
    ∃ left, (r.callFor p v u).Meets p d (u :: later) left := by
  have hcounter : (r.editedContext p v u).loopCounter = u.loopCounter :=
    Context.editAll_loopCounter _ _
  have htask : (r.editedContext p v u).task = u := Context.editAll_task _ _
  have hgone := (TaskList.distinct_popNext? hpop hr.distinct).1
  have hothers : ∀ w ∈ later, w.key ≠ u.key := by
    intro w hw heq
    apply hgone
    rw [← heq]
    exact List.mem_map_of_mem (hperm.symm.subset hw)
  have hdropped := isDropped_callFor hr hpop hreply
  by_cases hzero : d u.key = some 0
  · rw [if_pos hzero] at hreply hdropped
    have hprepared : (r.editedContext p v u).preparedFollowUp = none := by
      have hscheduled : (r.editedContext p v u).followUp = none := hfollowUp
      rw [Context.preparedFollowUp, hscheduled, Option.map_none]
    refine ⟨later, meets_of_over hpop hperm hsorted hothers hreply ?_ (.inl hzero) ?_⟩
    · rw [Pipeline.tasksAfter, RetryPolicy.decide, hprepared]
      rfl
    · rw [Demand.exceeds_eq_false hzero, Bool.eq_false_iff]
      exact fun hgiven => Outcome.noConfusion (hdropped.1 hgiven).1
  · rw [if_neg hzero] at hreply hdropped
    by_cases hlimit : u.loopCounter.toNat < p.retry.maxRetries.toNat
    · have hexhausted := (RetryPolicy.isExhausted_succCounter_eq_false_iff hretries).2 hlimit
      refine ⟨(r.editedContext p v u).retryTask (RetryPolicy.succCounter u.loopCounter) :: later,
        meets_of_back hpop hperm hsorted hothers hreply ?_ ?_ ?_ hzero hlimit ?_⟩
      · rw [Pipeline.tasksAfter, hcounter,
          RetryPolicy.decide_reschedule_of_not_exhausted hexhausted]
        simp only
        rw [TaskList.add_of_not_mem]
        rw [Context.key_retryTask, htask]
        exact hgone
      · rw [Context.key_retryTask, htask]
      · rw [Context.loopCounter_retryTask]
        exact RetryPolicy.toNat_succCounter (Nat.lt_trans hlimit hretries)
      · rw [Bool.eq_false_iff]
        exact fun hgiven => Bool.noConfusion (hexhausted.symm.trans (hdropped.1 hgiven).2)
    · have hexhausted : p.retry.isExhausted (RetryPolicy.succCounter u.loopCounter) = true := by
        rw [← Bool.not_eq_false, RetryPolicy.isExhausted_succCounter_eq_false_iff hretries]
        exact hlimit
      refine ⟨later, meets_of_over hpop hperm hsorted hothers hreply ?_
        (.inr (Nat.le_of_not_lt hlimit)) ?_⟩
      · rw [Pipeline.tasksAfter, hcounter, RetryPolicy.decide_reschedule_of_exhausted hexhausted]
      · rw [Demand.exceeds_eq_true hzero (Nat.le_of_not_lt hlimit)]
        exact hdropped.2 ⟨rfl, hexhausted⟩

theorem answered_of_call? {c : Call σ} (h : ∀ n, d.Answered (r.calls p v n))
    (hcall : r.call? p v = some c) :
    c.followUp? = none ∧
      c.attempt.reply = .outcome (if d c.key = some 0 then .done else .reschedule) ∧
      ∀ next, c.next = some next → ∀ n, (d.less c.key).Answered (next.calls p v n) := by
  have hfirst : c.followUp? = none ∧
      c.attempt.reply = .outcome (if d c.key = some 0 then .done else .reschedule) := by
    have hone := h 1
    rw [calls, hcall] at hone
    cases hnext : c.next with
    | none =>
      simp only [hnext] at hone
      exact ⟨hone.1, hone.2.1⟩
    | some next =>
      simp only [hnext] at hone
      exact ⟨hone.1, hone.2.1⟩
  refine ⟨hfirst.1, hfirst.2, ?_⟩
  intro next hnext n
  have hmore := h (n + 1)
  rw [calls_of_goesOn n hcall hnext] at hmore
  exact hmore.2.2

/-- A run is over after exactly so many iterations, and this is what is seen of it. -/
structure EndsAfter (p : Pipeline) (v : Service σ) (r : PlainRun σ) (n : Nat) (marks : List Mark) :
    Prop where
  goesOn : ∀ k < n, (r.iterations p v k).2.isSome = true
  ended : (r.iterations p v n).2 = none
  marks_eq : (r.iterations p v n).1.filterMap Observation.mark? = marks

theorem endsAfter_one {shown : List Observation} (h : r.iterate p v = (shown, none)) :
    r.EndsAfter p v 1 (shown.filterMap Observation.mark?) where
  goesOn := by
    intro k hk
    rw [Nat.lt_one_iff.1 hk]
    rfl
  ended := by rw [iterations_of_over 0 h]
  marks_eq := by rw [iterations_of_over 0 h]

theorem EndsAfter.succ {shown : List Observation} {next : PlainRun σ} {n : Nat} {marks : List Mark}
    (hnext : next.EndsAfter p v n marks) (h : r.iterate p v = (shown, some next)) :
    r.EndsAfter p v (n + 1) (shown.filterMap Observation.mark? ++ marks) where
  goesOn := by
    intro k hk
    cases k with
    | zero => rfl
    | succ k =>
      rw [iterations_of_goesOn k h]
      exact hnext.goesOn k (Nat.lt_of_succ_lt_succ hk)
  ended := by
    rw [iterations_of_goesOn n h]
    exact hnext.ended
  marks_eq := by rw [iterations_of_goesOn n h, List.filterMap_append, hnext.marks_eq]

/-- **The schedule of a run**, whose tasks are done one after the other. -/
theorem schedule {tasks : List Task} {n : Nat} (hr : r.IsSound)
    (hretries : p.retry.maxRetries.toNat < 4294967295) (hperm : r.tasks.tasks.Perm tasks)
    (hsorted : IsSorted p.order tasks) (hanswered : ∀ n, d.Answered (r.calls p v n))
    (hne : tasks ≠ []) (hn : d.rounds p.retry.maxRetries.toNat tasks = n) :
    r.EndsAfter p v n
      (tasks.flatMap (d.marks p.retry.maxRetries.toNat) ++ [.told p.action .ok]) := by
  induction n generalizing r d tasks with
  | zero =>
    cases tasks with
    | nil => exact absurd rfl hne
    | cons u later =>
      have hpos := d.visits_pos p.retry.maxRetries.toNat u
      rw [Demand.rounds] at hn
      omega
  | succ n ih =>
    cases tasks with
    | nil => exact absurd rfl hne
    | cons u later =>
      obtain ⟨rest, hpop, hperm'⟩ :=
        TaskList.popNext?_of_perm_cons hperm (List.pairwise_cons.1 hsorted).1
      have hcall := call?_of_popNext? (v := v) hpop
      obtain ⟨hfollowUp, hreply, hlater⟩ := answered_of_call? hanswered hcall
      obtain ⟨left, hmeets⟩ := exists_meets hr hretries hpop hperm' hsorted hfollowUp hreply
      obtain ⟨tail, hiterate, hshows⟩ := iterate_of_call? hr hcall
      have hseen := hshows.filterMap_mark? hreply
      have hrounds := hmeets.rounds
      rw [hn] at hrounds
      rw [hmeets.marks, List.append_assoc]
      cases hnext : (r.callFor p v u).next with
      | none =>
        -- the last call of the last task
        have hnil := hmeets.ended.1 hnext
        rw [hnil, Demand.rounds] at hrounds
        rw [hnext] at hiterate hseen
        have hends := endsAfter_one hiterate
        rw [hseen] at hends
        rw [hnil, hrounds]
        exact hends
      | some next =>
        have hmore : left ≠ [] := by
          intro hnil
          rw [hmeets.ended.2 hnil] at hnext
          cases hnext
        have hlaterEnds := ih (isSound_next hr hcall hnext) (hmeets.perm next hnext) hmeets.sorted
          (hlater next hnext) hmore (Nat.succ.inj hrounds).symm
        rw [hnext] at hiterate hseen
        have hends := hlaterEnds.succ hiterate
        rw [hseen, Option.isSome_some, if_pos rfl, List.append_nil] at hends
        exact hends

/-- A run without a task is over after one iteration, too. -/
theorem schedule_inOrder (hr : r.IsSound) (hretries : p.retry.maxRetries.toNat < 4294967295)
    (hanswered : ∀ n, d.Answered (r.calls p v n)) :
    r.EndsAfter p v (max 1 (d.rounds p.retry.maxRetries.toNat r.tasks.tasks))
      ((r.tasks.inOrder p.order).flatMap (d.marks p.retry.maxRetries.toNat) ++
        [.told p.action .ok]) := by
  have hperm := TaskList.inOrder_perm p.order r.tasks
  have hsorted : IsSorted p.order (r.tasks.inOrder p.order) :=
    TaskList.pairwise_inOrder hr.distinct
  rw [← Demand.rounds_perm hperm d]
  cases htasks : r.tasks.inOrder p.order with
  | nil =>
    have hempty : r.tasks.tasks = [] := by
      rw [htasks] at hperm
      exact hperm.symm.eq_nil
    have hcall : r.call? p v = none := by
      rw [call?, TaskList.popNext?_eq_none_iff.2 hempty]
      rfl
    exact endsAfter_one (iterate_of_call?_eq_none hcall)
  | cons u later =>
    rw [htasks] at hperm hsorted
    apply schedule hr hretries hperm.symm hsorted hanswered (List.cons_ne_nil _ _)
    have hpos := d.visits_pos p.retry.maxRetries.toNat u
    rw [Demand.rounds]
    omega

end PlainRun

/-! ## Steps -/

namespace Demand

/-- Steps answer by a state that tells what is still wanted of them. -/
structure Rules (demand : σ → Demand) (v : Service σ) : Prop where
  edits : ∀ context state next, .scheduleFollowUp next ∉ (v.invoke context state).1.edits
  reply : ∀ context state, (v.invoke context state).1.reply =
    .outcome (if demand state context.task.key = some 0 then .done else .reschedule)
  state : ∀ context state,
    demand (v.invoke context state).2 = (demand state).less context.task.key

theorem Rules.answered {p : Pipeline} {v : Service σ} {r : PlainRun σ} {demand : σ → Demand}
    (h : Rules demand v) (hr : r.IsSound) (n : Nat) :
    (demand r.state).Answered (r.calls p v n) := by
  have hcalled : ∀ {r : PlainRun σ} {c : Call σ}, r.call? p v = some c →
      c.followUp? = none ∧ c.attempt.reply =
        .outcome (if demand r.state c.key = some 0 then .done else .reschedule) := by
    intro r c hcall
    obtain ⟨task, rest, -, rfl⟩ := PlainRun.popNext?_of_call? hcall
    exact ⟨Context.editAll_followUp (h.edits _ _), h.reply _ _⟩
  induction n generalizing r with
  | zero => exact trivial
  | succ n ih =>
    have hunfolds := PlainRun.unfolds p v n hr
    generalize r.calls p v (n + 1) = calls, r.iterations p v (n + 1) = shown at hunfolds ⊢
    cases hunfolds with
    | idle hcall => exact trivial
    | last hcall hnext hshows => exact ⟨(hcalled hcall).1, (hcalled hcall).2, trivial⟩
    | more hcall hnext hsound hshows =>
      have hlater := ih hsound
      refine ⟨(hcalled hcall).1, (hcalled hcall).2, ?_⟩
      obtain ⟨task, rest, outcome, -, rfl, -, rfl⟩ := PlainRun.exists_after hr hcall hnext
      have hstate := h.state (r.callFor p v task).context r.state
      rw [Call.key, ← hstate]
      exact hlater

/-- Steps that do as they are told. -/
def service : Service Demand where
  supports := fun _ => true
  invoke context d :=
    ({ reply := .outcome (if d context.task.key = some 0 then .done else .reschedule) },
      d.less context.task.key)

theorem rules_service : Rules id service :=
  ⟨fun _ _ _ => List.not_mem_nil, fun _ _ => rfl, fun _ _ => rfl⟩

end Demand

/-! ## Runs that are triggered -/

namespace Site

variable {p : Post} {e : Engine σ} {tasks : TaskList} {attributes : Headers} {s : Site σ}
  {d : Demand}

/-- **A run keeps to its schedule.**  If no step lets a task follow, and each one wants to see its
task again as often as `d` says, a run of distinct units of work is over after exactly as many
iterations as its tasks are called, all of them together.  The tasks are done one after the other, in
their order; the run is complete in the end, its topic is empty, and as many messages have been
published. -/
theorem runs_to_schedule (hreliable : s.IsReliable) (hengine : s.engines[p.engine]? = some e)
    (htopic : e.pipeline.topic = p.topic) (hempty : s.channel.messages p.topic = [])
    (hdistinct : tasks.Distinct) (hretries : e.pipeline.retry.maxRetries < 4294967295)
    (hanswered : ∀ n,
      d.Answered ((PlainRun.start s e tasks attributes).calls e.pipeline e.service n)) :
    let limit := e.pipeline.retry.maxRetries.toNat
    let total := max 1 (d.rounds limit tasks.tasks)
    (∃ t, Driven p e tasks attributes total s t) ∧
      ∀ n t, Driven p e tasks attributes n s t →
        n ≤ total ∧ ((∃ u, Round p t u) ↔ n < total) ∧
        (n = total → ∃ shown, t.observations = s.observations ++ shown ∧
          shown.filterMap Observation.mark? = .told e.pipeline.action .pending ::
            ((tasks.inOrder e.pipeline.order).flatMap (d.marks limit) ++
              [.told e.pipeline.action .ok]) ∧
          t.channel.pending p.topic = 0 ∧
          t.channel.published p.topic = s.channel.published p.topic + total) := by
  intro limit total
  have hstart : (PlainRun.start s e tasks attributes).tasks = tasks :=
    TaskList.ofList_tasks hdistinct
  have hends := PlainRun.schedule_inOrder (isSound_start s e tasks attributes) hretries hanswered
  rw [hstart] at hends
  obtain ⟨hsome, hnone, hmarks⟩ := hends
  have hover : ∀ {t : Site σ}, Driven p e tasks attributes total s t → ¬ ∃ u, Round p t u := by
    intro t ht hround
    have hmore := ht.exists_more_iff.1 hround
    rw [hnone] at hmore
    cases hmore
  refine ⟨exists_driven tasks attributes hreliable hengine htopic hempty total hsome, ?_⟩
  intro n t ht
  have hle : n ≤ total := by
    apply Nat.le_of_not_lt
    intro hlt
    obtain ⟨u, w, hrounds, hround⟩ := ht.rounds.exists_round hlt
    exact hover ⟨hreliable, hengine, htopic, hempty, hrounds⟩ ⟨w, hround⟩
  refine ⟨hle, ⟨?_, ?_⟩, ?_⟩
  · intro hround
    rcases Nat.lt_or_eq_of_le hle with hlt | rfl
    · exact hlt
    · exact absurd hround (hover ht)
  · intro hlt
    exact ht.exists_more_iff.2 (hsome n hlt)
  · rintro rfl
    obtain ⟨-, hseen, hfollows⟩ := ht.follows
    rw [hnone] at hfollows
    have hpending : t.channel.pending p.topic = 0 := pending_of_follows hfollows
    refine ⟨_, hseen, ?_, hpending, ?_⟩
    · rw [List.filterMap_cons]
      simp only [Observation.mark?]
      rw [hmarks]
    · rw [ht.published_eq, hpending, Nat.add_zero]

/-- The step for `a` always wants to see its task again, the one for `b` once. -/
def restless : Demand := fun key =>
  if key.destination = "a" then none else some 1

def restlessEngine : Engine Demand :=
  { pipeline := { Sample.pipeline with retry := ⟨2, 0⟩ }, service := Demand.service, state := restless }

def restlessSite : Site Demand :=
  { leases := { ttl := 10 }, ids := Nat.repr, clock := .fixed 0, engines := [restlessEngine] }

theorem runs_to_schedule_restless :
    ∃ t, Driven (Sample.post "a" {}) restlessEngine twoTasks ∅ 5 restlessSite t ∧
      t.observations.filterMap Observation.mark? =
        [.told "sample.run" .pending,
          .told "a" .started, .called ⟨"load", "a"⟩ 0, .called ⟨"load", "a"⟩ 1,
          .called ⟨"load", "a"⟩ 2, .told "a" .timeout,
          .told "b" .started, .called ⟨"load", "b"⟩ 0, .called ⟨"load", "b"⟩ 1,
          .told "sample.run" .ok] ∧
      t.channel.pending "t" = 0 ∧ t.channel.published "t" = 5 := by
  have hanswered := fun n => Demand.rules_service.answered (p := restlessEngine.pipeline)
    (isSound_start restlessSite restlessEngine twoTasks ∅) n
  obtain ⟨⟨t, ht⟩, hall⟩ := runs_to_schedule (p := Sample.post "a" {}) (s := restlessSite)
    (e := restlessEngine) (fun _ => rfl) rfl rfl rfl (by decide) (by decide) hanswered
  obtain ⟨-, -, hlast⟩ := hall _ t ht
  obtain ⟨shown, hshown, hmarks, hpending, hpublished⟩ := hlast rfl
  have hseen : t.observations = shown := hshown
  have hinOrder : twoTasks.inOrder restlessEngine.pipeline.order = twoTasks.tasks :=
    TaskList.inOrder_of_pairwise (by decide +kernel)
  refine ⟨t, ht, ?_, hpending, hpublished⟩
  rw [hseen, hmarks, hinOrder]
  decide +kernel

end Site

end TaskRelay
