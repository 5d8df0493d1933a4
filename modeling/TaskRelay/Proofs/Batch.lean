import TaskRelay.Proofs.TaskList.Merging
import TaskRelay.Proofs.TaskList.Priority
import TaskRelay.Proofs.TaskList.Wire

/-!
# Batches do not depend on the order of arrival

Within one text the first entry of a unit of work counts, between two texts the one that has come
further, and an entry that is already in the list stays where neither is ahead.  What a task list
knows of a unit of work is how far it has come (`TaskList.progress?`), and merging takes the further
of two such answers (`progress?_merge`), an operation in which the order is of no account.  The
answers for all units of work decide in turn which of them are taken out one after the other
(`map_standing_drain`), so a batch that takes in the same messages in another order is the same but
for headers (`Batch.absorbAll_perm`).
-/

namespace TaskRelay

/-! ## The further of two -/

namespace Task.Progress

theorem further_comm (a b : Progress) : further a b = further b a :=
  eq_of_rank_eq (by rw [rank_further, rank_further, Nat.max_comm])

theorem further_right_comm (a b c : Progress) :
    further (further a b) c = further (further a c) b :=
  eq_of_rank_eq (by simp only [rank_further, Nat.max_assoc, Nat.max_comm b.rank])

/-- The further of two answers, of which either may be that there is none. -/
def further? : Option Progress → Option Progress → Option Progress :=
  Option.merge further

theorem further?_right_comm (a b c : Option Progress) :
    further? (further? a b) c = further? (further? a c) b := by
  cases a <;> cases b <;> cases c <;>
    simp only [further?, Option.merge_none_left, Option.merge_none_right, Option.merge_some_some]
  · next b c => rw [further_comm]
  · next a b c => rw [further_right_comm]

end Task.Progress

/-! ## How far the units of work of a list have come -/

namespace Task

/-- A unit of work and how far it has come: the task without its headers, but for how often it has
been put back. -/
def standing (t : Task) : TaskKey × Progress :=
  (t.key, t.progress)

end Task

namespace TaskList

variable {l other : TaskList} {key : TaskKey}

/-- How far a unit of work of the list has come. -/
def progress? (l : TaskList) (key : TaskKey) : Option Task.Progress :=
  (l.tasks.find? (·.key == key)).map Task.progress

theorem progress?_eq (l : TaskList) (key : TaskKey) :
    l.progress? key = (l.get? key).map Task.progress := rfl

/-- In a list of distinct units of work, each task tells how far its unit of work has come. -/
theorem mem_map_standing_iff (h : l.Distinct) {p : Task.Progress} :
    (key, p) ∈ l.tasks.map Task.standing ↔ l.progress? key = some p := by
  rw [progress?_eq, Option.map_eq_some_iff, List.mem_map]
  constructor
  · rintro ⟨t, ht, heq⟩
    obtain ⟨rfl, rfl⟩ := Prod.mk.inj heq
    exact ⟨t, get?_of_mem h ht, rfl⟩
  · rintro ⟨t, ht, rfl⟩
    exact ⟨t, mem_of_get? ht, Prod.ext (key_of_get? ht) rfl⟩

/-- **A unit of work has come as far in the merged list as in the further of the two.** -/
theorem progress?_merge (l : TaskList) {other : TaskList} (h : other.Distinct) (key : TaskKey) :
    (l.merge other).1.progress? key =
      Task.Progress.further? (l.progress? key) (other.progress? key) := by
  rw [progress?_eq, progress?_eq, progress?_eq, get?_merge l h, Task.Progress.further?]
  cases l.get? key with
  | none => rw [Option.merge_none_left, Option.map_none, Option.merge_none_left]
  | some t =>
    cases other.get? key with
    | none => rw [Option.merge_none_right, Option.map_none, Option.merge_none_right]
    | some u => exact congrArg some (Task.progress_further t u)

/-! ## What is known of the units of work decides their order -/

theorem isInFlight_congr {t u : Task} (h : t.progress = u.progress) :
    t.isInFlight = u.isInFlight := by
  obtain ⟨hstep, hcounter⟩ := Task.Progress.mk.inj h
  rw [Task.isInFlight, Task.isInFlight, Task.isStarted, Task.isStarted, hstep, hcounter]

theorem priority_congr {order : PhaseOrder} {a a' b b' : Task} (ha : a.standing = a'.standing)
    (hb : b.standing = b'.standing) : priority order a b = priority order a' b' := by
  obtain ⟨hkey, hprogress⟩ := Prod.mk.inj ha
  obtain ⟨hphase, hdestination⟩ := TaskKey.mk.inj hkey
  obtain ⟨hkey', hprogress'⟩ := Prod.mk.inj hb
  obtain ⟨hphase', hdestination'⟩ := TaskKey.mk.inj hkey'
  rw [priority, priority, hphase, hdestination, hphase', hdestination', isInFlight_congr hprogress,
    isInFlight_congr hprogress']

theorem nodup_map_standing (h : l.Distinct) : (l.tasks.map Task.standing).Nodup :=
  List.pairwise_map.2 ((List.pairwise_map.1 h).imp fun hne heq => hne (Prod.mk.inj heq).1)

/-- Two lists that know the same of all units of work hold the same ones, each as far. -/
theorem perm_map_standing (hl : l.Distinct) (hother : other.Distinct)
    (h : ∀ key, l.progress? key = other.progress? key) :
    (l.tasks.map Task.standing).Perm (other.tasks.map Task.standing) := by
  refine (List.perm_ext_iff_of_nodup (nodup_map_standing hl) (nodup_map_standing hother)).2 ?_
  rintro ⟨key, p⟩
  rw [mem_map_standing_iff hl, mem_map_standing_iff hother, h]

/-- A task with the first standing is done before any with the second. -/
def Precedes (order : PhaseOrder) (s s' : TaskKey × Task.Progress) : Prop :=
  ∀ t u : Task, t.standing = s → u.standing = s' → priority order t u = .lt

theorem pairwise_precedes_drain (h : l.Distinct) (order : PhaseOrder) :
    ((l.drain order).map Task.standing).Pairwise (Precedes order) :=
  List.pairwise_map.2 ((pairwise_drain h).imp fun hlt _ _ ht hu => (priority_congr ht hu).trans hlt)

/-- They are also taken out in the same order: both are sorted, and no two standings precede each
other. -/
theorem map_standing_drain (hl : l.Distinct) (hother : other.Distinct)
    (h : (l.tasks.map Task.standing).Perm (other.tasks.map Task.standing)) (order : PhaseOrder) :
    (l.drain order).map Task.standing = (other.drain order).map Task.standing := by
  have hperm : ((l.drain order).map Task.standing).Perm ((other.drain order).map Task.standing) :=
    ((drain_perm order l).map _).trans (h.trans ((drain_perm order other).map _).symm)
  refine hperm.eq_of_pairwise ?_ (pairwise_precedes_drain hl order)
    (pairwise_precedes_drain hother order)
  intro s s' hs hs' hprecedes hfollows
  obtain ⟨t, -, ht⟩ := List.mem_map.1 hs
  obtain ⟨u, -, hu⟩ := List.mem_map.1 hs'
  have hlt := hprecedes t u ht hu
  rw [priority_swap, hfollows u t hu ht] at hlt
  cases hlt

end TaskList

/-! ## Taking in messages -/

namespace Message

/-- Whether the message holds a task list. -/
def holdsTasks (m : Message) : Bool :=
  (TaskList.decodeLenient? m.payload).isSome

/-- How far a unit of work has come, as far as this message knows. -/
def progress? (m : Message) (key : TaskKey) : Option Task.Progress :=
  (TaskList.decodeLenient? m.payload).bind fun read => read.1.progress? key

end Message

namespace Batch

open Task.Progress (further? further?_right_comm)

theorem messages_absorb (b : Batch) (m : Message) :
    (b.absorb m).messages = b.messages + if m.holdsTasks then 1 else 0 := by
  rw [absorb, TaskList.mergeText?, Message.holdsTasks]
  cases TaskList.decodeLenient? m.payload <;> rfl

theorem rejected_absorb (b : Batch) (m : Message) :
    (b.absorb m).rejected = b.rejected + if m.holdsTasks then 0 else 1 := by
  rw [absorb, TaskList.mergeText?, Message.holdsTasks]
  cases TaskList.decodeLenient? m.payload <;> rfl

theorem progress?_absorb (b : Batch) (m : Message) (key : TaskKey) :
    (b.absorb m).tasks.progress? key = further? (b.tasks.progress? key) (m.progress? key) := by
  rw [absorb, TaskList.mergeText?, Message.progress?]
  cases h : TaskList.decodeLenient? m.payload with
  | none => exact Option.merge_none_right.symm
  | some read => exact TaskList.progress?_merge b.tasks (TaskList.distinct_decodeLenient? h) key

theorem distinct_absorbAll {b : Batch} (h : b.tasks.Distinct) (messages : List Message) :
    (b.absorbAll messages).tasks.Distinct := by
  induction messages generalizing b with
  | nil => exact h
  | cons m messages ih => exact ih (distinct_absorb h m)

theorem messages_absorbAll (b : Batch) (messages : List Message) :
    (b.absorbAll messages).messages = b.messages + messages.countP Message.holdsTasks := by
  induction messages generalizing b with
  | nil => rfl
  | cons m messages ih =>
    rw [absorbAll, List.foldl_cons, ← absorbAll, ih, messages_absorb, List.countP_cons,
      Nat.add_assoc, Nat.add_comm (ite _ _ _)]

theorem rejected_absorbAll (b : Batch) (messages : List Message) :
    (b.absorbAll messages).rejected = b.rejected + messages.countP (!·.holdsTasks) := by
  induction messages generalizing b with
  | nil => rfl
  | cons m messages ih =>
    rw [absorbAll, List.foldl_cons, ← absorbAll, ih, rejected_absorb, List.countP_cons,
      Nat.add_assoc, Nat.add_comm (ite _ _ _)]
    cases m.holdsTasks <;> rfl

/-- How far a unit of work has come in a batch: the furthest that any message knows. -/
theorem progress?_absorbAll (b : Batch) (messages : List Message) (key : TaskKey) :
    (b.absorbAll messages).tasks.progress? key =
      messages.foldl (fun known m => further? known (m.progress? key)) (b.tasks.progress? key) := by
  induction messages generalizing b with
  | nil => rfl
  | cons m messages ih =>
    rw [absorbAll, List.foldl_cons, ← absorbAll, ih, progress?_absorb, List.foldl_cons]

/-- **The order of arrival does not matter.**  A batch that takes in the same messages in another
order counts as many of them and rejects as many; it holds each unit of work once, the same ones,
each as far, and they are taken out in the same order whatever the table of phases. -/
theorem absorbAll_perm {b : Batch} (hb : b.tasks.Distinct) {messages messages' : List Message}
    (h : messages.Perm messages') :
    (b.absorbAll messages).messages = (b.absorbAll messages').messages ∧
    (b.absorbAll messages).rejected = (b.absorbAll messages').rejected ∧
    (b.absorbAll messages).tasks.Distinct ∧
    ((b.absorbAll messages).tasks.tasks.map Task.standing).Perm
      ((b.absorbAll messages').tasks.tasks.map Task.standing) ∧
    ∀ order : PhaseOrder, ((b.absorbAll messages).tasks.drain order).map Task.standing =
      ((b.absorbAll messages').tasks.drain order).map Task.standing := by
  have hdistinct := distinct_absorbAll hb messages
  have hdistinct' := distinct_absorbAll hb messages'
  have hprogress : ∀ key, (b.absorbAll messages).tasks.progress? key =
      (b.absorbAll messages').tasks.progress? key := by
    intro key
    rw [progress?_absorbAll, progress?_absorbAll]
    exact h.foldl_eq' (fun _ _ _ _ _ => further?_right_comm _ _ _) _
  have hperm := TaskList.perm_map_standing hdistinct hdistinct' hprogress
  refine ⟨?_, ?_, hdistinct, hperm, TaskList.map_standing_drain hdistinct hdistinct' hperm⟩
  · rw [messages_absorbAll, messages_absorbAll, h.countP_eq]
  · rw [rejected_absorbAll, rejected_absorbAll, h.countP_eq]

/-- Three messages that know different things of the same units of work, and one that is no task
list. -/
def mixed : List Message :=
  let task (subStep : UInt32) (destination : Destination) : Task :=
    { phase := "LOAD", subStep, destination }
  [{ payload := TaskList.encode ⟨[task 0 "x", task 0 "y", task 5 "x"]⟩ },
    { payload := "no list" },
    { payload := TaskList.encode ⟨[task 1 "y"]⟩ },
    { payload := TaskList.encode ⟨[task 2 "y", task 0 "a"]⟩ }]

/-- Taken in the other way round, the messages give a list in another order, out of which the same
is taken. -/
theorem absorbAll_perm_mixed :
    (TaskList.Distinct ∅ ∧ mixed.Perm mixed.reverse) ∧
    ((absorbAll ∅ mixed).tasks.tasks.map Task.display = ["LOAD/x#0", "LOAD/y#2", "LOAD/a#0"] ∧
      (absorbAll ∅ mixed.reverse).tasks.tasks.map Task.display =
        ["LOAD/y#2", "LOAD/a#0", "LOAD/x#0"] ∧
      (absorbAll ∅ mixed).messages = 3 ∧ (absorbAll ∅ mixed).rejected = 1) ∧
    (absorbAll ∅ mixed).messages = (absorbAll ∅ mixed.reverse).messages ∧
    (absorbAll ∅ mixed).rejected = (absorbAll ∅ mixed.reverse).rejected ∧
    ∀ order : PhaseOrder, ((absorbAll ∅ mixed).tasks.drain order).map Task.standing =
      ((absorbAll ∅ mixed.reverse).tasks.drain order).map Task.standing := by
  have hperm : mixed.Perm mixed.reverse := (List.reverse_perm mixed).symm
  obtain ⟨hmessages, hrejected, -, -, hdrain⟩ :=
    absorbAll_perm (b := ∅) TaskList.distinct_empty hperm
  refine ⟨⟨TaskList.distinct_empty, hperm⟩, ?_, hmessages, hrejected, hdrain⟩
  simp only [mixed, absorbAll, List.reverse_cons, List.reverse_nil, List.nil_append,
    List.cons_append, List.foldl_cons, List.foldl_nil, absorb_encode]
  decide +kernel

end Batch

end TaskRelay
