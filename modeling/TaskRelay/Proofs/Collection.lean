import TaskRelay.Collection

/-!
# What a receive comes to

A receive either takes the first message that can be taken, or finds none.  `poll_more` and
`poll_closed` say which message has been taken and what has become of the batch; `take?_eq_some`
says which message that is and that the others stay in their order.
-/

namespace TaskRelay

theorem Held.isDeliverable_iff {h : Held} {topic : String} {now : Nat} :
    h.isDeliverable topic now = true ↔ h.topic = topic ∧ h.due ≤ now := by
  rw [isDeliverable, Bool.and_eq_true, beq_iff_eq, decide_eq_true_iff]

theorem Held.isDeliverable_eq_false_iff {h : Held} {topic : String} {now : Nat} :
    h.isDeliverable topic now = false ↔ (h.topic = topic → now < h.due) := by
  rw [← Bool.not_eq_true, isDeliverable_iff, not_and, Nat.not_le]

namespace Channel

variable {c c' : Channel} {topic : String} {now : Nat} {m : Message}

theorem take?_eq_none_iff :
    c.take? topic now = none ↔ ∀ h ∈ c.held, h.isDeliverable topic now = false := by
  rw [take?]
  split
  · next heq => simpa using heq
  · next held heq =>
    have hfound := List.find?_some heq
    have hmem := List.mem_of_find?_eq_some heq
    refine ⟨nofun, fun hnone => ?_⟩
    rw [hnone held hmem] at hfound
    cases hfound

/-- Only messages that are due later are left on a topic from which none can be taken. -/
theorem lt_due_of_take?_eq_none (h : c.take? topic now = none) {held : Held}
    (hheld : held ∈ c.onTopic topic) : now < held.due := by
  obtain ⟨hmem, htopic⟩ := List.mem_filter.1 hheld
  exact Held.isDeliverable_eq_false_iff.1 (take?_eq_none_iff.1 h held hmem) (beq_iff_eq.1 htopic)

/-- The message that is taken is the first one that can be taken; the others stay as they are. -/
theorem take?_eq_some (h : c.take? topic now = some (m, c')) :
    ∃ before held after, c.held = before ++ held :: after ∧ held.message = m ∧
      held.isDeliverable topic now = true ∧
      (∀ other ∈ before, other.isDeliverable topic now = false) ∧
      c' = { c with held := before ++ after } := by
  rw [take?] at h
  split at h
  · cases h
  · next held heq =>
    cases h
    obtain ⟨hheld, before, after, hsplit, hbefore⟩ := List.find?_eq_some_iff_append.1 heq
    have hnone : ∀ other ∈ before, other.isDeliverable topic now = false := by
      intro other hother
      simpa using hbefore other hother
    refine ⟨before, held, after, hsplit, rfl, hheld, hnone, ?_⟩
    rw [hsplit, List.eraseP_append_right _ (by simpa using hnone), List.eraseP_cons_of_pos hheld]

theorem length_held_of_take? (h : c.take? topic now = some (m, c')) :
    c.held.length = c'.held.length + 1 := by
  obtain ⟨before, held, after, hsplit, -, -, -, rfl⟩ := take?_eq_some h
  simp [hsplit, Nat.add_assoc]

end Channel

namespace Collection

variable {c next : Collection} {settings : CollectionSettings} {topic : String} {now : Nat}
  {channel channel' : Channel}

theorem poll_more (h : c.poll settings topic now channel = (.more next, channel')) :
    ∃ m, channel.take? topic now = some (m, channel') ∧
      next = {
        batch := some ((c.batch.getD ∅).absorb m)
        received := c.received + 1
        deadline := c.windowEnd settings now } ∧
      next.received < settings.maxMessages ∧ now < next.deadline := by
  rw [poll] at h
  split at h
  · next m rest htake =>
    obtain ⟨haccept, rfl⟩ := Prod.mk.inj h
    rw [accept] at haccept
    split at haccept
    · next hopen =>
      cases haccept
      exact ⟨m, htake, rfl, hopen⟩
    · cases haccept
  · split at h <;> cases h

/-- A collection ends with the message that fills the batch or comes at the end of the window, or
without a message when its time is over. -/
theorem poll_closed {b : Option Batch}
    (h : c.poll settings topic now channel = (.closed b, channel')) :
    (∃ m, channel.take? topic now = some (m, channel') ∧
      b = some ((c.batch.getD ∅).absorb m)) ∨
    (channel.take? topic now = none ∧ channel' = channel ∧ b = c.batch ∧ c.deadline ≤ now) := by
  rw [poll] at h
  split at h
  · next m rest htake =>
    obtain ⟨haccept, rfl⟩ := Prod.mk.inj h
    rw [accept] at haccept
    split at haccept
    · cases haccept
    · cases haccept
      exact .inl ⟨m, htake, rfl⟩
  · next htake =>
    split at h
    · next hover =>
      cases h
      exact .inr ⟨htake, rfl, rfl, hover⟩
    · cases h

/-! ## When a receive wakes -/

theorem wakesAt_le_deadline (c : Collection) (topic : String) (channel : Channel) :
    c.wakesAt topic channel ≤ c.deadline := by
  rw [wakesAt]
  split
  · exact Nat.min_le_right _ _
  · exact Nat.le_refl _

theorem wakesAt_le_due (c : Collection) {held : Held} (hheld : held ∈ channel.onTopic topic) :
    c.wakesAt topic channel ≤ held.due := by
  have hmem : held.due ∈ (channel.onTopic topic).map Held.due := List.mem_map.2 ⟨held, hheld, rfl⟩
  unfold wakesAt Channel.nextDue?
  split
  · next due hnext =>
    exact Nat.le_trans (Nat.min_le_left _ _) ((List.min?_eq_some_iff.1 hnext).2 _ hmem)
  · next hnext =>
    rw [List.min?_eq_none_iff.1 hnext] at hmem
    cases hmem

/-- A receive wakes for a message that is due, or because its time is over. -/
theorem wakesAt_eq (c : Collection) (topic : String) (channel : Channel) :
    (∃ held ∈ channel.onTopic topic, c.wakesAt topic channel = held.due) ∨
      c.wakesAt topic channel = c.deadline := by
  unfold wakesAt Channel.nextDue?
  split
  · next due hnext =>
    obtain ⟨held, hheld, hdue⟩ := List.mem_map.1 (List.min?_mem hnext)
    rcases Nat.le_total due c.deadline with hle | hle
    · exact .inl ⟨held, hheld, (Nat.min_eq_left hle).trans hdue.symm⟩
    · exact .inr (Nat.min_eq_right hle)
  · exact .inr rfl

/-- A receive that can only wait wakes later. -/
theorem lt_wakesAt (htake : channel.take? topic now = none) (hnow : now < c.deadline) :
    now < c.wakesAt topic channel := by
  rcases c.wakesAt_eq topic channel with ⟨held, hheld, hwake⟩ | hwake
  · rw [hwake]
    exact Channel.lt_due_of_take?_eq_none htake hheld
  · rw [hwake]
    exact hnow

/-- When a receive wakes, there is a message for it, or its time is over. -/
theorem take?_ne_none_of_wakesAt (c : Collection) (topic : String) (channel : Channel) :
    channel.take? topic (c.wakesAt topic channel) ≠ none ∨
      c.deadline ≤ c.wakesAt topic channel := by
  rcases c.wakesAt_eq topic channel with ⟨held, hheld, hwake⟩ | hwake
  · refine .inl fun hnone => ?_
    have := Channel.lt_due_of_take?_eq_none hnone hheld
    omega
  · exact .inr (Nat.le_of_eq hwake.symm)

end Collection

end TaskRelay
