import Mathlib.Order.Bounds.Defs
import TaskRelay.Proofs.Scenario.Publishing
import TaskRelay.Proofs.Site.Frame
import TaskRelay.Proofs.Site.Posting

/-!
# A receive is prompt

A receive wakes up whenever somebody publishes, on whatever topic, and whenever something may be due,
and looks for a message anew.  What it keeps through all that is that no message of its topic has
been left behind (`Moment.IsPrompt`): whatever it could take, now or later, it could not have taken
before now.  So the instant at which it gets one is the first at which there is one
(`Scenario.receive_prompt`).
-/

namespace TaskRelay

variable {σ : Type}

/-! ## Nothing is left behind -/

/-- The instants at which, of these messages, one on a topic can first be taken by somebody who
begins to wait at `start`. -/
def chances (everything : List Held) (topic : String) (start : Nat) : Set Nat :=
  {instant | ∃ h ∈ everything, h.topic = topic ∧ instant = max start h.due}

namespace Moment

/-- The messages on the channel and those still to be published. -/
def ahead (m : Moment) : List Held :=
  m.channel.held ++ m.rest.map Publication.held

/-- No message of a topic could have been taken before now, of those that are still ahead of somebody
who began to wait at `start`. -/
def IsPrompt (m : Moment) (topic : String) (start : Nat) : Prop :=
  ∀ h ∈ m.ahead, h.topic = topic → m.now ≤ max start h.due

variable {m : Moment} {topic : String} {start : Nat} {schedule : List Publication}

theorem ahead_publish {p : Publication} {rest : List Publication} (hrest : m.rest.Perm (p :: rest)) :
    m.ahead.Perm (m.publish p rest).ahead := by
  have hheld : (m.publish p rest).channel.held = m.channel.held ++ [p.held] := rfl
  unfold ahead
  rw [hheld, List.append_assoc]
  exact (hrest.map _).append_left _

namespace IsPrompt

theorem publish (h : m.IsPrompt topic start) {p : Publication} {rest : List Publication}
    (hrest : m.rest.Perm (p :: rest)) : (m.publish p rest).IsPrompt topic start :=
  fun g hg => h g ((ahead_publish hrest).mem_iff.2 hg)

theorem take (h : m.IsPrompt topic start) {other : String} {message : Message} {channel : Channel}
    (htake : m.channel.take? other m.now = some (message, channel)) :
    ({ m with channel } : Moment).IsPrompt topic start := by
  obtain ⟨before, held, after, hsplit, -, -, -, rfl⟩ := Channel.take?_eq_some htake
  intro g hg
  refine h g ?_
  rcases List.mem_append.1 hg with hg | hg
  · refine List.mem_append_left _ ?_
    rw [hsplit]
    exact ((List.sublist_cons_self held after).append_left before).mem hg
  · exact List.mem_append_right _ hg

/-- While nothing can be taken, time may pass until something is due. -/
theorem pass {later : Nat} (hdue : ∀ h ∈ m.channel.onTopic topic, later ≤ h.due)
    (hrest : ∀ p ∈ m.rest, later ≤ p.instant) :
    ({ m with now := later } : Moment).IsPrompt topic start := by
  intro h hh htopic
  refine Nat.le_trans ?_ (Nat.le_max_right _ _)
  rcases List.mem_append.1 hh with hh | hh
  · exact hdue h (List.mem_filter.2 ⟨hh, beq_iff_eq.2 htopic⟩)
  · obtain ⟨p, hp, rfl⟩ := List.mem_map.1 hh
    exact Nat.le_trans (hrest p hp) p.instant_le_due

end IsPrompt

/-- While nothing has been taken, all there is on a schedule is on the channel or still to be
published. -/
theorem Follows.perm_ahead (h : m.Follows schedule) {channel : Channel}
    (hchannel : m.channel = channel.publishAll m.made) :
    (channel.held ++ schedule.map Publication.held).Perm m.ahead := by
  rw [ahead, hchannel, Channel.held_publishAll, List.append_assoc, ← List.map_append]
  exact (h.perm.map _).append_left _

/-- The first message is taken at the first instant at which there is one. -/
theorem IsPrompt.isLeast (h : m.IsPrompt topic start) (hbegun : start ≤ m.now)
    (hfollows : m.Follows schedule) {channel : Channel}
    (hchannel : m.channel = channel.publishAll m.made) {held : Held}
    (hheld : held ∈ m.channel.held) (htopic : held.topic = topic) (hdue : held.due ≤ m.now) :
    IsLeast (chances (channel.held ++ schedule.map Publication.held) topic start) m.now := by
  have hperm := hfollows.perm_ahead hchannel
  have hmem : held ∈ m.ahead := List.mem_append_left _ hheld
  constructor
  · exact ⟨held, hperm.mem_iff.2 hmem, htopic,
      Nat.le_antisymm (h held hmem htopic) (Nat.max_le.2 ⟨hbegun, hdue⟩)⟩
  · rintro instant ⟨g, hg, htopic', rfl⟩
    exact h g (hperm.mem_iff.1 hg) htopic'

/-- Where nothing can be taken, everything is due later, as long as somebody publishes on the topic at
this very instant only if a message was due before. -/
theorem Follows.lt_due (h : m.Follows schedule) {channel : Channel}
    (hchannel : m.channel = channel.publishAll m.made) (hnone : m.channel.take? topic m.now = none)
    (hpublish : ∀ p ∈ schedule, p.topic = topic → p.instant = m.now →
      ∃ g ∈ channel.held ++ schedule.map Publication.held, g.topic = topic ∧ g.due < m.now) :
    ∀ g ∈ channel.held ++ schedule.map Publication.held, g.topic = topic → m.now < g.due := by
  have hperm := h.perm_ahead hchannel
  have hnotBefore : ∀ g ∈ m.ahead, g.topic = topic → m.now ≤ g.due := by
    intro g hg htopic
    rcases List.mem_append.1 hg with hheld | hrest
    · exact Nat.le_of_lt (Channel.lt_due_of_take?_eq_none hnone
        (List.mem_filter.2 ⟨hheld, beq_iff_eq.2 htopic⟩))
    · obtain ⟨p, hp, rfl⟩ := List.mem_map.1 hrest
      exact Nat.le_trans (h.future p hp) p.instant_le_due
  intro g hg htopic
  rcases List.mem_append.1 (hperm.mem_iff.1 hg) with hheld | hrest
  · exact Channel.lt_due_of_take?_eq_none hnone (List.mem_filter.2 ⟨hheld, beq_iff_eq.2 htopic⟩)
  · obtain ⟨p, hp, rfl⟩ := List.mem_map.1 hrest
    refine Nat.lt_of_lt_of_le (Nat.lt_of_le_of_ne (h.future p hp) fun hinstant => ?_)
      p.instant_le_due
    obtain ⟨g, hg, htopic', hearly⟩ :=
      hpublish p (h.perm.mem_iff.2 (List.mem_append_right _ hp)) htopic hinstant.symm
    exact Nat.not_le.2 hearly (hnotBefore g (hperm.mem_iff.1 hg) htopic')

end Moment

/-! ## Waiting for a message -/

namespace Waiting

/-- The command waits for a message on a topic, and has until a deadline. -/
structure Awaits (w : Waiting) (s : Site σ) (topic : String) (deadline : Nat) : Prop where
  idle_iff : ∀ {m : Moment} {crew : List Member}, w.move? crew (m.site s) = none ↔
    m.channel.take? topic m.now = none ∧ m.now < deadline
  wakesAt : ∀ m : Moment, w.wakesAt? (m.site s) =
    some (({ deadline } : Collection).wakesAt topic m.channel)

/-- A command that waits for a message wakes before it can miss one. -/
theorem Awaits.pass {w : Waiting} {s : Site σ} {topic : String} {deadline : Nat}
    (h : w.Awaits s topic deadline) {m : Moment} {crew : List Member}
    (hmove : w.move? crew (m.site s) = none) (start : Nat) :
    ∃ wake, w.wakesAt? (m.site s) = some wake ∧ m.now < wake ∧
      (∀ crew, w.move? crew (({ m with now := wake } : Moment).site s) ≠ none) ∧
      ∀ later, later ≤ wake → (∀ p ∈ m.rest, later ≤ p.instant) →
        later ≤ deadline ∧ ({ m with now := later } : Moment).IsPrompt topic start := by
  obtain ⟨hnone, hopen⟩ := h.idle_iff.1 hmove
  let c : Collection := { deadline }
  refine ⟨c.wakesAt topic m.channel, h.wakesAt m, Collection.lt_wakesAt hnone hopen,
    fun crew hstill => ?_, fun later hle hrest => ⟨?_, .pass (fun g hg => ?_) hrest⟩⟩
  · obtain ⟨hnone', hopen'⟩ := h.idle_iff.1 hstill
    rcases c.take?_ne_none_of_wakesAt topic m.channel with htake | hover
    · exact htake hnone'
    · exact Nat.not_le.2 hopen' hover
  · exact Nat.le_trans hle (c.wakesAt_le_deadline topic m.channel)
  · exact Nat.le_trans hle (c.wakesAt_le_due hg)

theorem move?_receiving_eq_none_iff {topic : String} {deadline : Nat} {crew : List Member}
    {s : Site σ} : (Waiting.receiving topic deadline).move? crew s = none ↔
      s.channel.take? topic s.now = none ∧ s.now < deadline := by
  simp only [move?]
  cases s.channel.take? topic s.now <;> simp

theorem awaits_receiving (s : Site σ) (topic : String) (deadline : Nat) :
    (Waiting.receiving topic deadline).Awaits s topic deadline where
  idle_iff := move?_receiving_eq_none_iff
  wakesAt := fun _ => rfl

end Waiting

/-! ## What a receive keeps -/

/-- A receive that began at `start` waits. -/
structure Receives (channel : Channel) (topic : String) (start deadline : Nat) (w : Waiting)
    (m : Moment) : Prop where
  waiting : w = .receiving topic deadline
  channel_eq : m.channel = channel.publishAll m.made
  begun : start ≤ m.now
  notLate : m.now ≤ deadline
  prompt : m.IsPrompt topic start

/-- A receive that began at `start` has its answer. -/
inductive Received (channel : Channel) (schedule : List Publication) (topic : String)
    (start deadline : Nat) : Answer → Moment → Prop
  | message {w : Waiting} {m : Moment} {message : Message} {after : Channel}
      (hreceives : Receives channel topic start deadline w m) (hfollows : m.Follows schedule)
      (htake : m.channel.take? topic m.now = some (message, after)) :
      Received channel schedule topic start deadline (.received (.ok (some message)))
        { m with channel := after }
  | none {m : Moment} (hchannel : m.channel = channel.publishAll m.made)
      (hnow : m.now = deadline) (hfollows : m.Follows schedule)
      (hnone : m.channel.take? topic m.now = .none) :
      Received channel schedule topic start deadline (.received (.ok .none)) m

theorem Receives.persists (s : Site σ) (schedule : List Publication) (channel : Channel)
    (topic : String) (start deadline : Nat) :
    Persists s schedule (Receives channel topic start deadline)
      (Received channel schedule topic start deadline) where
  move := by
    rintro w m crew r hfollows hreceives hmove
    obtain ⟨rfl, hchannel, -, hlate, -⟩ := id hreceives
    simp only [Waiting.move?] at hmove
    split at hmove
    · next message after htake =>
      cases hmove
      exact ⟨after, rfl, .message hreceives hfollows htake⟩
    · next hnone =>
      split at hmove
      · next hover =>
        cases hmove
        exact ⟨m.channel, rfl, .none hchannel (Nat.le_antisymm hlate hover) hfollows hnone⟩
      · cases hmove
  publish := by
    rintro w m p rest ⟨rfl, hchannel, hbegun, hlate, hprompt⟩ hrest -
    refine ⟨rfl, ?_, hbegun, hlate, hprompt.publish hrest⟩
    rw [Moment.publish, Channel.publishAll_append_singleton, ← hchannel]
  pass := by
    rintro w m crew ⟨rfl, hchannel, hbegun, -, -⟩ hmove
    obtain ⟨wake, hwakes, hwake, hawake, hpass⟩ :=
      (Waiting.awaits_receiving s topic deadline).pass hmove start
    refine ⟨wake, hwakes, hwake, hawake, fun later hlt hle hrest => ?_⟩
    obtain ⟨hlate, hprompt⟩ := hpass later hle hrest
    exact ⟨rfl, hchannel, Nat.le_trans hbegun (Nat.le_of_lt hlt), hlate, hprompt⟩

/-- What a receive takes is the first message that can be taken at all, and the first in the order
of publication that can be taken then. -/
theorem Receives.take {channel : Channel} {schedule : List Publication} {topic : String}
    {start deadline : Nat} {w : Waiting} {m : Moment} {message : Message} {rest : Channel}
    (h : Receives channel topic start deadline w m) (hfollows : m.Follows schedule)
    (htake : m.channel.take? topic m.now = some (message, rest)) :
    IsLeast (chances (channel.held ++ schedule.map Publication.held) topic start) m.now ∧
    m.now ≤ deadline ∧
    ∃ before g after, channel.held ++ m.made.map Publication.held = before ++ g :: after ∧
      message = g.message ∧ g.topic = topic ∧ g.due ≤ m.now ∧
      (∀ g' ∈ before, g'.topic = topic → m.now < g'.due) ∧
      rest = { channel.publishAll m.made with held := before ++ after } := by
  obtain ⟨before, g, after, hsplit, rfl, hdeliverable, hbefore, rfl⟩ := Channel.take?_eq_some htake
  obtain ⟨htopic, hdue⟩ := Held.isDeliverable_iff.1 hdeliverable
  have hheld : g ∈ m.channel.held := by
    rw [hsplit]
    simp
  refine ⟨h.prompt.isLeast h.begun hfollows h.channel_eq hheld htopic hdue, h.notLate,
    before, g, after, ?_, rfl, htopic, hdue, fun g' hg' htopic' => ?_, ?_⟩
  · rw [← Channel.held_publishAll, ← h.channel_eq, hsplit]
  · exact Held.isDeliverable_eq_false_iff.1 (hbefore g' hg') htopic'
  · rw [h.channel_eq]

namespace Scenario

/-- **A receive is prompt.**  If a message of its topic that is held at the beginning or published
meanwhile can be taken by the deadline, the receive returns at the first instant at which one can,
with the one that was published first among those that can be taken then.  Otherwise it returns at
the deadline without a message, and the channel is as the others have left it. -/
theorem receive_prompt {c : Scenario σ} (hs : c.site.IsReliable) {schedule : List Publication}
    (hcrew : Publishers c.crew schedule) (topic : String) (timeout : Nat)
    (hschedule : ∀ p ∈ schedule, c.site.now ≤ p.instant ∧ p.instant ≠ c.site.now + timeout)
    {fuel : Nat} (hfuel : 4 * schedule.length + 2 * c.site.channel.held.length + 2 ≤ fuel) :
    let deadline := c.site.now + timeout
    let all := c.site.channel.held ++ schedule.map Publication.held
    ∃ answer m c', c.command fuel (.receive topic timeout) = (.received (.ok answer), c') ∧
      c'.IsAt c.site schedule m ∧
      ((∃ h ∈ all, h.topic = topic ∧ h.due ≤ deadline) →
        IsLeast (chances all topic c.site.now) m.now ∧
        ∃ before h after, c.site.channel.held ++ m.made.map Publication.held =
            before ++ h :: after ∧
          answer = some h.message ∧ h.topic = topic ∧ h.due ≤ m.now ∧
          (∀ g ∈ before, g.topic = topic → m.now < g.due) ∧
          m.channel = { c.site.channel.publishAll m.made with held := before ++ after }) ∧
      ((∀ h ∈ all, h.topic = topic → deadline < h.due) →
        answer = none ∧ m.now = deadline ∧ m.channel = c.site.channel.publishAll m.made) := by
  intro deadline all
  let start : Moment := { now := c.site.now, channel := c.site.channel, rest := schedule }
  have hat : c.IsAt c.site schedule start := .start hcrew fun p hp => (hschedule p hp).1
  have hinv : Receives c.site.channel topic c.site.now deadline (.receiving topic deadline) start :=
    ⟨rfl, rfl, Nat.le_refl _, Nat.le_add_right _ _, fun _ _ _ => Nat.le_max_left _ _⟩
  obtain ⟨answer, m, c', hwait, hat', hover⟩ :=
    (Receives.persists c.site schedule c.site.channel topic c.site.now deadline).wait hs hat hinv hfuel
  have hcommand : c.command fuel (.receive topic timeout) = (answer, c') := by
    simp only [command, Site.beginReceive_of_no_fault (hs .receive)]
    exact hwait
  cases hover with
  | message hreceives hfollows htake =>
    obtain ⟨hleast, hlate, before, h, after, hsplit, rfl, htopic, hdue, hfirst, rfl⟩ :=
      hreceives.take hfollows htake
    refine ⟨_, _, c', hcommand, hat', fun _ => ⟨hleast, before, h, after, hsplit, rfl, htopic,
      hdue, hfirst, rfl⟩, fun hnot => ?_⟩
    obtain ⟨g, hg, htopic', hinstant⟩ := hleast.1
    have hlater := hnot g hg htopic'
    omega
  | none hchannel hnow hfollows hnone =>
    have hnot := hfollows.lt_due hchannel hnone fun p hp _ hinstant =>
      absurd (hinstant.trans hnow) (hschedule p hp).2
    rw [hnow] at hnot
    refine ⟨_, m, c', hcommand, hat', fun hsome => ?_, fun _ => ⟨rfl, hnow, hchannel⟩⟩
    obtain ⟨h, hmem, htopic, hdue⟩ := hsome
    exact absurd hdue (Nat.not_le.2 (hnot h hmem htopic))

/-- A message that is due late, one on another topic, and one that is due before the first. -/
def arrivals : List Publication :=
  [{ instant := 4, topic := "t", message := { payload := "late" }, delay := some 20 },
    { instant := 2, topic := "u", message := { payload := "elsewhere" } },
    { instant := 6, topic := "t", message := { payload := "soon" }, delay := some 4 }]

def awaiting : Scenario Unit :=
  { site := Sample.site 10 { reply := .outcome .done }, crew := arrivals.map Publication.member }

/-- The receive wakes three times for what it cannot take, and gets the message that overtakes the
others as soon as it is due. -/
theorem receive_prompt_arrivals :
    (awaiting.site.IsReliable ∧ Publishers awaiting.crew arrivals ∧
      (∀ p ∈ arrivals, awaiting.site.now ≤ p.instant ∧ p.instant ≠ awaiting.site.now + 10) ∧
      4 * arrivals.length + 2 * awaiting.site.channel.held.length + 2 ≤ 14) ∧
    ∃ m c', awaiting.command 14 (.receive "t" 10) =
        (.received (.ok (some { payload := "soon" })), c') ∧
      c'.IsAt awaiting.site arrivals m ∧ m.now = 10 := by
  have hs : awaiting.site.IsReliable := fun _ => rfl
  have hcrew : Publishers awaiting.crew arrivals := publishers_members arrivals
  have hschedule : ∀ p ∈ arrivals, awaiting.site.now ≤ p.instant ∧
      p.instant ≠ awaiting.site.now + 10 := by decide
  have hfuel : 4 * arrivals.length + 2 * awaiting.site.channel.held.length + 2 ≤ 14 := by decide
  refine ⟨⟨hs, hcrew, hschedule, hfuel⟩, ?_⟩
  obtain ⟨answer, m, c', hcommand, hat, hsome, -⟩ :=
    receive_prompt hs hcrew "t" 10 hschedule hfuel
  obtain ⟨⟨⟨g, hg, hgtopic, hnow⟩, hleast⟩, before, h, after, hsplit, rfl, htopic, hdue, -, -⟩ :=
    hsome (by decide)
  have hsoon : ∀ g ∈ awaiting.site.channel.held ++ arrivals.map Publication.held, g.topic = "t" →
      10 ≤ g.due ∧ (g.due ≤ 10 → g.message = { payload := "soon" }) := by decide
  have hm : m.now = 10 := by
    refine Nat.le_antisymm (hleast ⟨⟨"t", { payload := "soon" }, 10⟩, by decide, rfl, rfl⟩) ?_
    rw [hnow]
    exact Nat.le_trans (hsoon g hg hgtopic).1 (Nat.le_max_right _ _)
  have hmem : h ∈ awaiting.site.channel.held ++ arrivals.map Publication.held := by
    have hmade : h ∈ m.made.map Publication.held := by
      have hall : h ∈ awaiting.site.channel.held ++ m.made.map Publication.held := by
        rw [hsplit]
        simp
      exact hall
    obtain ⟨p, hp, rfl⟩ := List.mem_map.1 hmade
    exact List.mem_map.2 ⟨p, hat.follows.perm.mem_iff.2 (List.mem_append_left _ hp), rfl⟩
  rw [(hsoon h hmem htopic).2 (hm ▸ hdue)] at hcommand
  exact ⟨m, c', hcommand, hat, hm⟩

end Scenario

end TaskRelay
