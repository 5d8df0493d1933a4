import TaskRelay.Proofs.Batch
import TaskRelay.Proofs.Channel.Ledger
import TaskRelay.Proofs.Scenario.Receiving

/-!
# The window of a batch

A collection takes one message after the other off the channel while others go on publishing, until
the batch is full or its window is over.  How far it has come can be read off the messages it has got
(`Collection.after`), and what it has got is entered in a ledger of everything that was on the channel
or has been published since (`Gathers`).  `Scenario.collect_window` says what has become of it all
when the collection is over.
-/

namespace TaskRelay

variable {σ : Type}

/-! ## How far a collection has come -/

namespace Collection

/-- The collection with one more message, which has come at an instant. -/
def absorb (c : Collection) (settings : CollectionSettings) (now : Nat) (m : Message) :
    Collection :=
  { batch := some ((c.batch.getD ∅).absorb m)
    received := c.received + 1
    deadline := c.windowEnd settings now }

/-- A collection that began at `start` and has got these messages. -/
def after (settings : CollectionSettings) (start wait : Nat) : List Delivery → Collection
  | [] => .start start wait
  | first :: more =>
    { batch := some ((∅ : Batch).absorbAll ((first :: more).map Delivery.message))
      received := more.length + 1
      deadline := first.instant + settings.window }

variable (settings : CollectionSettings) (start wait : Nat)

theorem after_append_singleton (deliveries : List Delivery) (d : Delivery) :
    after settings start wait (deliveries ++ [d]) =
      (after settings start wait deliveries).absorb settings d.instant d.message := by
  cases deliveries with
  | nil => rfl
  | cons first more =>
    simp only [List.cons_append, after, absorb, windowEnd, List.length_append, List.length_singleton,
      Option.getD_some, Batch.absorbAll, List.map_cons, List.map_append, List.foldl_append,
      List.foldl_cons, List.map_nil, List.foldl_nil]

theorem received_after (deliveries : List Delivery) :
    (after settings start wait deliveries).received = deliveries.length := by
  cases deliveries <;> rfl

/-- The window is measured from the first message; the others do not move its end. -/
theorem le_deadline_append_singleton {deliveries : List Delivery} {d : Delivery}
    (h : d.instant ≤ (after settings start wait deliveries).deadline) :
    d.instant ≤ (after settings start wait (deliveries ++ [d])).deadline := by
  cases deliveries with
  | nil => exact Nat.le_add_right _ _
  | cons first more => exact h

end Collection

namespace Waiting

variable {p : Post} {c : Collection} {crew : List Member} {s : Site σ}

/-- A collection that has got a message goes on, unless it is full or its window is over. -/
theorem move?_collecting_of_some (hs : s.IsReliable) {m : Message} {channel : Channel}
    (htake : s.channel.take? p.topic s.now = some (m, channel)) :
    let next := c.absorb p.settings s.now m
    (Waiting.collecting p c).move? crew s =
      some (if next.received < p.settings.maxMessages ∧ s.now < next.deadline then
          .inl (.collecting p next)
        else .inr (.collected (.ok next.batch)), { s with channel }) := by
  intro next
  have hpoll : c.poll p.settings p.topic s.now s.channel =
      (c.accept p.settings s.now m, channel) := by
    rw [Collection.poll, htake]
  by_cases hopen : next.received < p.settings.maxMessages ∧ s.now < next.deadline
  · have hmore : c.accept p.settings s.now m = .more next := if_pos hopen
    rw [hmore] at hpoll
    rw [if_pos hopen, move?, Post.poll?_of_more hpoll (hs .receive)]
  · have hclosed : c.accept p.settings s.now m = .closed next.batch := if_neg hopen
    rw [hclosed] at hpoll
    rw [if_neg hopen, move?, Post.poll?_of_closed hpoll]

theorem move?_collecting_of_none (htake : s.channel.take? p.topic s.now = none) :
    (Waiting.collecting p c).move? crew s =
      if c.deadline ≤ s.now then some (.inr (.collected (.ok c.batch)), s) else none := by
  have hpoll : c.poll p.settings p.topic s.now s.channel =
      (if c.deadline ≤ s.now then .closed c.batch else .waiting, s.channel) := by
    rw [Collection.poll, htake]
  by_cases hover : c.deadline ≤ s.now
  · rw [if_pos hover] at hpoll ⊢
    rw [move?, Post.poll?_of_closed hpoll]
  · rw [if_neg hover] at hpoll ⊢
    rw [move?, Post.poll?, hpoll]

theorem awaits_collecting (hs : s.IsReliable) (p : Post) (c : Collection) :
    (Waiting.collecting p c).Awaits s p.topic c.deadline where
  idle_iff := by
    intro m crew
    cases htake : m.channel.take? p.topic m.now with
    | some taken =>
      rw [move?_collecting_of_some (s := m.site s) hs htake]
      simp
    | none =>
      rw [move?_collecting_of_none (s := m.site s) htake]
      have hnow : (m.site s).now = m.now := rfl
      simp [hnow]
  wakesAt := fun _ => rfl

end Waiting

/-! ## What a collection keeps -/

/-- A collection that began at `start`, with time for the first message until `limit`, has got these
messages so far, of those on the channel and those in the schedule. -/
structure Gathers (channel : Channel) (schedule : List Publication) (topic : String)
    (start limit : Nat) (places : List Nat) (deliveries : List Delivery) (m : Moment) : Prop where
  ledger : Channel.Ledger (channel.held ++ m.made.map Publication.held) places deliveries
    m.channel.held
  topic_eq : ∀ d ∈ deliveries, d.topic = topic
  inOrder : deliveries.Pairwise (·.instant ≤ ·.instant)
  past : ∀ d ∈ deliveries, d.instant ≤ m.now
  /-- The first message has been taken as soon as there was any. -/
  earliest : ∀ d ∈ deliveries.head?,
    IsLeast (chances (channel.held ++ schedule.map Publication.held) topic start) d.instant
  inTime : ∀ d ∈ deliveries.head?, d.instant ≤ limit
  untouched : deliveries = [] → m.channel = channel.publishAll m.made
  begun : start ≤ m.now
  prompt : m.IsPrompt topic start

namespace Gathers

variable {channel : Channel} {schedule : List Publication} {topic : String} {start limit : Nat}
  {places : List Nat} {deliveries : List Delivery} {m : Moment}

theorem start_nil (channel : Channel) (schedule : List Publication) (topic : String)
    (now limit : Nat) : Gathers channel schedule topic now limit [] [] { now, channel, rest := schedule } where
  ledger := by
    rw [List.map_nil, List.append_nil]
    exact .start channel.held
  topic_eq := nofun
  inOrder := .nil
  past := nofun
  earliest := nofun
  inTime := nofun
  untouched := fun _ => rfl
  begun := Nat.le_refl _
  prompt := fun _ _ _ => Nat.le_max_left _ _

theorem publish (h : Gathers channel schedule topic start limit places deliveries m) {p : Publication}
    {rest : List Publication} (hrest : m.rest.Perm (p :: rest)) :
    Gathers channel schedule topic start limit places deliveries (m.publish p rest) where
  ledger := by
    have hposts : channel.held ++ (m.publish p rest).made.map Publication.held =
        channel.held ++ m.made.map Publication.held ++ [p.held] := by
      rw [Moment.publish, List.map_append, List.append_assoc]
      rfl
    rw [hposts]
    exact h.ledger.publish p.held
  topic_eq := h.topic_eq
  inOrder := h.inOrder
  past := h.past
  earliest := h.earliest
  inTime := h.inTime
  untouched := fun hnil => by
    rw [Moment.publish, Channel.publishAll_append_singleton, ← h.untouched hnil]
  begun := h.begun
  prompt := h.prompt.publish hrest

theorem pass (h : Gathers channel schedule topic start limit places deliveries m) {later : Nat}
    (hlater : m.now ≤ later) (hprompt : ({ m with now := later } : Moment).IsPrompt topic start) :
    Gathers channel schedule topic start limit places deliveries { m with now := later } where
  ledger := h.ledger
  topic_eq := h.topic_eq
  inOrder := h.inOrder
  past := fun d hd => Nat.le_trans (h.past d hd) hlater
  earliest := h.earliest
  inTime := h.inTime
  untouched := h.untouched
  begun := Nat.le_trans h.begun hlater
  prompt := hprompt

theorem take (h : Gathers channel schedule topic start limit places deliveries m)
    (hfollows : m.Follows schedule) (hlimit : deliveries = [] → m.now ≤ limit)
    {message : Message} {after : Channel} (htake : m.channel.take? topic m.now = some (message, after)) :
    ∃ i, Gathers channel schedule topic start limit (places ++ [i])
      (deliveries ++ [⟨topic, message, m.now⟩]) { m with channel := after } := by
  obtain ⟨i, hledger⟩ := h.ledger.take htake
  refine ⟨i, hledger, ?_, ?_, ?_, ?_, ?_, ?_, h.begun, h.prompt.take htake⟩
  · intro d hd
    rcases List.mem_append.1 hd with hd | hd
    · exact h.topic_eq d hd
    · rw [List.mem_singleton.1 hd]
  · refine List.pairwise_append.2 ⟨h.inOrder, List.pairwise_singleton _ _, fun d hd d' hd' => ?_⟩
    rw [List.mem_singleton.1 hd']
    exact h.past d hd
  · intro d hd
    rcases List.mem_append.1 hd with hd | hd
    · exact h.past d hd
    · obtain rfl := List.mem_singleton.1 hd
      exact Nat.le_refl m.now
  · cases deliveries with
    | cons first more => exact h.earliest
    | nil =>
      intro d hd
      cases hd
      obtain ⟨before, held, behind, hsplit, -, hdeliverable, -, -⟩ := Channel.take?_eq_some htake
      obtain ⟨htopic, hdue⟩ := Held.isDeliverable_iff.1 hdeliverable
      have hheld : held ∈ m.channel.held := by
        rw [hsplit]
        simp
      exact h.prompt.isLeast h.begun hfollows (h.untouched rfl) hheld htopic hdue
  · cases deliveries with
    | cons first more => exact h.inTime
    | nil =>
      intro d hd
      cases hd
      exact hlimit rfl
  · intro hnil
    cases deliveries <;> cases hnil

end Gathers

section Collects

variable (p : Post) (channel : Channel) (schedule : List Publication) (start wait : Nat)

/-- A collection that began at `start` waits for another message. -/
def Collects (w : Waiting) (m : Moment) : Prop :=
  ∃ places deliveries, Gathers channel schedule p.topic start (start + wait) places deliveries m ∧
    w = .collecting p (.after p.settings start wait deliveries) ∧
    m.now ≤ (Collection.after p.settings start wait deliveries).deadline ∧
    deliveries.length < max 1 p.settings.maxMessages

/-- A collection that began at `start` is over. -/
def Collected (answer : Answer) (m : Moment) : Prop :=
  ∃ places deliveries, Gathers channel schedule p.topic start (start + wait) places deliveries m ∧
    answer = .collected (.ok (Collection.after p.settings start wait deliveries).batch) ∧
    m.now ≤ (Collection.after p.settings start wait deliveries).deadline ∧
    deliveries.length ≤ max 1 p.settings.maxMessages ∧
    (deliveries.length < max 1 p.settings.maxMessages →
      m.now = (Collection.after p.settings start wait deliveries).deadline) ∧
    (deliveries = [] → m.channel.take? p.topic m.now = none)

/-- A collection that has got these messages, and gets another. -/
theorem Waiting.move?_collecting_after {s : Site σ} (hs : s.IsReliable) {m : Moment}
    {crew : List Member} {message : Message} {rest : Channel}
    (htake : m.channel.take? p.topic m.now = some (message, rest)) (deliveries : List Delivery) :
    let next := Collection.after p.settings start wait
      (deliveries ++ [⟨p.topic, message, m.now⟩])
    (Waiting.collecting p (.after p.settings start wait deliveries)).move? crew (m.site s) =
      some (if deliveries.length + 1 < p.settings.maxMessages ∧ m.now < next.deadline then
          .inl (.collecting p next)
        else .inr (.collected (.ok next.batch)), ({ m with channel := rest } : Moment).site s) := by
  intro next
  have hnext : next = _ := Collection.after_append_singleton p.settings start wait deliveries _
  have hreceived : next.received = deliveries.length + 1 := by
    rw [Collection.received_after, List.length_append, List.length_singleton]
  rw [Waiting.move?_collecting_of_some (s := m.site s) hs htake, ← hreceived, hnext]
  rfl

theorem Collects.persists {s : Site σ} (hs : s.IsReliable) :
    Persists s schedule (Collects p channel schedule start wait)
      (Collected p channel schedule start wait) where
  move := by
    rintro w m crew r hfollows ⟨places, deliveries, hgathers, rfl, hlate, hsize⟩ hmove
    cases htake : m.channel.take? p.topic m.now with
    | some taken =>
      obtain ⟨message, rest⟩ := taken
      rw [Waiting.move?_collecting_after p start wait hs htake] at hmove
      obtain ⟨i, hgathers'⟩ := hgathers.take hfollows (fun hnil => by rwa [hnil] at hlate) htake
      let d : Delivery := ⟨p.topic, message, m.now⟩
      have hlength : (deliveries ++ [d]).length = deliveries.length + 1 := List.length_append
      have hlate' := Collection.le_deadline_append_singleton p.settings start wait (d := d) hlate
      by_cases hopen : deliveries.length + 1 < p.settings.maxMessages ∧
          m.now < (Collection.after p.settings start wait (deliveries ++ [d])).deadline
      · rw [if_pos hopen] at hmove
        cases hmove
        refine ⟨rest, rfl, ?_, places ++ [i], deliveries ++ [d], hgathers', rfl, hlate', ?_⟩
        · rw [Channel.length_held_of_take? htake]
          exact Nat.lt_succ_self _
        · omega
      · rw [if_neg hopen] at hmove
        cases hmove
        refine ⟨rest, rfl, places ++ [i], deliveries ++ [d], hgathers', rfl, hlate', by omega,
          fun hnotFull => ?_, fun hnil => ?_⟩
        · -- a batch of this size stays open until its window is over
          have hroom : deliveries.length + 1 < p.settings.maxMessages := by omega
          exact Nat.le_antisymm hlate' (Nat.le_of_not_lt fun hbefore => hopen ⟨hroom, hbefore⟩)
        · rw [hnil] at hlength
          cases hlength
    | none =>
      rw [Waiting.move?_collecting_of_none (s := m.site s) htake] at hmove
      split at hmove
      · next hover =>
        cases hmove
        exact ⟨m.channel, rfl, places, deliveries, hgathers, rfl, hlate, Nat.le_of_lt hsize,
          fun _ => Nat.le_antisymm hlate hover, fun _ => htake⟩
      · cases hmove
  publish := by
    rintro w m p rest ⟨places, deliveries, hgathers, hw, hlate, hsize⟩ hrest -
    exact ⟨places, deliveries, hgathers.publish hrest, hw, hlate, hsize⟩
  pass := by
    rintro w m crew ⟨places, deliveries, hgathers, rfl, hlate, hsize⟩ hmove
    obtain ⟨wake, hwakes, hwake, hawake, hpass⟩ :=
      (Waiting.awaits_collecting hs p _).pass hmove start
    refine ⟨wake, hwakes, hwake, hawake, fun later hlt hle hrest => ?_⟩
    obtain ⟨hlate', hprompt⟩ := hpass later hle hrest
    exact ⟨places, deliveries, hgathers.pass (Nat.le_of_lt hlt) hprompt, rfl, hlate', hsize⟩

end Collects

/-! ## What a collection comes to -/

theorem Batch.size_absorbAll (messages : List Message) :
    ((∅ : Batch).absorbAll messages).messages + ((∅ : Batch).absorbAll messages).rejected =
      messages.length := by
  rw [messages_absorbAll, rejected_absorbAll, List.length_eq_countP_add_countP Message.holdsTasks]
  have hmessages : (∅ : Batch).messages = 0 := rfl
  have hrejected : (∅ : Batch).rejected = 0 := rfl
  simp only [hmessages, hrejected, Nat.zero_add, Bool.not_eq_true, Bool.decide_eq_false]

namespace Scenario

/-- **A collection takes in what there is, until its batch is full or its window is over.**  It comes
to nothing, at the end of the wait, if and only if no message of the topic can be taken by then.
Otherwise its batch is made of the messages that it has got, one after the other, the first one as
soon as there was any, and all others are still on the channel, in their order.  A batch that is not
full is closed when the window is over, and nothing is left that could have been taken before.

At the very end of the wait somebody may publish on the topic only if the wait is over by then. -/
theorem collect_window {c : Scenario σ} (hs : c.site.IsReliable) {schedule : List Publication}
    (hcrew : Publishers c.crew schedule) (topic : String) (wait : Nat)
    (hwindow : 0 < c.settings.window) (hschedule : ∀ p ∈ schedule, c.site.now ≤ p.instant)
    (hpublish : ∀ p ∈ schedule, p.topic = topic → p.instant = c.site.now + wait →
      ∃ h ∈ c.site.channel.held ++ schedule.map Publication.held,
        h.topic = topic ∧ h.due < c.site.now + wait)
    {fuel : Nat} (hfuel : 4 * schedule.length + 2 * c.site.channel.held.length + 2 ≤ fuel) :
    let all := c.site.channel.held ++ schedule.map Publication.held
    let size := max 1 c.settings.maxMessages
    ∃ result m c', c.command fuel (.collect topic wait) = (.collected (.ok result), c') ∧
      c'.IsAt c.site schedule m ∧
      (result = none ↔ ∀ h ∈ all, h.topic = topic → c.site.now + wait < h.due) ∧
      (result = none → m.now = c.site.now + wait ∧
        m.channel = c.site.channel.publishAll m.made) ∧
      ∀ b, result = some b → ∃ places first more,
        Gathers c.site.channel schedule topic c.site.now (c.site.now + wait) places
          (first :: more) m ∧
        b = (∅ : Batch).absorbAll ((first :: more).map Delivery.message) ∧
        b.messages + b.rejected = (first :: more).length ∧
        b.messages + b.rejected ≤ size ∧
        m.now ≤ first.instant + c.settings.window ∧
        (b.messages + b.rejected < size → m.now = first.instant + c.settings.window ∧
          ∀ h ∈ m.channel.held, h.topic = topic → first.instant + c.settings.window ≤ h.due) := by
  intro all size
  let p : Post := { engine := 0, topic, holder := "", settings := c.settings }
  let start : Moment := { now := c.site.now, channel := c.site.channel, rest := schedule }
  have hat : c.IsAt c.site schedule start := .start hcrew hschedule
  have hinv : Collects p c.site.channel schedule c.site.now wait
      (.collecting p (.start c.site.now wait)) start :=
    ⟨[], [], .start_nil c.site.channel schedule topic c.site.now _, rfl, Nat.le_add_right _ _,
      by simp only [List.length_nil]; omega⟩
  obtain ⟨answer, m, c', hwait, hat', places, deliveries, hgathers, rfl, hlate, hsize, hopen, hnone⟩ :=
    (Collects.persists p c.site.channel schedule c.site.now wait hs).wait hs hat hinv hfuel
  have hcommand : c.command fuel (.collect topic wait) =
      (.collected (.ok (Collection.after p.settings c.site.now wait deliveries).batch), c') := by
    simp only [command, Post.collect, Post.receive_of_no_fault (hs .receive)]
    exact hwait
  cases deliveries with
  | nil =>
    have hnow : m.now = c.site.now + wait := hopen (by simp only [List.length_nil]; omega)
    have hchannel := hgathers.untouched rfl
    have hmissed := hat'.follows.lt_due hchannel (hnone rfl)
      (by rw [hnow]; exact hpublish)
    rw [hnow] at hmissed
    refine ⟨none, m, c', hcommand, hat', iff_of_true rfl hmissed, fun _ => ⟨hnow, hchannel⟩, ?_⟩
    intro b hb
    cases hb
  | cons first more =>
    have hsome : (Collection.after p.settings c.site.now wait (first :: more)).batch ≠ none :=
      Option.some_ne_none _
    refine ⟨_, m, c', hcommand, hat', iff_of_false hsome fun hnever => ?_,
      fun hnone => absurd hnone hsome, fun b hb => ?_⟩
    · obtain ⟨⟨h, hmem, htopic, hinstant⟩, -⟩ := hgathers.earliest first rfl
      have hlimit := hgathers.inTime first rfl
      have hdue := hnever h hmem htopic
      omega
    · cases hb
      have hcount := Batch.size_absorbAll ((first :: more).map Delivery.message)
      rw [List.length_map] at hcount
      refine ⟨places, first, more, hgathers, rfl, hcount, ?_, hlate, fun hnotFull => ?_⟩
      · rw [hcount]
        exact hsize
      · rw [hcount] at hnotFull
        have hnow : m.now = first.instant + c.settings.window := hopen hnotFull
        refine ⟨hnow, fun h hh htopic => ?_⟩
        obtain ⟨⟨g, -, -, hinstant⟩, -⟩ := hgathers.earliest first rfl
        have hprompt := hgathers.prompt h (List.mem_append_left _ hh) htopic
        omega

/-- A message that opens a window, one on another topic, one that is due when the window is over, and
one that is due later. -/
def stragglers : List Publication :=
  [{ instant := 2, topic := "t", message := Sample.noise },
    { instant := 3, topic := "u", message := Sample.noise },
    { instant := 4, topic := "t", message := Sample.noise, delay := some 3 },
    { instant := 5, topic := "t", message := Sample.noise, delay := some 20 }]

def gathering : Scenario Unit :=
  { site := Sample.site 10 { reply := .outcome .done }
    settings := { maxMessages := 3, window := 5 }
    crew := stragglers.map Publication.member }

/-- The window opens at 2 and is over at 7, and the message that is due then is still taken in. -/
theorem collect_window_stragglers :
    (gathering.site.IsReliable ∧ Publishers gathering.crew stragglers ∧
      0 < gathering.settings.window ∧ (∀ p ∈ stragglers, gathering.site.now ≤ p.instant) ∧
      (∀ p ∈ stragglers, p.topic = "t" → p.instant = gathering.site.now + 3 →
        ∃ h ∈ gathering.site.channel.held ++ stragglers.map Publication.held,
          h.topic = "t" ∧ h.due < gathering.site.now + 3) ∧
      4 * stragglers.length + 2 * gathering.site.channel.held.length + 2 ≤ 18) ∧
    ∃ b m c' places first more, gathering.command 18 (.collect "t" 3) =
        (.collected (.ok (some b)), c') ∧ c'.IsAt gathering.site stragglers m ∧
      Gathers gathering.site.channel stragglers "t" 0 3 places (first :: more) m ∧
      b.messages + b.rejected = 2 ∧ first.instant = 2 ∧ m.now = 7 := by
  have hs : gathering.site.IsReliable := fun _ => rfl
  have hcrew : Publishers gathering.crew stragglers := publishers_members stragglers
  have hwindow : 0 < gathering.settings.window := by decide
  have hschedule : ∀ p ∈ stragglers, gathering.site.now ≤ p.instant := by decide
  have hpublish : ∀ p ∈ stragglers, p.topic = "t" → p.instant = gathering.site.now + 3 →
      ∃ h ∈ gathering.site.channel.held ++ stragglers.map Publication.held,
        h.topic = "t" ∧ h.due < gathering.site.now + 3 := by decide
  have hfuel : 4 * stragglers.length + 2 * gathering.site.channel.held.length + 2 ≤ 18 := by decide
  refine ⟨⟨hs, hcrew, hwindow, hschedule, hpublish, hfuel⟩, ?_⟩
  obtain ⟨result, m, c', hcommand, hat, -, -, hbatch⟩ :=
    collect_window hs hcrew "t" 3 hwindow hschedule hpublish hfuel
  have hanswer : (gathering.command 18 (.collect "t" 3)).1 =
      .collected (.ok (some { rejected := 2 })) := rfl
  rw [hcommand] at hanswer
  cases hanswer
  obtain ⟨places, first, more, hgathers, -, -, -, -, hclosed⟩ := hbatch _ rfl
  obtain ⟨hnow, -⟩ := hclosed (by decide)
  obtain ⟨⟨g, hg, htopic, hinstant⟩, hleast⟩ := hgathers.earliest first rfl
  have hfirst : first.instant = 2 := by
    have hdue : ∀ g ∈ gathering.site.channel.held ++ stragglers.map Publication.held,
        g.topic = "t" → 2 ≤ g.due := by decide
    refine Nat.le_antisymm (hleast ⟨⟨"t", Sample.noise, 2⟩, by decide, rfl, rfl⟩) ?_
    rw [hinstant]
    exact Nat.le_trans (hdue g hg htopic) (Nat.le_max_right _ _)
  rw [hfirst] at hnow
  exact ⟨_, m, c', places, first, more, hcommand, hat, hgathers, rfl, hfirst, hnow⟩

end Scenario

end TaskRelay
