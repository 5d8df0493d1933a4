import TaskRelay.Proofs.Scenario.Collecting
import TaskRelay.Proofs.Worker.Turn

/-!
# What is lost when a receive fails

A collection that goes on after a message has that message nowhere but in the batch it is about to
give back.  Any of its receives may fail, as it begins or while it waits, and then there is no batch.
`Pickup` follows a collection through everything that may happen meanwhile, with what it has got and
what others have published, and keeps a ledger of both (`Pickup.Stands`): what a batch does not hold
and the channel holds no more is lost.

A collection that fails has lost whatever it has got.  It can have got something only if it may go on
after a message, and that is for its settings to say (`Pickup.loses_nothing_iff`).
-/

namespace TaskRelay

variable {σ : Type}

/-- The batch of what has been delivered, if anything has. -/
def Delivery.batch? : List Delivery → Option Batch
  | [] => none
  | d :: deliveries => some ((∅ : Batch).absorbAll ((d :: deliveries).map Delivery.message))

theorem Collection.batch_after (settings : CollectionSettings) (start wait : Nat)
    (deliveries : List Delivery) :
    (after settings start wait deliveries).batch = Delivery.batch? deliveries := by
  cases deliveries <;> rfl

inductive Pickup.Stage where
  | collecting (c : Collection)
  | ended (answer : Except ChannelError (Option Batch))

/-- A collection at a site where others publish and receives fail. -/
structure Pickup (σ : Type) where
  site : Site σ
  stage : Pickup.Stage
  /-- What the collection has got. -/
  taken : List Delivery := []
  /-- What others have published meanwhile. -/
  made : List Held := []

namespace Pickup

def start (p : Post) (wait : Nat) (s : Site σ) : Pickup σ :=
  match p.collect wait s with
  | (.ok c, site) => { site, stage := .collecting c }
  | (.error e, site) => { site, stage := .ended (.error e) }

/-- What may happen while a batch is collected. -/
inductive Event where
  | publish (topic : String) (m : Message) (delay : Nat)
  | pass (millis : Nat)
  /-- Makes the next receives fail as they begin. -/
  | fail (count : Nat)
  /-- The receive that has begun fails while it waits. -/
  | breakOff (e : ChannelError)
  /-- The collection goes on, unless it can only wait. -/
  | look

/-- What a receive gets if it looks for a message now. -/
def delivery? (p : Post) (s : Site σ) : Option Delivery :=
  (s.channel.take? p.topic s.now).map fun (m, _) => ⟨p.topic, m, s.now⟩

def Stage.of : Post.Collected → Stage
  | .receiving (.ok c) => .collecting c
  | .receiving (.error e) => .ended (.error e)
  | .batch b => .ended (.ok b)

def look (g : Pickup σ) (p : Post) : Pickup σ :=
  match g.stage with
  | .ended _ => g
  | .collecting c =>
    match p.poll? c g.site with
    | none => g
    | some (collected, site) =>
      { g with site, stage := .of collected, taken := g.taken ++ (delivery? p g.site).toList }

def breakOff (g : Pickup σ) (e : ChannelError) : Pickup σ :=
  match g.stage with
  | .ended _ => g
  | .collecting _ => { g with stage := .ended (.error e) }

def happen (p : Post) (g : Pickup σ) : Event → Pickup σ
  | .publish topic m delay =>
    let due := g.site.now + delay
    { g with
      site := { g.site with channel := g.site.channel.publish topic m due }
      made := g.made ++ [⟨topic, m, due⟩] }
  | .pass millis => { g with site := { g.site with now := g.site.now + millis } }
  | .fail count => { g with site := g.site.failNext .receive count }
  | .breakOff e => g.breakOff e
  | .look => g.look p

/-- A collection that begins at a site, and what happens then. -/
def replay (p : Post) (wait : Nat) (s : Site σ) (events : List Event) : Pickup σ :=
  events.foldl (happen p) (start p wait s)

/-! ## What a collection keeps -/

/-- How far a collection that has got these messages may have come. -/
def Stage.Stands (settings : CollectionSettings) (start wait : Nat) (taken : List Delivery) :
    Stage → Prop
  | .collecting c => c = .after settings start wait taken
  | .ended (.ok b) => b = Delivery.batch? taken
  | .ended (.error _) => True

def Stage.hasBatch : Stage → Bool
  | .ended (.ok _) => true
  | _ => false

/-- A collection that has begun at a site. -/
structure Stands (p : Post) (wait : Nat) (s : Site σ) (g : Pickup σ) : Prop where
  ledger : ∃ places,
    Channel.Ledger (s.channel.held ++ g.made) places g.taken g.site.channel.held
  stage : g.stage.Stands p.settings s.now wait g.taken
  /-- A collection that has got something and has no batch has gone on after a message. -/
  goesOn : g.taken ≠ [] → g.stage.hasBatch = false →
    1 < p.settings.maxMessages ∧ 0 < p.settings.window

variable {p : Post} {wait : Nat} {s : Site σ} {g : Pickup σ}

theorem stands_start (p : Post) (wait : Nat) (s : Site σ) : (start p wait s).Stands p wait s := by
  have hledger : ∃ places, Channel.Ledger (s.channel.held ++ []) places [] s.channel.held :=
    ⟨[], by simpa using Channel.Ledger.start s.channel.held⟩
  rw [start]
  split
  · next c site hcollect =>
    obtain ⟨faults, rfl⟩ := Post.site_of_receive hcollect
    exact ⟨hledger, Post.eq_of_receive_ok hcollect, nofun⟩
  · next e site hcollect =>
    obtain ⟨faults, rfl⟩ := Post.site_of_receive hcollect
    exact ⟨hledger, trivial, nofun⟩

section Look

variable {c : Collection} {t : Site σ} {collected : Post.Collected} {taken : List Delivery}

/-- A collection that goes on either has got a message, and then it may be over, may have begun
another receive or may have failed to, or it is over for lack of time. -/
theorem poll?_cases (h : p.poll? c s = some (collected, t)) :
    (∃ m channel faults, s.channel.take? p.topic s.now = some (m, channel) ∧
      t = { s with channel, faults } ∧
      let next := c.absorb p.settings s.now m
      (Stage.of collected = .ended (.ok next.batch) ∨
        next.received < p.settings.maxMessages ∧ s.now < next.deadline ∧
          (Stage.of collected = .collecting next ∨
            ∃ e, Stage.of collected = .ended (.error e)))) ∨
    (s.channel.take? p.topic s.now = none ∧ t = s ∧ Stage.of collected = .ended (.ok c.batch)) := by
  cases collected with
  | receiving r =>
    obtain ⟨next, channel, hpoll, hreceive⟩ := Post.poll?_receiving h
    obtain ⟨faults, rfl⟩ := Post.site_of_receive hreceive
    obtain ⟨m, htake, rfl, hfull, hopen⟩ := Collection.poll_more hpoll
    refine .inl ⟨m, channel, faults, htake, rfl, .inr ⟨hfull, hopen, ?_⟩⟩
    cases r with
    | ok c' => exact .inl (congrArg Stage.collecting (Post.eq_of_receive_ok hreceive))
    | error e => exact .inr ⟨e, rfl⟩
  | batch b =>
    obtain ⟨channel, hpoll, rfl⟩ := Post.poll?_batch h
    rcases Collection.poll_closed hpoll with ⟨m, htake, rfl⟩ | ⟨htake, rfl, rfl, -⟩
    · exact .inl ⟨m, channel, s.faults, htake, rfl, .inl rfl⟩
    · exact .inr ⟨htake, rfl, rfl⟩

theorem delivery?_of_some {m : Message} {channel : Channel}
    (htake : s.channel.take? p.topic s.now = some (m, channel)) :
    delivery? p s = some ⟨p.topic, m, s.now⟩ := by
  rw [delivery?, htake]
  rfl

theorem delivery?_of_none (htake : s.channel.take? p.topic s.now = none) :
    delivery? p s = none := by
  rw [delivery?, htake]
  rfl

theorem ledger_of_poll? {posts : List Held} {places : List Nat}
    (hledger : Channel.Ledger posts places taken s.channel.held)
    (h : p.poll? c s = some (collected, t)) :
    ∃ places, Channel.Ledger posts places (taken ++ (delivery? p s).toList) t.channel.held := by
  rcases poll?_cases h with ⟨m, channel, faults, htake, rfl, -⟩ | ⟨htake, rfl, -⟩
  · obtain ⟨i, hnext⟩ := hledger.take htake
    rw [delivery?_of_some htake]
    exact ⟨places ++ [i], hnext⟩
  · rw [delivery?_of_none htake, Option.toList_none, List.append_nil]
    exact ⟨places, hledger⟩

theorem stands_of_poll? {begun : Nat}
    (h : p.poll? (.after p.settings begun wait taken) s = some (collected, t)) :
    (Stage.of collected).Stands p.settings begun wait (taken ++ (delivery? p s).toList) := by
  rcases poll?_cases h with ⟨m, channel, faults, htake, rfl, hcase⟩ | ⟨htake, rfl, hended⟩
  · rw [← Collection.after_append_singleton p.settings begun wait taken ⟨p.topic, m, s.now⟩] at hcase
    rw [delivery?_of_some htake]
    rcases hcase with hended | ⟨-, -, hmore | ⟨e, herror⟩⟩
    · rw [hended]
      exact Collection.batch_after p.settings begun wait _
    · rw [hmore]
      rfl
    · rw [herror]
      trivial
  · rw [delivery?_of_none htake, Option.toList_none, List.append_nil, hended]
    exact Collection.batch_after p.settings begun wait taken

theorem goesOn_of_poll? {begun : Nat}
    (h : p.poll? (.after p.settings begun wait taken) s = some (collected, t))
    (hbatch : (Stage.of collected).hasBatch = false)
    (hwindow : taken ≠ [] → 0 < p.settings.window) :
    1 < p.settings.maxMessages ∧ 0 < p.settings.window := by
  rcases poll?_cases h with ⟨m, channel, faults, htake, rfl, hcase⟩ | ⟨-, -, hended⟩
  · rw [← Collection.after_append_singleton p.settings begun wait taken ⟨p.topic, m, s.now⟩] at hcase
    rcases hcase with hended | ⟨hfull, hopen, -⟩
    · rw [hended] at hbatch
      cases hbatch
    · rw [Collection.received_after, List.length_append, List.length_singleton] at hfull
      refine ⟨by omega, ?_⟩
      -- the first message opens the window, and the others come while it is open
      cases taken with
      | nil => exact Nat.lt_add_right_iff_pos.1 hopen
      | cons d taken => exact hwindow nofun
  · rw [hended] at hbatch
    cases hbatch

end Look

theorem Stands.look (h : g.Stands p wait s) : (g.look p).Stands p wait s := by
  obtain ⟨places, hledger⟩ := h.ledger
  unfold Pickup.look
  split
  · exact h
  next c hstage =>
  split
  · exact h
  next collected site hpoll =>
  have hc : c = .after p.settings s.now wait g.taken := by
    have hstands := h.stage
    rwa [hstage] at hstands
  subst hc
  exact ⟨ledger_of_poll? hledger hpoll, stands_of_poll? hpoll, fun _ hbatch =>
    goesOn_of_poll? hpoll hbatch fun htaken => (h.goesOn htaken (by rw [hstage]; rfl)).2⟩

theorem Stands.happen (h : g.Stands p wait s) (e : Event) : (g.happen p e).Stands p wait s := by
  cases e with
  | publish topic m delay =>
    obtain ⟨places, hledger⟩ := h.ledger
    refine ⟨⟨places, ?_⟩, h.stage, h.goesOn⟩
    have hnext := hledger.publish ⟨topic, m, g.site.now + delay⟩
    rwa [List.append_assoc] at hnext
  | pass millis => exact ⟨h.ledger, h.stage, h.goesOn⟩
  | fail count => exact ⟨h.ledger, h.stage, h.goesOn⟩
  | breakOff e =>
    unfold Pickup.happen Pickup.breakOff
    dsimp only
    split
    · exact h
    · next hstage => exact ⟨h.ledger, trivial, fun hne _ => h.goesOn hne (by rw [hstage]; rfl)⟩
  | look => exact h.look

theorem stands_replay (p : Post) (wait : Nat) (s : Site σ) (events : List Event) :
    (replay p wait s events).Stands p wait s :=
  List.foldlRecOn events _ (stands_start p wait s) fun _ h e _ => h.happen e

/-! ## What a collection that fails has lost -/

/-- A collection that may go on after its first message loses it when the next receive fails. -/
theorem loses_first (hmore : 1 < p.settings.maxMessages) (hwindow : 0 < p.settings.window)
    (hfault : s.faults .receive = 0) (hnew : s.channel.held = []) (wait : Nat) (m : Message)
    (e : ChannelError) :
    let g := replay p wait s [.publish p.topic m 0, .look, .breakOff e]
    g.stage = .ended (.error e) ∧ g.taken = [⟨p.topic, m, s.now⟩] ∧ g.site.channel.held = [] := by
  let published := s.channel.publish p.topic m s.now
  let rest : Channel := { published with held := [] }
  let next := (Collection.start s.now wait).absorb p.settings s.now m
  have htake : published.take? p.topic s.now = some (m, rest) := by
    simp [published, rest, Channel.publish, Channel.take?, hnew, Held.isDeliverable]
  have hpoll : (Collection.start s.now wait).poll p.settings p.topic s.now published =
      (.more next, rest) := by
    rw [Collection.poll, htake]
    exact congrArg (·, rest) (if_pos ⟨hmore, Nat.lt_add_of_pos_right hwindow⟩)
  have hstart : start p wait s = { site := s, stage := .collecting (.start s.now wait) } := by
    rw [start, Post.collect, Post.receive_of_no_fault hfault]
  have hpublish : (start p wait s).happen p (.publish p.topic m 0) =
      { site := { s with channel := published }, stage := .collecting (.start s.now wait)
        made := [⟨p.topic, m, s.now⟩] } := by
    rw [hstart]
    rfl
  have hlook : ((start p wait s).happen p (.publish p.topic m 0)).happen p .look =
      { site := { s with channel := rest }, stage := .collecting next
        taken := [⟨p.topic, m, s.now⟩], made := [⟨p.topic, m, s.now⟩] } := by
    rw [hpublish]
    simp only [happen, Pickup.look, delivery?, htake,
      Post.poll?_of_more (s := { s with channel := published }) hpoll hfault]
    rfl
  simp only [replay, List.foldl_cons, List.foldl_nil, hlook]
  exact ⟨rfl, rfl, rfl⟩

/-- **Which collections lose nothing, whenever their receives fail.**  A batch holds every message
that has been got for it, and the others are on the channel.  A collection that fails has got nothing
if and only if its settings never let it go on after a message. -/
theorem loses_nothing_iff (p : Post) :
    (∀ (wait : Nat) (s : Site σ) (events : List Event),
      let g := replay p wait s events
      (∃ places, Channel.Ledger (s.channel.held ++ g.made) places g.taken g.site.channel.held) ∧
        ∀ b, g.stage = .ended (.ok b) → b = Delivery.batch? g.taken) ∧
    ((∀ (wait : Nat) (s : Site σ) (events : List Event) (e : ChannelError),
      let g := replay p wait s events
      g.stage = .ended (.error e) → g.taken = []) ↔
      p.settings.maxMessages ≤ 1 ∨ p.settings.window = 0) := by
  refine ⟨fun wait s events => ?_, fun h => ?_, fun h wait s events e => ?_⟩
  · have hstands := stands_replay p wait s events
    refine ⟨hstands.ledger, fun b hended => ?_⟩
    have hstage := hstands.stage
    rwa [hended] at hstage
  · by_contra hopen
    obtain ⟨hmore, hwindow⟩ := not_or.1 hopen
    let s : Site σ := { leases := { ttl := 0 }, ids := fun _ => "", clock := .fixed 0 }
    obtain ⟨hended, htaken, -⟩ := loses_first (p := p) (s := s) (Nat.lt_of_not_le hmore)
      (Nat.pos_of_ne_zero hwindow) rfl rfl 0 Sample.message (.failed p.topic)
    have hnone := h 0 s _ _ hended
    rw [htaken] at hnone
    cases hnone
  · intro g hended
    by_contra htaken
    have hgoesOn := (stands_replay p wait s events).goesOn htaken (by rw [hended]; rfl)
    omega

/-- A message that comes when the next receive is bound to fail is taken off the channel, and then
there is no batch for it. -/
theorem message_lost_failedReceive :
    let commands := [.errand (.publish "t" Sample.message (some 10)), .later 5 (.fail .receive 1),
      .collect "t" 1000]
    let scenario : Scenario Unit := { site := Sample.site 3000 { reply := .outcome .done } }
    ((scenario.run 20 commands).map fun r => (r.answer, r.site.channel.held)) =
      [(.published (.ok ()), [⟨"t", Sample.message, 10⟩]), (.done, [⟨"t", Sample.message, 10⟩]),
        (.collected (.error (.failed "t")), [])] := by
  rfl

end Pickup

end TaskRelay
