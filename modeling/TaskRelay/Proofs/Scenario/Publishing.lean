import TaskRelay.Proofs.Run.Rounds
import TaskRelay.Scenario

/-!
# Waiting while others publish

A command waits, and people in the background publish messages, each at an instant of their own.
Nothing else happens, so the wait is an alternation of three steps: the command looks for what it
waits for, somebody publishes, or time goes on to the next instant at which one of them can do
something.  `Persists` says what such a wait keeps, step by step, and `Persists.wait` that it comes
to an end with enough fuel, and what holds then.
-/

namespace TaskRelay

variable {σ : Type}

/-! ## What others publish -/

/-- A message that somebody publishes at an instant. -/
structure Publication where
  instant : Nat
  topic : String
  message : Message
  delay : Option Nat := none
deriving DecidableEq, Repr

namespace Publication

/-- The message as the channel holds it. -/
def held (p : Publication) : Held :=
  { topic := p.topic, message := p.message, due := p.instant + p.delay.getD 0 }

/-- Somebody in the background who is going to publish the message. -/
def member (p : Publication) : Member :=
  .errand p.instant (.publish p.topic p.message p.delay)

theorem instant_le_due (p : Publication) : p.instant ≤ p.held.due :=
  Nat.le_add_right _ _

theorem move?_member {s : Site σ} (hs : s.IsReliable) (p : Publication) :
    p.member.move? s =
      if p.instant ≤ s.now then
        some (.gone, { s with
          channel := s.channel.publish p.topic p.message (s.now + p.delay.getD 0) })
      else none := by
  simp only [member, Member.move?, Errand.perform,
    Site.publish_eq s p.topic p.message p.delay (hs _)]

end Publication

def Channel.publishAll (c : Channel) (made : List Publication) : Channel :=
  made.foldl (fun c p => c.publish p.topic p.message p.held.due) c

theorem Channel.publishAll_append_singleton (c : Channel) (made : List Publication)
    (p : Publication) :
    c.publishAll (made ++ [p]) = (c.publishAll made).publish p.topic p.message p.held.due :=
  List.foldl_append

theorem Channel.held_publishAll (c : Channel) (made : List Publication) :
    (c.publishAll made).held = c.held ++ made.map Publication.held := by
  induction made generalizing c with
  | nil => exact (List.append_nil _).symm
  | cons p made ih =>
    refine (ih _).trans ?_
    simp [Channel.publish, Publication.held]

/-- Where things stand at an instant, on the channel and with those who publish there. -/
structure Moment where
  now : Nat
  channel : Channel
  /-- What others have published so far, in this order. -/
  made : List Publication := []
  /-- What others are going to publish. -/
  rest : List Publication

namespace Moment

/-- The site at that moment, which is otherwise as it was. -/
def site (m : Moment) (s : Site σ) : Site σ :=
  { s with now := m.now, channel := m.channel }

def publish (m : Moment) (p : Publication) (rest : List Publication) : Moment :=
  { m with
    channel := m.channel.publish p.topic p.message p.held.due
    made := m.made ++ [p], rest }

/-- Everything in a schedule has been published at its instant or is going to be. -/
structure Follows (m : Moment) (schedule : List Publication) : Prop where
  perm : schedule.Perm (m.made ++ m.rest)
  inOrder : m.made.Pairwise (·.instant ≤ ·.instant)
  past : ∀ p ∈ m.made, p.instant ≤ m.now
  future : ∀ p ∈ m.rest, m.now ≤ p.instant

namespace Follows

variable {m : Moment} {schedule : List Publication}

theorem start {now : Nat} (channel : Channel) (h : ∀ p ∈ schedule, now ≤ p.instant) :
    ({ now, channel, rest := schedule } : Moment).Follows schedule where
  perm := .refl _
  inOrder := .nil
  past := nofun
  future := h

theorem publish (h : m.Follows schedule) {p : Publication} {rest : List Publication}
    (hrest : m.rest.Perm (p :: rest)) (hp : p.instant ≤ m.now) :
    (m.publish p rest).Follows schedule where
  perm := by
    refine h.perm.trans ?_
    rw [Moment.publish, List.append_assoc]
    exact hrest.append_left m.made
  inOrder := by
    refine List.pairwise_append.2 ⟨h.inOrder, List.pairwise_singleton _ p, fun a ha b hb => ?_⟩
    rw [List.mem_singleton.1 hb]
    exact Nat.le_trans (h.past a ha) (h.future p (hrest.mem_iff.2 List.mem_cons_self))
  past := by
    intro a ha
    rcases List.mem_append.1 ha with ha | ha
    · exact h.past a ha
    · rwa [List.mem_singleton.1 ha]
  future := fun a ha => h.future a (hrest.mem_iff.2 (List.mem_cons_of_mem _ ha))

theorem pass (h : m.Follows schedule) {later : Nat} (hlater : m.now ≤ later)
    (hrest : ∀ p ∈ m.rest, later ≤ p.instant) : ({ m with now := later } : Moment).Follows schedule where
  perm := h.perm
  inOrder := h.inOrder
  past := fun p hp => Nat.le_trans (h.past p hp) hlater
  future := hrest

end Follows

end Moment

/-! ## A crew that publishes -/

/-- Each member of the crew has one message to publish, or has done so. -/
def Publishers (crew : List Member) (rest : List Publication) : Prop :=
  ∃ slots : List (Option Publication),
    crew = slots.map (·.elim .gone Publication.member) ∧ rest = slots.filterMap id

theorem publishers_members (schedule : List Publication) :
    Publishers (schedule.map Publication.member) schedule :=
  ⟨schedule.map some, by simp, by simp⟩

namespace Scenario

/-- At some point of the round it is everybody's turn. -/
theorem exists_turn {i n : Nat} (turn : Nat) (h : i < n) : ∃ k < n, (turn + k) % n = i := by
  have hturn : turn % n < n := Nat.mod_lt _ (by omega)
  by_cases hle : turn % n ≤ i
  · refine ⟨i - turn % n, by omega, ?_⟩
    rw [Nat.add_mod, Nat.mod_eq_of_lt (a := i - turn % n) (by omega), Nat.add_sub_cancel' hle,
      Nat.mod_eq_of_lt h]
  · refine ⟨i + n - turn % n, by omega, ?_⟩
    rw [Nat.add_mod, Nat.mod_eq_of_lt (a := i + n - turn % n) (by omega),
      Nat.add_sub_cancel' (by omega), Nat.add_mod_right, Nat.mod_eq_of_lt h]

theorem moveMember?_of_moveCrew?_eq_none {c : Scenario σ} (h : c.moveCrew? = none) (i : Nat) :
    c.moveMember? i = none := by
  by_cases hi : i < c.crew.length
  · obtain ⟨k, hk, rfl⟩ := exists_turn c.turn hi
    exact List.findSome?_eq_none_iff.1 h k (List.mem_range.2 hk)
  · rw [moveMember?, List.getElem?_eq_none (Nat.le_of_not_lt hi)]

variable {c : Scenario σ} {rest : List Publication}

theorem publish_of_moveMember? {c' : Scenario σ} {i : Nat} (hcrew : Publishers c.crew rest)
    (hs : c.site.IsReliable) (h : c.moveMember? i = some c') :
    ∃ p rest', rest.Perm (p :: rest') ∧ p.instant ≤ c.site.now ∧ Publishers c'.crew rest' ∧
      c'.site = { c.site with
        channel := c.site.channel.publish p.topic p.message (c.site.now + p.delay.getD 0) } := by
  obtain ⟨slots, hslots, rfl⟩ := hcrew
  rw [moveMember?, hslots, List.getElem?_map] at h
  rcases hslot : slots[i]? with _ | _ | p
  · rw [hslot] at h
    cases h
  · rw [hslot] at h
    cases h
  · simp only [hslot, Option.map_some, Option.elim_some, Publication.move?_member hs] at h
    split at h
    case isFalse => cases h
    case isTrue hwake =>
    cases h
    obtain ⟨hi, hget⟩ := List.getElem?_eq_some_iff.1 hslot
    have hsplit : slots = slots.take i ++ some p :: slots.drop (i + 1) := by
      rw [← hget, List.getElem_cons_drop, List.take_append_drop]
    refine ⟨p, (slots.set i none).filterMap id, ?_, hwake, ⟨slots.set i none, ?_, rfl⟩, rfl⟩
    · conv => lhs; rw [hsplit]
      rw [List.set_eq_take_append_cons_drop, if_pos hi]
      simp only [List.filterMap_append, List.filterMap_cons, id]
      exact List.perm_middle
    · rw [List.map_set]
      rfl

/-- Somebody whose instant has come publishes, if there is anybody. -/
theorem moveCrew?_of_publishers (hcrew : Publishers c.crew rest) (hs : c.site.IsReliable) :
    (c.moveCrew? = none ∧ ∀ p ∈ rest, c.site.now < p.instant) ∨
      ∃ p rest' c', rest.Perm (p :: rest') ∧ p.instant ≤ c.site.now ∧ c.moveCrew? = some c' ∧
        Publishers c'.crew rest' ∧ c'.site = { c.site with
          channel := c.site.channel.publish p.topic p.message (c.site.now + p.delay.getD 0) } := by
  cases hmove : c.moveCrew? with
  | some c' =>
    obtain ⟨k, -, hk⟩ := List.exists_of_findSome?_eq_some hmove
    obtain ⟨p, rest', hrest, hp, hcrew', hsite⟩ := publish_of_moveMember? hcrew hs hk
    exact .inr ⟨p, rest', c', hrest, hp, rfl, hcrew', hsite⟩
  | none =>
    refine .inl ⟨rfl, fun p hp => Nat.lt_of_not_le fun hwake => ?_⟩
    obtain ⟨slots, hslots, rfl⟩ := hcrew
    obtain ⟨slot, hmem, rfl⟩ := List.mem_filterMap.1 hp
    obtain ⟨i, hi, hget⟩ := List.getElem_of_mem hmem
    have hnone := moveMember?_of_moveCrew?_eq_none hmove i
    rw [moveMember?, hslots, List.getElem?_map, List.getElem?_eq_getElem hi, hget] at hnone
    simp [Publication.move?_member hs, hwake] at hnone

theorem moveCrew?_ne_none (hcrew : Publishers c.crew rest) (hs : c.site.IsReliable)
    {p : Publication} (hp : p ∈ rest) (hwake : p.instant ≤ c.site.now) : c.moveCrew? ≠ none := by
  rcases moveCrew?_of_publishers hcrew hs with ⟨-, hlate⟩ | ⟨_, _, _, -, -, hsome, -⟩
  · exact absurd hwake (Nat.not_le.2 (hlate p hp))
  · rw [hsome]
    exact Option.some_ne_none _

theorem nextInstant?_of_publishers (hcrew : Publishers c.crew rest) {w : Waiting} {wake : Nat}
    (hwake : w.wakesAt? c.site = some wake) :
    ∃ later, c.nextInstant? w = some later ∧ (later = wake ∨ ∃ p ∈ rest, later = p.instant) ∧
      later ≤ wake ∧ ∀ p ∈ rest, later ≤ p.instant := by
  obtain ⟨slots, hslots, rfl⟩ := hcrew
  have hinstants : c.crew.filterMap (fun m => m.wakesAt? c.site) =
      (slots.filterMap id).map Publication.instant := by
    rw [hslots, List.filterMap_map, List.map_filterMap]
    congr 1
    funext slot
    cases slot <;> rfl
  rw [nextInstant?, hwake, hinstants]
  generalize slots.filterMap id = rest
  obtain ⟨later, hlater⟩ : ∃ later, (wake :: rest.map Publication.instant).min? = some later :=
    ⟨_, rfl⟩
  obtain ⟨hmem, hle⟩ := List.min?_eq_some_iff.1 hlater
  refine ⟨later, hlater, ?_, hle wake List.mem_cons_self, fun p hp => ?_⟩
  · rcases List.mem_cons.1 hmem with rfl | hmem
    · exact .inl rfl
    · obtain ⟨p, hp, rfl⟩ := List.mem_map.1 hmem
      exact .inr ⟨p, hp, rfl⟩
  · exact hle _ (List.mem_cons_of_mem _ (List.mem_map.2 ⟨p, hp, rfl⟩))

end Scenario

/-! ## The wait -/

/-- What holds of a command in progress and of the moment while the command waits (`Inv`), and of
its answer and the moment when it has one (`Over`): whatever can happen next keeps it. -/
structure Persists (s : Site σ) (schedule : List Publication) (Inv : Waiting → Moment → Prop)
    (Over : Answer → Moment → Prop) : Prop where
  /-- The command goes on with a message less on the channel, or it has its answer. -/
  move : ∀ {w : Waiting} {m : Moment} {crew : List Member} {r : (Waiting ⊕ Answer) × Site σ},
    m.Follows schedule → Inv w m → w.move? crew (m.site s) = some r →
      ∃ channel, r.2 = ({ m with channel } : Moment).site s ∧
        match r.1 with
        | .inl w => channel.held.length < m.channel.held.length ∧ Inv w { m with channel }
        | .inr answer => Over answer { m with channel }
  publish : ∀ {w : Waiting} {m : Moment} {p : Publication} {rest : List Publication},
    Inv w m → m.rest.Perm (p :: rest) → p.instant = m.now → Inv w (m.publish p rest)
  /-- When the command can only wait, it knows when it will be able to go on by itself. -/
  pass : ∀ {w : Waiting} {m : Moment} {crew : List Member}, Inv w m →
    w.move? crew (m.site s) = none →
      ∃ wake, w.wakesAt? (m.site s) = some wake ∧ m.now < wake ∧
        (∀ crew, w.move? crew (({ m with now := wake } : Moment).site s) ≠ none) ∧
        ∀ later, m.now < later → later ≤ wake → (∀ p ∈ m.rest, later ≤ p.instant) →
          Inv w { m with now := later }

/-- Nothing but the publishing of a schedule has gone on in the scenario since its site was `s`, apart
from what has been taken off the channel. -/
structure Scenario.IsAt (c : Scenario σ) (s : Site σ) (schedule : List Publication) (m : Moment) :
    Prop where
  site_eq : c.site = m.site s
  crew : Publishers c.crew m.rest
  follows : m.Follows schedule

namespace Scenario.IsAt

variable {c : Scenario σ} {s : Site σ} {schedule : List Publication} {m : Moment}

theorem start (hcrew : Publishers c.crew schedule) (h : ∀ p ∈ schedule, c.site.now ≤ p.instant) :
    c.IsAt c.site schedule { now := c.site.now, channel := c.site.channel, rest := schedule } :=
  ⟨rfl, hcrew, .start c.site.channel h⟩

theorem now_eq (h : c.IsAt s schedule m) : c.site.now = m.now := by
  rw [h.site_eq]
  rfl

theorem reliable (h : c.IsAt s schedule m) (hs : s.IsReliable) : c.site.IsReliable := by
  rw [h.site_eq]
  exact hs

end Scenario.IsAt

namespace Persists

variable {s : Site σ} {schedule : List Publication} {Inv : Waiting → Moment → Prop}
  {Over : Answer → Moment → Prop} {c : Scenario σ} {w : Waiting} {m : Moment}

/-- How many steps the wait may still take: one for each publication and one for each message on the
channel, after each of which time may have to pass once, and one for the answer. -/
def stepsLeft (c : Scenario σ) (w : Waiting) (m : Moment) : Nat :=
  4 * m.rest.length + 2 * m.channel.held.length +
    if w.move? c.crew c.site = none ∧ c.moveCrew? = none then 2 else 1

theorem stepsLeft_le (c : Scenario σ) (w : Waiting) (m : Moment) :
    stepsLeft c w m ≤ 4 * m.rest.length + 2 * m.channel.held.length + 2 := by
  unfold stepsLeft
  split <;> omega

/-- The next step of the wait comes to another scenario that waits, with fewer steps left. -/
def GoesOn (s : Site σ) (schedule : List Publication) (Inv : Waiting → Moment → Prop)
    (c : Scenario σ) (w : Waiting) (m : Moment) : Prop :=
  ∃ c' w' m', (∀ fuel, c.wait w (fuel + 1) = c'.wait w' fuel) ∧ c'.IsAt s schedule m' ∧
    Inv w' m' ∧ stepsLeft c' w' m' < stepsLeft c w m

/-- The next step of the wait comes to the answer. -/
def Ends (s : Site σ) (schedule : List Publication) (Over : Answer → Moment → Prop)
    (c : Scenario σ) (w : Waiting) : Prop :=
  ∃ answer m c', (∀ fuel, c.wait w (fuel + 1) = (answer, c')) ∧ c'.IsAt s schedule m ∧
    Over answer m

/-- The command looks, and goes on or has its answer. -/
theorem step_move (h : Persists s schedule Inv Over) (hat : c.IsAt s schedule m) (hinv : Inv w m)
    {r : (Waiting ⊕ Answer) × Site σ} (hmove : w.move? c.crew c.site = some r) :
    Ends s schedule Over c w ∨ GoesOn s schedule Inv c w m := by
  have hcase := hmove
  rw [hat.site_eq] at hcase
  obtain ⟨channel, hafter, hnext⟩ := h.move hat.follows hinv hcase
  have hfollows : ({ m with channel } : Moment).Follows schedule :=
    ⟨hat.follows.perm, hat.follows.inOrder, hat.follows.past, hat.follows.future⟩
  obtain ⟨w' | answer, after⟩ := r
  · obtain ⟨hlength, hinv'⟩ := hnext
    refine .inr ⟨{ c with site := after, turn := 0 }, w', { m with channel }, fun fuel => ?_,
      ⟨hafter, hat.crew, hfollows⟩, hinv', ?_⟩
    · rw [Scenario.wait, hmove]
    · refine Nat.lt_of_le_of_lt (stepsLeft_le _ _ _) ?_
      rw [stepsLeft, hmove, if_neg (by simp)]
      simp only
      omega
  · refine .inl ⟨answer, _, { c with site := after }, fun fuel => ?_,
      ⟨hafter, hat.crew, hfollows⟩, hnext⟩
    rw [Scenario.wait, hmove]

/-- Somebody publishes. -/
theorem step_publish (h : Persists s schedule Inv Over) (hat : c.IsAt s schedule m)
    (hinv : Inv w m) (hmove : w.move? c.crew c.site = none) {p : Publication}
    {rest : List Publication} {c' : Scenario σ} (hrest : m.rest.Perm (p :: rest))
    (hwake : p.instant ≤ c.site.now) (hsome : c.moveCrew? = some c')
    (hcrew : Publishers c'.crew rest) (hsite : c'.site = { c.site with
      channel := c.site.channel.publish p.topic p.message (c.site.now + p.delay.getD 0) }) :
    GoesOn s schedule Inv c w m := by
  rw [hat.now_eq] at hwake
  have hp : p ∈ m.rest := hrest.mem_iff.2 List.mem_cons_self
  have hinstant : p.instant = m.now := Nat.le_antisymm hwake (hat.follows.future p hp)
  refine ⟨c', w, m.publish p rest, fun fuel => by rw [Scenario.wait, hmove, hsome],
    ⟨?_, hcrew, hat.follows.publish hrest hwake⟩, h.publish hinv hrest hinstant, ?_⟩
  · rw [hsite, hat.site_eq, Moment.publish, Publication.held, hinstant]
    rfl
  · have hlength := hrest.length_eq
    have hheld : (m.publish p rest).channel.held.length = m.channel.held.length + 1 := by
      simp [Moment.publish, Channel.publish]
    have hleft : (m.publish p rest).rest = rest := rfl
    refine Nat.lt_of_le_of_lt (stepsLeft_le _ _ _) ?_
    rw [stepsLeft, hsome, if_neg (by simp), hheld, hleft, hlength, List.length_cons]
    omega

/-- Time passes, and then somebody can do something. -/
theorem step_pass (h : Persists s schedule Inv Over) (hs : s.IsReliable)
    (hat : c.IsAt s schedule m) (hinv : Inv w m) (hmove : w.move? c.crew c.site = none)
    (hnone : c.moveCrew? = none) (hlate : ∀ p ∈ m.rest, c.site.now < p.instant) :
    GoesOn s schedule Inv c w m := by
  have hstill := hmove
  rw [hat.site_eq] at hstill
  obtain ⟨wake, hwakes, hwake, hawake, hpass⟩ := h.pass hinv hstill
  rw [← hat.site_eq] at hwakes
  obtain ⟨later, hnext, hwho, hle, hlater⟩ := Scenario.nextInstant?_of_publishers hat.crew hwakes
  rw [hat.now_eq] at hlate
  have hlt : m.now < later := by
    rcases hwho with rfl | ⟨p, hp, rfl⟩
    · exact hwake
    · exact hlate p hp
  let next : Scenario σ := { c with site := { c.site with now := later }, turn := 0 }
  have hat' : next.IsAt s schedule { m with now := later } := by
    refine ⟨?_, hat.crew, hat.follows.pass (Nat.le_of_lt hlt) hlater⟩
    simp only [next, hat.site_eq]
    rfl
  refine ⟨next, w, _, fun fuel => ?_, hat', hpass later hlt hle hlater, ?_⟩
  · simp only [Scenario.wait, hmove, hnone, hnext, hat.now_eq, Nat.max_eq_left (Nat.le_of_lt hlt)]
    rfl
  · have hbusy : ¬ (w.move? next.crew next.site = none ∧ next.moveCrew? = none) := by
      rintro ⟨hmove', hnone'⟩
      rcases hwho with rfl | ⟨p, hp, rfl⟩
      · rw [hat'.site_eq] at hmove'
        exact hawake _ hmove'
      · exact Scenario.moveCrew?_ne_none hat'.crew (hat'.reliable hs) hp (Nat.le_refl _) hnone'
    rw [stepsLeft, if_neg hbusy, stepsLeft, if_pos ⟨hmove, hnone⟩]
    simp only
    omega

theorem step (h : Persists s schedule Inv Over) (hs : s.IsReliable) (hat : c.IsAt s schedule m)
    (hinv : Inv w m) : Ends s schedule Over c w ∨ GoesOn s schedule Inv c w m := by
  cases hmove : w.move? c.crew c.site with
  | some r => exact h.step_move hat hinv hmove
  | none =>
    rcases Scenario.moveCrew?_of_publishers hat.crew (hat.reliable hs) with
      ⟨hnone, hlate⟩ | ⟨p, rest, c', hrest, hwake, hsome, hcrew, hsite⟩
    · exact .inr (h.step_pass hs hat hinv hmove hnone hlate)
    · exact .inr (h.step_publish hat hinv hmove hrest hwake hsome hcrew hsite)

/-- **The wait comes to an end**, and what holds then is what every step keeps. -/
theorem wait (h : Persists s schedule Inv Over) (hs : s.IsReliable) (hat : c.IsAt s schedule m)
    (hinv : Inv w m) {fuel : Nat}
    (hfuel : 4 * m.rest.length + 2 * m.channel.held.length + 2 ≤ fuel) :
    ∃ answer m' c', c.wait w fuel = (answer, c') ∧ c'.IsAt s schedule m' ∧ Over answer m' := by
  have hsteps : stepsLeft c w m ≤ fuel := Nat.le_trans (stepsLeft_le c w m) hfuel
  clear hfuel
  induction fuel generalizing c w m with
  | zero =>
    unfold stepsLeft at hsteps
    split at hsteps <;> omega
  | succ fuel ih =>
    rcases h.step hs hat hinv with
      ⟨answer, m', c', hwait, hat', hover⟩ | ⟨c', w', m', hwait, hat', hinv', hless⟩
    · exact ⟨answer, m', c', hwait fuel, hat', hover⟩
    · rw [hwait fuel]
      exact ih hat' hinv' (by omega)

end Persists

end TaskRelay
