import Mathlib.Data.List.Forall2
import TaskRelay.Proofs.Collection
import TaskRelay.Proofs.Run.Rounds
import TaskRelay.Proofs.Site.Frame
import TaskRelay.Scenario

/-!
# What becomes of messages

A ledger tells what has become of every message that has been published: which ones have been
delivered, in which order and when, and that the others are held, in the order of their publication.
It counts messages by their places in that order, so two messages that look the same are two.

`Channel.Ledger.publish` and `Channel.Ledger.take` keep a ledger through the two things that can be
done with a channel.  Hence there is one for every history of publications and receives
(`Traffic.exists_ledger`), and what a channel reports of a topic can be read off it.
-/

namespace TaskRelay

/-- A message that somebody has got who had asked for one on a topic. -/
structure Delivery where
  topic : String
  message : Message
  instant : Nat
deriving DecidableEq, Repr

namespace Channel

/-- The messages at other than certain places, in their order. -/
def unclaimed (posts : List Held) (places : List Nat) : List Held :=
  (posts.zipIdx.filter (·.2 ∉ places)).map Prod.fst

/-- What has become of the messages in `posts`: those at `places` have been delivered in that order,
and the others are held. -/
structure Ledger (posts : List Held) (places : List Nat) (deliveries : List Delivery)
    (held : List Held) : Prop where
  /-- A message is delivered as it was published, on its topic, and no earlier than it is due. -/
  delivered : List.Forall₂ (fun i d => ∃ h, posts[i]? = some h ∧ h.topic = d.topic ∧
    h.message = d.message ∧ h.due ≤ d.instant) places deliveries
  /-- No message is delivered twice. -/
  nodup : places.Nodup
  held_eq : held = unclaimed posts places
  /-- A message is not delivered before one that was published earlier on its topic and is due no
  later. -/
  inOrder : ∀ {before after : List Nat} {i j : Nat} {h g : Held}, places = before ++ j :: after →
    i < j → posts[i]? = some h → posts[j]? = some g → h.topic = g.topic → h.due ≤ g.due → i ∈ before

/-! ## Messages that are still there -/

theorem pairwise_zipIdx (posts : List Held) : posts.zipIdx.Pairwise (·.2 < ·.2) := by
  have h := List.pairwise_lt_range' (s := 0) (n := posts.length) 1
  rw [← List.zipIdx_map_snd 0 posts] at h
  exact List.pairwise_map.1 h

theorem unclaimed_nil (posts : List Held) : unclaimed posts [] = posts := by
  simp [unclaimed]

theorem unclaimed_append_singleton {posts : List Held} {places : List Nat} (h : Held)
    (hplaces : ∀ i ∈ places, i < posts.length) :
    unclaimed (posts ++ [h]) places = unclaimed posts places ++ [h] := by
  have hnew : posts.length ∉ places := fun hmem => Nat.lt_irrefl _ (hplaces _ hmem)
  simp [unclaimed, List.zipIdx_append, hnew]

/-- A message that is still there has a place, and those before it are at the places before it. -/
theorem unclaimed_split {posts before after : List Held} {places : List Nat} {h : Held}
    (hsplit : unclaimed posts places = before ++ h :: after) :
    ∃ i, posts[i]? = some h ∧ i ∉ places ∧ unclaimed posts (places ++ [i]) = before ++ after ∧
      ∀ j g, j < i → j ∉ places → posts[j]? = some g → g ∈ before := by
  obtain ⟨before', rest, hentries, rfl, hrest⟩ := List.map_eq_append_iff.1 hsplit
  obtain ⟨⟨held, i⟩, after', rfl, rfl, rfl⟩ := List.map_eq_cons_iff.1 hrest
  have hmem : (held, i) ∈ posts.zipIdx.filter (·.2 ∉ places) := by rw [hentries]; simp
  obtain ⟨hpost, hplace⟩ := List.mem_filter.1 hmem
  have hsorted := (pairwise_zipIdx posts).filter (·.2 ∉ places)
  rw [hentries] at hsorted
  obtain ⟨-, hlast, hfirst⟩ := List.pairwise_append.1 hsorted
  have hearlier : ∀ e ∈ before', e.2 < i := fun e he => hfirst e he _ List.mem_cons_self
  have hlater : ∀ e ∈ after', i < e.2 := (List.pairwise_cons.1 hlast).1
  refine ⟨i, List.mem_zipIdx_iff_getElem?.1 hpost, by simpa using hplace, ?_, ?_⟩
  · have hfilter : posts.zipIdx.filter (·.2 ∉ places ++ [i]) =
        (posts.zipIdx.filter (·.2 ∉ places)).filter (·.2 ≠ i) := by
      rw [List.filter_filter]
      congr 1
      funext e
      simp [and_comm]
    have hkept : ∀ l : List (Held × Nat), (∀ e ∈ l, e.2 ≠ i) → l.filter (·.2 ≠ i) = l :=
      fun l hl => List.filter_eq_self.2 fun e he => decide_eq_true (hl e he)
    rw [unclaimed, hfilter, hentries, List.filter_append, List.filter_cons_of_neg (by simp),
      hkept before' fun e he => Nat.ne_of_lt (hearlier e he),
      hkept after' fun e he => (Nat.ne_of_lt (hlater e he)).symm, List.map_append]
  · intro j g hj hplace hg
    have hentry : (g, j) ∈ before' ++ (held, i) :: after' := by
      rw [← hentries]
      exact List.mem_filter.2 ⟨List.mem_zipIdx_iff_getElem?.2 hg, by simpa using hplace⟩
    rcases List.mem_append.1 hentry with hmem | hmem
    · exact List.mem_map.2 ⟨_, hmem, rfl⟩
    · rcases List.mem_cons.1 hmem with heq | hmem
      · cases heq
        exact absurd hj (Nat.lt_irrefl i)
      · have := hlater _ hmem
        omega

theorem countP_unclaimed (posts : List Held) (places : List Nat) (p : Held → Bool) :
    (unclaimed posts places).countP p =
      posts.zipIdx.countP fun e => p e.1 ∧ e.2 ∉ places := by
  rw [unclaimed, List.countP_map, List.countP_filter]
  congr 1
  funext e
  simp

/-! ## Keeping a ledger -/

namespace Ledger

variable {posts : List Held} {places : List Nat} {deliveries : List Delivery} {held : List Held}

theorem start (posts : List Held) : Ledger posts [] [] posts where
  delivered := .nil
  nodup := List.nodup_nil
  held_eq := (unclaimed_nil posts).symm
  inOrder := by
    intro before after i j h g hplaces
    cases before <;> cases hplaces

theorem lt_length (l : Ledger posts places deliveries held) : ∀ i ∈ places, i < posts.length := by
  obtain ⟨hlength, hdelivered⟩ := List.forall₂_iff_get.1 l.delivered
  intro i hi
  obtain ⟨k, hk, rfl⟩ := List.getElem_of_mem hi
  obtain ⟨h, hpost, -⟩ := hdelivered k hk (hlength ▸ hk)
  exact (List.getElem?_eq_some_iff.1 hpost).1

theorem publish (l : Ledger posts places deliveries held) (h : Held) :
    Ledger (posts ++ [h]) places deliveries (held ++ [h]) where
  delivered := l.delivered.imp fun i d ⟨g, hpost, hg⟩ =>
    ⟨g, by rw [List.getElem?_append_left (List.getElem?_eq_some_iff.1 hpost).1, hpost], hg⟩
  nodup := l.nodup
  held_eq := by rw [l.held_eq, unclaimed_append_singleton h l.lt_length]
  inOrder := by
    intro before after i j g g' hplaces hij hg hg' htopic hdue
    have hj : j < posts.length := l.lt_length j (by rw [hplaces]; simp)
    rw [List.getElem?_append_left (Nat.lt_trans hij hj)] at hg
    rw [List.getElem?_append_left hj] at hg'
    exact l.inOrder hplaces hij hg hg' htopic hdue

/-- The message that is taken is the next one delivered; whatever was before it on the topic and is
still there is due later. -/
theorem take {c c' : Channel} {topic : String} {now : Nat} {m : Message}
    (l : Ledger posts places deliveries c.held) (htake : c.take? topic now = some (m, c')) :
    ∃ i, Ledger posts (places ++ [i]) (deliveries ++ [⟨topic, m, now⟩]) c'.held := by
  obtain ⟨before, h, after, hsplit, rfl, hdeliverable, hbefore, rfl⟩ := take?_eq_some htake
  obtain ⟨i, hpost, hplace, hrest, hfirst⟩ := unclaimed_split (l.held_eq.symm.trans hsplit)
  obtain ⟨htopic, hdue⟩ := Held.isDeliverable_iff.1 hdeliverable
  refine ⟨i, ?_, ?_, hrest.symm, ?_⟩
  · exact List.rel_append l.delivered (.cons ⟨h, hpost, htopic, rfl, hdue⟩ .nil)
  · rw [List.nodup_append]
    refine ⟨l.nodup, List.nodup_cons.2 ⟨List.not_mem_nil, List.nodup_nil⟩, fun j hj k hk => ?_⟩
    rw [List.mem_singleton.1 hk]
    exact fun heq => hplace (heq ▸ hj)
  · intro first last j k g g' hplaces hjk hg hg' htopic' hdue'
    rcases List.eq_nil_or_concat last with rfl | ⟨last, k', rfl⟩
    · obtain ⟨rfl, hk⟩ := List.append_inj' hplaces rfl
      cases hk
      by_contra hj
      have hblocked := hbefore g (hfirst j g hjk hj hg)
      rw [hpost] at hg'
      cases hg'
      have hlate := Held.isDeliverable_eq_false_iff.1 hblocked (htopic'.trans htopic)
      omega
    · rw [List.concat_eq_append, ← List.cons_append, ← List.append_assoc] at hplaces
      obtain ⟨hplaces, -⟩ := List.append_inj' hplaces rfl
      exact l.inOrder hplaces hjk hg hg' htopic' hdue'

end Ledger

/-! ## What a channel reports -/

variable {posts : List Held} {places : List Nat} {deliveries : List Delivery} {c : Channel}

theorem countP_onTopic (c : Channel) (topic : String) (p : Held → Bool) :
    (c.onTopic topic).countP p = c.held.countP fun h => h.topic = topic ∧ p h := by
  rw [onTopic, List.countP_filter]
  congr 1
  funext h
  simp [and_comm, Bool.beq_eq_decide_eq]

theorem pending_eq (c : Channel) (topic : String) :
    c.pending topic = c.held.countP fun h => h.topic = topic := by
  have h := c.countP_onTopic topic fun _ => true
  simpa [pending] using h

theorem Ledger.pending_eq (l : Ledger posts places deliveries c.held) (topic : String) :
    c.pending topic = posts.zipIdx.countP fun e => e.1.topic = topic ∧ e.2 ∉ places := by
  rw [Channel.pending_eq, l.held_eq, countP_unclaimed]
  simp

theorem Ledger.scheduled_eq (l : Ledger posts places deliveries c.held) (topic : String)
    (now : Nat) : c.scheduled topic now =
      posts.zipIdx.countP fun e => e.1.topic = topic ∧ e.2 ∉ places ∧ now < e.1.due := by
  rw [scheduled, countP_onTopic, l.held_eq, countP_unclaimed]
  congr 1
  funext e
  simp [and_assoc, and_comm]

end Channel

/-! ## Histories of a channel -/

/-- A receive that has begun. -/
structure Receive where
  topic : String
  deadline : Nat
deriving DecidableEq, Repr

/-- The channel of a site with all the receives that have begun there, whoever they belong to. -/
structure Traffic (σ : Type) where
  site : Site σ
  /-- In the order in which they began; a receive that has its answer is gone. -/
  receives : List (Option Receive) := []
  deliveries : List Delivery := []

namespace Traffic

variable {σ : Type}

/-- What somebody does with the channel. -/
inductive Use where
  | publish (topic : String) (m : Message) (delay : Option Nat)
  /-- Begins another receive. -/
  | receive (topic : String) (timeout : Nat)
  /-- Has the receive with a number look for a message. -/
  | look (number : Nat)
deriving DecidableEq, Repr

/-- A receive looks for a message, and goes on waiting if it has no answer yet. -/
def look (t : Traffic σ) (number : Nat) (r : Receive) : Traffic σ :=
  match (Waiting.receiving r.topic r.deadline).move? [] t.site with
  | some (.inr (.received (.ok answer)), site) =>
    { site, receives := t.receives.set number none
      deliveries := t.deliveries ++ (answer.map fun m => ⟨r.topic, m, t.site.now⟩).toList }
  | _ => t

def use (t : Traffic σ) : Use → Traffic σ
  | .publish topic m delay => { t with site := (t.site.publish topic m delay).2 }
  | .receive topic timeout =>
    match t.site.beginReceive topic with
    | (.ok (), site) => { t with site, receives := t.receives ++ [some ⟨topic, site.now + timeout⟩] }
    | (.error _, site) => { t with site, receives := t.receives ++ [none] }
  | .look number =>
    match t.receives[number]? with
    | some (some r) => t.look number r
    | _ => t

/-- Each thing is done at its instant. -/
def replay (t : Traffic σ) (history : List (Nat × Use)) : Traffic σ :=
  history.foldl (fun t e => use { t with site := { t.site with now := e.1 } } e.2) t

/-- What is published in a history, in this order, and when it is due. -/
def posts (history : List (Nat × Use)) : List Held :=
  history.filterMap fun e =>
    match e.2 with
    | .publish topic m delay => some { topic, message := m, due := e.1 + delay.getD 0 }
    | _ => none

/-- The ledger of the traffic on a reliable site. -/
structure Accounts (t : Traffic σ) (posts : List Held) (places : List Nat) : Prop where
  reliable : t.site.IsReliable
  ledger : Channel.Ledger posts places t.deliveries t.site.channel.held
  posted_eq : t.site.channel.posted = (posts.map Held.topic).reverse

variable {t : Traffic σ} {posted : List Held} {places : List Nat}

theorem Accounts.look (h : t.Accounts posted places) (number : Nat) (r : Receive) :
    ∃ places, (t.look number r).Accounts posted places := by
  unfold Traffic.look
  simp only [Waiting.move?]
  cases htake : t.site.channel.take? r.topic t.site.now with
  | some taken =>
    obtain ⟨m, channel⟩ := taken
    obtain ⟨i, hledger⟩ := h.ledger.take htake
    obtain ⟨_, _, _, _, _, _, _, rfl⟩ := Channel.take?_eq_some htake
    exact ⟨places ++ [i], h.reliable, hledger, h.posted_eq⟩
  | none =>
    by_cases hover : r.deadline ≤ t.site.now
    · simp only [hover, if_true]
      exact ⟨places, h.reliable, by simpa using h.ledger, h.posted_eq⟩
    · simp only [hover, if_false]
      exact ⟨places, h⟩

theorem Accounts.use (h : t.Accounts posted places) (instant : Nat) (u : Use) :
    ∃ places, (Traffic.use { t with site := { t.site with now := instant } } u).Accounts
      (posted ++ posts [(instant, u)]) places := by
  cases u with
  | publish topic m delay =>
    have hpublish := Site.publish_eq { t.site with now := instant } topic m delay (h.reliable _)
    refine ⟨places, ?_, ?_, ?_⟩
    · simp only [Traffic.use, hpublish]
      exact h.reliable
    · simp only [Traffic.use, hpublish]
      exact h.ledger.publish _
    · simp only [Traffic.use, hpublish, Channel.publish, h.posted_eq, posts]
      simp
  | receive topic timeout =>
    have hreceive := Site.beginReceive_of_no_fault (s := { t.site with now := instant })
      (h.reliable .receive) topic
    refine ⟨places, ?_⟩
    simp only [Traffic.use, hreceive, posts, List.filterMap_cons, List.filterMap_nil,
      List.append_nil]
    exact ⟨h.reliable, h.ledger, h.posted_eq⟩
  | look number =>
    have hat : Accounts { t with site := { t.site with now := instant } } posted places :=
      ⟨h.reliable, h.ledger, h.posted_eq⟩
    simp only [Traffic.use, posts, List.filterMap_cons, List.filterMap_nil, List.append_nil]
    split
    · next r hr => exact hat.look number r
    · exact ⟨places, hat⟩

theorem Accounts.replay (h : t.Accounts posted places) (history : List (Nat × Use)) :
    ∃ places, (t.replay history).Accounts (posted ++ posts history) places := by
  induction history generalizing t posted places with
  | nil => exact ⟨places, by simpa [posts, Traffic.replay] using h⟩
  | cons e history ih =>
    obtain ⟨places', hnext⟩ := h.use e.1 e.2
    obtain ⟨places'', hlast⟩ := ih hnext
    refine ⟨places'', ?_⟩
    have hposts : posts (e :: history) = posts [e] ++ posts history :=
      List.filterMap_append (l := [e])
    rw [hposts, ← List.append_assoc]
    exact hlast

/-- **Every history of a channel has a ledger**, whoever publishes and receives there, on whatever
topics, with whatever delays and timeouts, and the channel reports what the ledger says. -/
theorem exists_ledger {s : Site σ} (hs : s.IsReliable) (hnew : s.channel = ∅)
    (history : List (Nat × Use)) :
    let t := ({ site := s } : Traffic σ).replay history
    ∃ places, Channel.Ledger (posts history) places t.deliveries t.site.channel.held ∧
      ∀ topic,
        t.site.channel.published topic = (posts history).countP (·.topic = topic) ∧
        t.site.channel.pending topic =
          (posts history).zipIdx.countP (fun e => e.1.topic = topic ∧ e.2 ∉ places) ∧
        ∀ now, t.site.channel.scheduled topic now =
          (posts history).zipIdx.countP fun e => e.1.topic = topic ∧ e.2 ∉ places ∧ now < e.1.due := by
  intro t
  have hstart : ({ site := s } : Traffic σ).Accounts [] [] :=
    ⟨hs, by rw [hnew]; exact .start [], by rw [hnew]; rfl⟩
  obtain ⟨places, hlast⟩ := hstart.replay history
  rw [List.nil_append] at hlast
  refine ⟨places, hlast.ledger, fun topic => ⟨?_, hlast.ledger.pending_eq topic,
    hlast.ledger.scheduled_eq topic⟩⟩
  rw [Channel.published, hlast.posted_eq, List.count_reverse, List.count_eq_countP, List.countP_map]
  rfl

/-- Three receives on two topics wait at the same time, and a message that is held back is overtaken
by a later one on its topic. -/
def crossing : List (Nat × Use) :=
  [(0, .publish "t" { payload := "first" } (some 5)), (1, .receive "t" 3), (1, .look 0),
    (2, .publish "t" { payload := "second" } none), (2, .publish "u" { payload := "third" } none),
    (2, .look 0), (3, .receive "t" 9), (3, .look 1), (4, .receive "u" 0), (4, .look 2),
    (4, .publish "t" { payload := "last" } (some 1)), (5, .look 1)]

theorem exists_ledger_crossing :
    let s := Sample.site 10 { reply := .outcome .done }
    (s.IsReliable ∧ s.channel = ∅) ∧
    ∃ places, Channel.Ledger (posts crossing) places
      [⟨"t", { payload := "second" }, 2⟩, ⟨"u", { payload := "third" }, 4⟩,
        ⟨"t", { payload := "first" }, 5⟩] [⟨"t", { payload := "last" }, 5⟩] := by
  intro s
  have hs : s.IsReliable := fun _ => rfl
  have hnew : s.channel = ∅ := rfl
  refine ⟨⟨hs, hnew⟩, ?_⟩
  have hdeliveries : (({ site := s } : Traffic Unit).replay crossing).deliveries =
      [⟨"t", { payload := "second" }, 2⟩, ⟨"u", { payload := "third" }, 4⟩,
        ⟨"t", { payload := "first" }, 5⟩] := by decide +kernel
  have hheld : (({ site := s } : Traffic Unit).replay crossing).site.channel.held =
      [⟨"t", { payload := "last" }, 5⟩] := by decide +kernel
  obtain ⟨places, hledger, -⟩ := exists_ledger hs hnew crossing
  rw [hdeliveries, hheld] at hledger
  exact ⟨places, hledger⟩

end Traffic

end TaskRelay
