import TaskRelay.Config.Basic
import TaskRelay.Proofs.Crew.Exclusion
import TaskRelay.Proofs.Crew.Gathering
import TaskRelay.Proofs.TaskList.Wire

/-!
# Starting on a batch

A server renews its lease before it collects a batch and not again before it starts on the batch.
The idle poll comes first and then the window, unless the first message already makes a full batch;
if that takes less time than a lease is held (`CollectionSettings.longestCollection`), the lease is
live when the server starts, whatever comes and whatever fails (`Crew.holder?_of_starts`).  That a
configuration is accepted says nothing about this: the servers of its pipelines hold their leases
whenever they start on a batch exactly if it happens to be so (`Config.holdsLease_iff`).
-/

namespace TaskRelay

variable {σ : Type}

/-! ## Collecting -/

namespace CollectionSettings

/-- How long a batch stays open after its first message. -/
def openFor (settings : CollectionSettings) : Nat :=
  if settings.maxMessages ≤ 1 then 0 else settings.window

/-- How long it takes at most to collect a batch. -/
def longestCollection (settings : CollectionSettings) : Nat :=
  settings.idlePoll + settings.openFor

end CollectionSettings

namespace Collection

/-- When the collection will have ended at the latest, given how large a batch may be. -/
def endsBy (c : Collection) (settings : CollectionSettings) : Nat :=
  match c.batch with
  | none => c.deadline + settings.openFor
  | some _ => c.deadline

theorem deadline_le_endsBy (c : Collection) (settings : CollectionSettings) :
    c.deadline ≤ c.endsBy settings := by
  rw [endsBy]
  split
  · exact Nat.le_add_right _ _
  · exact Nat.le_refl _

/-- A message that comes in time does not put off the end of the collection. -/
theorem endsBy_of_poll_more {c next : Collection} {settings : CollectionSettings} {topic : String}
    {now : Nat} {channel channel' : Channel}
    (h : c.poll settings topic now channel = (.more next, channel')) (hnow : now ≤ c.deadline) :
    now ≤ next.deadline ∧ next.endsBy settings ≤ c.endsBy settings := by
  obtain ⟨m, -, rfl, hroom, hopen⟩ := poll_more h
  refine ⟨Nat.le_of_lt hopen, ?_⟩
  have hseveral : ¬ settings.maxMessages ≤ 1 := by
    simp only at hroom
    omega
  rw [endsBy, endsBy, windowEnd, CollectionSettings.openFor, if_neg hseveral]
  cases c.batch with
  | none => exact Nat.add_le_add_right hnow _
  | some b => exact Nat.le_refl _

end Collection

/-! ## How a server comes to collect -/

namespace Server

variable {v : Server} {s t : Site σ} {c c' : Collection}

theorem start_of_collect (h : (v.collect s).1.stage = .collecting c') :
    c' = .start s.now v.post.settings.idlePoll ∧ (v.collect s).2.now = s.now ∧
      (v.collect s).2.leases = s.leases := by
  rw [collect, Post.collect] at h ⊢
  rcases hreceive : v.post.receive (.start s.now v.post.settings.idlePoll) s with ⟨e | c, t⟩
  · rw [hreceive] at h
    cases h
  · rw [hreceive] at h
    obtain ⟨faults, rfl⟩ := Post.site_of_receive hreceive
    cases Post.eq_of_receive_ok hreceive
    cases h
    exact ⟨rfl, rfl, rfl⟩

theorem more_of_receive {r : Except ChannelError Collection}
    (hpoll : v.post.poll? c s = some (.receiving r, t))
    (h : (v.receive (r, t)).1.stage = .collecting c') :
    ∃ channel, c.poll v.post.settings v.post.topic s.now s.channel = (.more c', channel) ∧
      (v.receive (r, t)).2.now = s.now ∧ (v.receive (r, t)).2.leases = s.leases := by
  obtain ⟨next, channel, hmore, hreceive⟩ := Post.poll?_receiving hpoll
  cases r with
  | error e => cases h
  | ok c =>
    cases h
    obtain ⟨faults, rfl⟩ := Post.site_of_receive hreceive
    cases Post.eq_of_receive_ok hreceive
    exact ⟨channel, hmore, rfl, rfl⟩

theorem stage_work_ne (v : Server) (b : Option Batch) (s : Site σ) :
    (v.work b s).1.stage ≠ .collecting c' := by
  cases b with
  | none =>
    intro h
    cases h
  | some b =>
    rw [work]
    rcases v.post.work b s with ⟨d | result, t⟩
    · intro h
      cases h
    · intro h
      cases h

/-- A server that collects after a move has been granted the lease for the full time and begins, or
has been collecting and has taken a message. -/
theorem collecting_of_move? {r : Server × Site σ} (hmove : v.move? s = some r)
    (h : r.1.stage = .collecting c') :
    r.2.now = s.now ∧
      (c' = .start s.now v.post.settings.idlePoll ∧
          r.2.leases = s.leases.grant v.post.topic v.post.holder s.now ∨
        ∃ c channel, v.stage = .collecting c ∧ r.2.leases = s.leases ∧
          c.poll v.post.settings v.post.topic s.now s.channel = (.more c', channel)) := by
  cases hstage : v.stage with
  | ready =>
    simp only [move?, hstage] at hmove
    split at hmove
    · cases hmove
      cases h
    · split at hmove
      · split at hmove
        · next t heq =>
          cases hmove
          obtain ⟨-, hnow, hleases⟩ := Post.renew_true heq
          obtain ⟨rfl, hsame, htable⟩ := start_of_collect h
          rw [hsame, htable, hnow, hleases]
          exact ⟨rfl, .inl ⟨rfl, rfl⟩⟩
        · cases hmove
          cases h
      · split at hmove
        · next t heq =>
          cases hmove
          obtain ⟨hnow, hleases⟩ := Post.acquire_true heq
          obtain ⟨rfl, hsame, htable⟩ := start_of_collect h
          rw [hsame, htable, hnow, hleases]
          exact ⟨rfl, .inl ⟨rfl, rfl⟩⟩
        · cases hmove
          cases h
        · cases hmove
          cases h
  | pausing wake =>
    simp only [move?, hstage] at hmove
    split at hmove
    · cases hmove
      cases h
    · cases hmove
  | collecting c =>
    simp only [move?, hstage] at hmove
    split at hmove
    · cases hmove
    · next received t hpoll =>
      cases hmove
      obtain ⟨channel, hmore, hnow, hleases⟩ := more_of_receive hpoll h
      exact ⟨hnow, .inr ⟨c, channel, rfl, hleases, hmore⟩⟩
    · next b t hpoll =>
      cases hmove
      exact absurd h (stage_work_ne v b t)
  | working d ticker =>
    simp only [move?, hstage] at hmove
    split at hmove
    · split at hmove
      · cases hmove
        cases h
      · cases hmove
        cases h
    · obtain ⟨⟨ticker', t⟩, -, heq⟩ := Option.map_eq_some_iff.1 hmove
      cases heq
      cases h
  | stopped =>
    simp only [move?, hstage] at hmove
    cases hmove
  | broken =>
    simp only [move?, hstage] at hmove
    cases hmove

/-! ## The invariant of a server that collects -/

/-- A server that collects holds a lease that lasts until it will have started on its batch. -/
def Guarded (v : Server) (s : Site σ) : Prop :=
  ∀ c, v.stage = .collecting c → s.now ≤ c.deadline ∧ ∃ expires,
    s.leases.get? v.post.topic = some ⟨v.post.holder, expires⟩ ∧
      c.endsBy v.post.settings < expires

theorem guarded_of_isEmpty (h : v.hands.isEmpty = true) : v.Guarded s := by
  intro c hstage
  rw [hands, hstage] at h
  cases h

theorem Guarded.mono (h : v.Guarded s) (hnow : t.now = s.now)
    (hlease : ∀ expires, s.leases.get? v.post.topic = some ⟨v.post.holder, expires⟩ →
      s.now < expires → t.leases.get? v.post.topic = some ⟨v.post.holder, expires⟩) :
    v.Guarded t := by
  intro c hstage
  obtain ⟨hle, expires, hget, hlate⟩ := h c hstage
  have hends := c.deadline_le_endsBy v.post.settings
  rw [hnow]
  exact ⟨hle, expires, hlease expires hget (by omega), hlate⟩

theorem Guarded.pass {instant : Nat} (h : v.Guarded s)
    (hwake : ∀ wake, v.wakesAt? s = some wake → instant ≤ wake) :
    v.Guarded { s with now := instant } := by
  intro c hstage
  obtain ⟨-, hlease⟩ := h c hstage
  rw [wakesAt?, hstage] at hwake
  exact ⟨Nat.le_trans (hwake _ rfl) (c.wakesAt_le_deadline _ _), hlease⟩

/-- Every move of a server keeps it guarded, whatever fails. -/
theorem guarded_of_move? {r : Server × Site σ} (h : v.Guarded s)
    (hfits : v.post.settings.longestCollection < s.leases.ttl) (hmove : v.move? s = some r) :
    r.1.Guarded r.2 := by
  obtain ⟨hpost, -⟩ := Server.turn hmove
  intro c' hstage'
  rw [hpost]
  obtain ⟨hnow, ⟨rfl, hgrant⟩ | ⟨c, channel, hstage, hleases, hmore⟩⟩ :=
    collecting_of_move? hmove hstage'
  · unfold CollectionSettings.longestCollection at hfits
    rw [hnow, hgrant, LeaseTable.get?_grant_self]
    refine ⟨Nat.le_add_right _ _, s.now + s.leases.ttl, rfl, ?_⟩
    show s.now + v.post.settings.idlePoll + v.post.settings.openFor < s.now + s.leases.ttl
    omega
  · obtain ⟨hle, expires, hlease, hlate⟩ := h c hstage
    obtain ⟨hnext, hends⟩ := Collection.endsBy_of_poll_more hmore hle
    rw [hnow, hleases]
    exact ⟨hnext, expires, hlease, Nat.lt_of_le_of_lt hends hlate⟩

/-- The batch on which a server starts an iteration with its next move. -/
def nextBatch? (v : Server) (s : Site σ) : Option Batch :=
  match v.stage with
  | .collecting c =>
    match v.post.poll? c s with
    | some (.batch b, _) => b.filter (!·.isRejectedOnly)
    | _ => none
  | _ => none

theorem nextBatch?_of_closed {b : Batch} {channel : Channel} (hstage : v.stage = .collecting c)
    (hpoll : c.poll v.post.settings v.post.topic s.now s.channel = (.closed (some b), channel))
    (hworth : b.isRejectedOnly = false) : v.nextBatch? s = some b := by
  simp only [nextBatch?, hstage, Post.poll?_of_closed hpoll, Option.filter_some, hworth]
  rfl

/-- With its next move a server works on that batch, at the same instant and with the same leases. -/
theorem move?_of_nextBatch? {b : Batch} (h : v.nextBatch? s = some b) :
    ∃ channel, v.move? s = some (v.work (some b) { s with channel }) := by
  rw [nextBatch?] at h
  split at h
  · next c hstage =>
    split at h
    · next b' t hpoll =>
      obtain ⟨channel, -, rfl⟩ := Post.poll?_batch hpoll
      obtain ⟨rfl, -⟩ := Option.filter_eq_some_iff.1 h
      exact ⟨channel, by simp only [move?, hstage, hpoll]⟩
    · cases h
  · cases h

theorem stage_of_hands (h : v.hands = .collecting c) : v.stage = .collecting c := by
  rw [hands] at h
  split at h
  · next hstage => rw [hstage, Hands.collecting.inj h]
  all_goals cases h

/-- A server sets to work only on a batch that was the next one. -/
theorem isSome_nextBatch?_of_working {r : Server × Site σ} {d : Site.Dispatch}
    (hmove : v.move? s = some r) (hidle : ∀ d, v.hands ≠ .working d)
    (hworks : r.1.hands = .working d) : (v.nextBatch? s).isSome = true := by
  obtain ⟨-, hturn⟩ := Server.turn hmove
  generalize hhands : v.hands = h at hturn hidle
  generalize r.1.hands = h' at hturn hworks
  generalize r.2 = t at hturn
  cases hturn with
  | stay => exact absurd hworks (hidle d)
  | begin _ hfresh => subst hworks; cases hfresh
  | take => cases hworks
  | drop => cases hworks
  | giveUp => cases hworks
  | finish hends => exact absurd rfl (hidle _)
  | pass _ _ _ hfresh => subst hworks; cases hfresh
  | @start c b _ _ _ hpoll hwork =>
    have hworth : b.isRejectedOnly = false := by
      cases hrejected : b.isRejectedOnly with
      | false => rfl
      | true =>
        rw [Post.work, if_pos hrejected] at hwork
        cases hwork
    exact Option.isSome_of_eq_some (nextBatch?_of_closed (stage_of_hands hhands) hpoll hworth)

/-- A guarded server that starts on a batch holds a live lease. -/
theorem Guarded.holder? (h : v.Guarded s) (hstarts : (v.nextBatch? s).isSome = true) :
    s.leases.holder? v.post.topic s.now = some v.post.holder := by
  rw [nextBatch?] at hstarts
  split at hstarts
  · next c hstage =>
    obtain ⟨hnow, expires, hlease, hlate⟩ := h c hstage
    have hends := c.deadline_le_endsBy v.post.settings
    exact LeaseTable.holder?_eq_some_iff.2 ⟨expires, hlease, by show s.now < expires; omega⟩
  · cases hstarts

end Server

/-! ## In a crew -/

namespace Crew

variable {c c' : Crew σ} {d : Deed} {j : Nat}

theorem eq_zero_of_consumes {s : Site σ} {w w' : Worker} {queue : String} {i : Nat}
    (h : ({ site := s, workers := [w] } : Crew σ).Consumes queue i w') : i = 0 := by
  obtain ⟨hw, -⟩ := h
  cases i with
  | zero => rfl
  | succ i => cases hw

/-- A server has made its move, or has been told to stop, or has just joined, or is as it was. -/
theorem server_of_perform? {v' : Server} (h : c.perform? d = some c')
    (hv' : c'.workers[j]? = some (.server v')) :
    (∃ v, c.workers[j]? = some (.server v) ∧
        (d = .move j ∧ v.move? c.site = some (v', c'.site) ∨
          d ≠ .move j ∧ (v' = v ∨ v' = { v with stopping := true }))) ∨
      v'.hands.isEmpty = true := by
  rcases origin_of_worker h hv' with ⟨w, hw, hcase⟩ | ⟨rfl, -⟩
  · refine .inl ?_
    cases w with
    | server v =>
      refine ⟨v, hw, ?_⟩
      rcases hcase with ⟨rfl, hmove⟩ | ⟨hd, heq | heq⟩
      · obtain ⟨⟨v'', t⟩, hmove', heq⟩ := Option.map_eq_some_iff.1 hmove
        cases heq
        exact .inl ⟨rfl, hmove'⟩
      · cases heq
        exact .inr ⟨hd, .inl rfl⟩
      · cases heq
        exact .inr ⟨hd, .inr rfl⟩
    | drain v =>
      rcases hcase with ⟨-, hmove⟩ | ⟨-, heq | heq⟩
      · obtain ⟨_, -, heq⟩ := Option.map_eq_some_iff.1 hmove
        cases heq
      · cases heq
      · cases heq
  · obtain ⟨-, hnew, -⟩ := perform?_join h
    exact .inr (congrArg Hands.isEmpty (Worker.hands_eq_nothing_of_isNew hnew))

/-- What is not the turn of a server leaves it guarded. -/
theorem guarded_of_perform?_of_ne {v : Server} (h : c.perform? d = some c')
    (hv : c.workers[j]? = some (.server v)) (hname : c.HasOwnName j v.post)
    (hcalls : d.callsFor v.post.topic v.post.holder = false) (hd : d ≠ .move j)
    (hguarded : v.Guarded c.site) : v.Guarded c'.site := by
  by_cases hpass : ∃ instant, d = .pass instant
  · obtain ⟨instant, rfl⟩ := hpass
    obtain ⟨rfl, -, hwakes⟩ := perform?_pass h
    exact hguarded.pass (hwakes (.server v) (List.mem_of_getElem? hv))
  · have hnow := now_eq_of_perform? h fun instant hinstant => hpass ⟨instant, hinstant⟩
    refine hguarded.mono hnow fun expires hlease hlive => ?_
    refine get?_of_perform? h hlease hlive (fun i w hi hw htopic => ?_) hcalls
    exact hname.holder_ne hw (fun hij => hd (hij ▸ hi)) htopic

/-- **A server holds its lease when it starts on a batch**, whatever happens around it and whatever
fails, if collecting a batch takes less time than a lease is held. -/
theorem holder?_of_starts {site : Site σ} {deeds : List Deed} {v : Server}
    (hrun : ({ site } : Crew σ).replay? deeds = some c) (hv : c.workers[j]? = some (.server v))
    (hname : c.HasOwnName j v.post)
    (hcalls : ∀ d ∈ deeds, d.callsFor v.post.topic v.post.holder = false)
    (hfits : v.post.settings.longestCollection < site.leases.ttl)
    (hstarts : (v.nextBatch? c.site).isSome = true) :
    c.site.leases.holder? v.post.topic c.site.now = some v.post.holder := by
  have hnobody : ∀ u, ({ site } : Crew σ).workers[j]? = some (.server u) → u.Guarded site := by
    intro u hu
    cases hu
  have hguarded : ∀ u, c.workers[j]? = some (.server u) → u.Guarded c.site := by
    refine replay?_induction
      (P := fun c => ∀ u, c.workers[j]? = some (.server u) → u.Guarded c.site) hrun ?_ hnobody
    rintro before d after hd hperform ⟨rest, hrest⟩ hbefore u' hu'
    have hreplay : before.replay? (d :: rest) = some c := by
      rw [replay?, hperform]
      exact hrest
    have httl : before.site.leases.ttl = site.leases.ttl :=
      (ttl_of_replay? hreplay).symm.trans (ttl_of_replay? hrun)
    rcases server_of_perform? hperform hu' with ⟨u, hu, hcase⟩ | hempty
    · obtain ⟨w, hw, hpost, -⟩ := exists_worker_of_replay? hreplay hu
      cases hv.symm.trans hw
      have hsame : v.post = u.post := hpost
      rcases hcase with ⟨rfl, hmove⟩ | ⟨hne, rfl | rfl⟩
      · exact Server.guarded_of_move? (hbefore u hu) (by rw [← hsame, httl]; exact hfits) hmove
      · exact guarded_of_perform?_of_ne hperform hu (hsame ▸ hname.before hreplay)
          (hsame ▸ hcalls d hd) hne (hbefore u' hu)
      · have hguarded := guarded_of_perform?_of_ne hperform hu (hsame ▸ hname.before hreplay)
          (hsame ▸ hcalls d hd) hne (hbefore u hu)
        exact hguarded
    · exact Server.guarded_of_isEmpty hempty
  exact (hguarded v hv).holder? hstarts

end Crew

/-! ## A message that comes as late as it may -/

namespace Solo

variable {pl : Pipeline} {settings : CollectionSettings} {ttl now : Nat}

/-- A site with one engine, whose steps are done at once. -/
def site (ttl : Nat) (pl : Pipeline) : Site Unit :=
  { leases := { ttl }, ids := Nat.repr, clock := .fixed 0
    engines := [
      { pipeline := pl, state := ()
        service := {
          supports := fun _ => true
          invoke := fun _ state => ({ reply := .outcome .done }, state) } }] }

/-- The site at an instant, after the server has been granted its lease in the beginning. -/
def granted (ttl : Nat) (pl : Pipeline) (now : Nat) (channel : Channel) : Site Unit :=
  { site ttl pl with now, channel, leases := ({ ttl } : LeaseTable).grant pl.topic "a" 0 }

def server (pl : Pipeline) (settings : CollectionSettings) (leaseRetry : Nat) : Server :=
  { post := { engine := 0, topic := pl.topic, holder := "a", settings }, leaseRetry }

def collecting (pl : Pipeline) (settings : CollectionSettings) (leaseRetry : Nat) (c : Collection) :
    Server :=
  { server pl settings leaseRetry with leading := true, stage := .collecting c }

/-- The message that comes with the end of the idle poll. -/
def late (pl : Pipeline) (due : Nat) : Channel :=
  { held := [{ topic := pl.topic, message := Sample.message, due }], posted := [pl.topic] }

/-- The channel when the message has been taken. -/
def emptied (pl : Pipeline) : Channel :=
  { posted := [pl.topic] }

/-- The batch that the message makes. -/
def batch : Batch :=
  (∅ : Batch).absorb Sample.message

theorem isRejectedOnly_batch : batch.isRejectedOnly = false := by
  rw [batch, Sample.message, Batch.absorb_encode]
  rfl

theorem nextDue?_late (pl : Pipeline) (due : Nat) : (late pl due).nextDue? pl.topic = some due := by
  simp [late, Channel.nextDue?, Channel.onTopic]

theorem take?_late {due : Nat} (h : due ≤ now) :
    (late pl due).take? pl.topic now = some (Sample.message, emptied pl) := by
  have hdeliverable : Held.isDeliverable pl.topic now
      { topic := pl.topic, message := Sample.message, due } = true := by
    simp [Held.isDeliverable, h]
  exact Rush.take?_cons rfl hdeliverable

/-- A message is published, and a server begins to collect. -/
def opening (pl : Pipeline) (settings : CollectionSettings) (leaseRetry : Nat) : List Deed :=
  [.errand (.publish pl.topic Sample.message (some settings.idlePoll)),
    .join (.server (server pl settings leaseRetry)), .move 0, .pass settings.idlePoll]

theorem replay?_opening (ttl : Nat) (pl : Pipeline) (settings : CollectionSettings)
    (leaseRetry : Nat) :
    ({ site := site ttl pl } : Crew Unit).replay? (opening pl settings leaseRetry) =
      some {
        site := granted ttl pl settings.idlePoll (late pl (0 + settings.idlePoll))
        workers := [.server
          (collecting pl settings leaseRetry (.start 0 settings.idlePoll))] } := by
  have hpublish : ({ site := site ttl pl } : Crew Unit).perform?
      (.errand (.publish pl.topic Sample.message (some settings.idlePoll))) =
        some { site := { site ttl pl with channel := late pl (0 + settings.idlePoll) } } := rfl
  have hjoin : ({ site := { site ttl pl with channel := late pl (0 + settings.idlePoll) } } :
      Crew Unit).perform? (.join (.server (server pl settings leaseRetry))) =
        some { site := { site ttl pl with channel := late pl (0 + settings.idlePoll) }
               workers := [.server (server pl settings leaseRetry)] } := by
    have hemploys : Site.employs { site ttl pl with channel := late pl (0 + settings.idlePoll) }
        (server pl settings leaseRetry).post = true := by
      simp [Site.employs, site, server, Site.roles]
    exact if_pos ⟨rfl, hemploys⟩
  have hmove : ({ site := { site ttl pl with channel := late pl (0 + settings.idlePoll) }
                  workers := [.server (server pl settings leaseRetry)] } : Crew Unit).perform?
      (.move 0) = some {
        site := granted ttl pl 0 (late pl (0 + settings.idlePoll))
        workers := [.server (collecting pl settings leaseRetry (.start 0 settings.idlePoll))] } :=
    Crew.perform?_move_of_move? rfl
  have hwakes : (Worker.server (collecting pl settings leaseRetry
      (.start 0 settings.idlePoll))).wakesAt? (granted ttl pl 0 (late pl (0 + settings.idlePoll))) =
        some (0 + settings.idlePoll) := by
    show some ((Collection.start 0 settings.idlePoll).wakesAt pl.topic
      (late pl (0 + settings.idlePoll))) = _
    rw [Collection.wakesAt, nextDue?_late]
    exact congrArg some (Nat.min_self _)
  have hpass : ({ site := granted ttl pl 0 (late pl (0 + settings.idlePoll))
                  workers := [.server (collecting pl settings leaseRetry
                    (.start 0 settings.idlePoll))] } : Crew Unit).perform?
      (.pass settings.idlePoll) = some {
        site := granted ttl pl settings.idlePoll (late pl (0 + settings.idlePoll))
        workers := [.server (collecting pl settings leaseRetry (.start 0 settings.idlePoll))] } :=
    Crew.perform?_pass_of_wakesAt? (Nat.zero_le _) hwakes (Nat.le_add_left _ _)
  rw [opening, Crew.replay?, hpublish, Option.bind_some, Crew.replay?, hjoin, Option.bind_some,
    Crew.replay?, hmove, Option.bind_some, Crew.replay?, hpass]
  rfl

/-- With the message the batch is full, or the window opens. -/
theorem poll_late (pl : Pipeline) (hwindow : settings.window ≠ 0) :
    (Collection.start 0 settings.idlePoll).poll settings pl.topic settings.idlePoll
        (late pl (0 + settings.idlePoll)) =
      (if settings.maxMessages ≤ 1 then .closed (some batch)
        else .more { batch := some batch, received := 1
                     deadline := settings.idlePoll + settings.window },
        emptied pl) := by
  rw [Collection.poll, take?_late (Nat.le_of_eq (Nat.zero_add _))]
  have hopen : (0 + 1 < settings.maxMessages ∧
      settings.idlePoll < settings.idlePoll + settings.window) ↔
        ¬ settings.maxMessages ≤ 1 := by
    omega
  refine Prod.ext ?_ rfl
  show (if 0 + 1 < settings.maxMessages ∧
    settings.idlePoll < settings.idlePoll + settings.window then _ else _) = _
  by_cases hfull : settings.maxMessages ≤ 1
  · rw [if_pos hfull, if_neg (mt hopen.1 (not_not_intro hfull))]
    rfl
  · rw [if_neg hfull, if_pos (hopen.2 hfull)]
    rfl

/-- How the collection stands when the server is about to start on its batch. -/
def collected (settings : CollectionSettings) : Collection :=
  if settings.maxMessages ≤ 1 then .start 0 settings.idlePoll
  else { batch := some batch, received := 1, deadline := settings.idlePoll + settings.window }

def left (pl : Pipeline) (settings : CollectionSettings) : Channel :=
  if settings.maxMessages ≤ 1 then late pl (0 + settings.idlePoll) else emptied pl

/-- Unless the batch is full, the server waits for the end of the window. -/
def waiting (settings : CollectionSettings) : List Deed :=
  if settings.maxMessages ≤ 1 then [] else [.move 0, .pass (settings.idlePoll + settings.window)]

/-- The server comes to start on its batch as late as it may. -/
theorem replay?_waiting (ttl : Nat) (pl : Pipeline) (settings : CollectionSettings)
    (leaseRetry : Nat) (hwindow : settings.window ≠ 0) :
    ({ site := site ttl pl } : Crew Unit).replay?
        (opening pl settings leaseRetry ++ waiting settings) = some {
      site := granted ttl pl settings.longestCollection (left pl settings)
      workers := [.server (collecting pl settings leaseRetry (collected settings))] } := by
  rw [Crew.replay?_append, replay?_opening, Option.bind_some, waiting, collected, left,
    CollectionSettings.longestCollection, CollectionSettings.openFor]
  have hpoll := poll_late pl hwindow
  by_cases hfull : settings.maxMessages ≤ 1
  · simp only [if_pos hfull]
    rfl
  · simp only [if_neg hfull] at hpoll ⊢
    let opened : Collection :=
      { batch := some batch, received := 1, deadline := settings.idlePoll + settings.window }
    have hreceive : (server pl settings leaseRetry).post.poll? (.start 0 settings.idlePoll)
        (granted ttl pl settings.idlePoll (late pl (0 + settings.idlePoll))) =
          some (.receiving (.ok opened), granted ttl pl settings.idlePoll (emptied pl)) :=
      Post.poll?_of_more hpoll rfl
    have hmove : (Worker.server (collecting pl settings leaseRetry
        (.start 0 settings.idlePoll))).move?
          (granted ttl pl settings.idlePoll (late pl (0 + settings.idlePoll))) =
          some (.server (collecting pl settings leaseRetry opened),
            granted ttl pl settings.idlePoll (emptied pl)) := by
      simp only [Worker.move?, Server.move?, collecting, hreceive]
      rfl
    have hpass : ({ site := granted ttl pl settings.idlePoll (emptied pl)
                    workers := [.server (collecting pl settings leaseRetry opened)] } :
        Crew Unit).perform? (.pass (settings.idlePoll + settings.window)) = some {
          site := granted ttl pl (settings.idlePoll + settings.window) (emptied pl)
          workers := [.server (collecting pl settings leaseRetry opened)] } :=
      Crew.perform?_pass_of_wakesAt? (Nat.le_add_right _ _) rfl (Nat.le_refl _)
    rw [Crew.replay?, Crew.perform?_move_of_move? hmove, Option.bind_some, Crew.replay?, hpass]
    rfl

/-- The batch is collected. -/
theorem nextBatch?_waiting (ttl : Nat) (pl : Pipeline) (settings : CollectionSettings)
    (leaseRetry : Nat) (hwindow : settings.window ≠ 0) :
    (collecting pl settings leaseRetry (collected settings)).nextBatch?
      (granted ttl pl settings.longestCollection (left pl settings)) = some batch := by
  have hclosed : ((collected settings).poll settings pl.topic settings.longestCollection
      (left pl settings)).1 = .closed (some batch) := by
    rw [collected, left, CollectionSettings.longestCollection, CollectionSettings.openFor]
    by_cases hfull : settings.maxMessages ≤ 1
    · simp only [if_pos hfull]
      rw [Nat.add_zero, poll_late pl hwindow, if_pos hfull]
    · simp only [if_neg hfull]
      exact if_pos (Nat.le_refl _)
  exact Server.nextBatch?_of_closed rfl (Prod.ext hclosed rfl) isRejectedOnly_batch

/-- The lease has been granted in the beginning, and not again. -/
theorem holder?_granted {holder : String} {channel : Channel}
    (h : (granted ttl pl now channel).leases.holder? pl.topic now = some holder) : now < ttl := by
  obtain ⟨expires, hget, hlive⟩ := LeaseTable.holder?_eq_some_iff.1 h
  have hgrant := (LeaseTable.get?_grant_self ({ ttl } : LeaseTable) pl.topic "a" 0).symm.trans hget
  cases hgrant
  exact Nat.lt_of_lt_of_eq hlive (Nat.zero_add _)

end Solo

/-! ## Configurations -/

namespace Config

/-- A run in which the only consumer of the queue of a pipeline is a server that goes by a
configuration. -/
structure Runs (k : Config) (name : String) (site : Site σ) (deeds : List Deed) (c : Crew σ)
    (j : Nat) (v : Server) : Prop where
  run : ({ site } : Crew σ).replay? deeds = some c
  server : c.workers[j]? = some (.server v)
  alone : ∀ i w, c.Consumes v.post.topic i w → i = j
  uncalled : ∀ d ∈ deeds, d.callsFor v.post.topic v.post.holder = false
  ttl : site.leases.ttl = k.leader.leaseTtl
  settings : v.post.settings = k.collection
  leaseRetry : v.leaseRetry = k.leader.retry
  pipeline : c.site.engines[v.post.engine]?.map Engine.pipeline = k.pipeline? name

/-- Whatever comes and whenever it comes, the server of a pipeline holds its lease at every instant
at which it starts on a batch. -/
def HoldsLease (k : Config) (name : String) : Prop :=
  ∀ {σ : Type} {site : Site σ} {deeds : List Deed} {c : Crew σ} {j : Nat} {v : Server},
    k.Runs name site deeds c j v → (v.nextBatch? c.site).isSome = true →
      c.site.leases.holder? v.post.topic c.site.now = some v.post.holder

theorem Runs.hasOwnName {k : Config} {name : String} {site : Site σ} {deeds : List Deed}
    {c : Crew σ} {j : Nat} {v : Server} (h : k.Runs name site deeds c j v) :
    c.HasOwnName j v.post := by
  intro w hw htopic
  obtain ⟨i, hij, hw⟩ := List.mem_eraseIdx_iff_getElem?.1 hw
  exact absurd (h.alone i w ⟨hw, htopic⟩) hij

/-- A server that goes by a configuration may come to start on a batch as late as the configuration
lets it. -/
theorem runs_waiting {k : Config} {name : String} {pl : Pipeline}
    (hwindow : k.collection.window ≠ 0) (hpl : k.pipeline? name = some pl) :
    k.Runs name (Solo.site k.leader.leaseTtl pl)
      (Solo.opening pl k.collection k.leader.retry ++ Solo.waiting k.collection)
      { site := Solo.granted k.leader.leaseTtl pl k.collection.longestCollection
          (Solo.left pl k.collection)
        workers := [.server (Solo.collecting pl k.collection k.leader.retry
          (Solo.collected k.collection))] }
      0 (Solo.collecting pl k.collection k.leader.retry (Solo.collected k.collection)) where
  run := Solo.replay?_waiting _ _ _ _ hwindow
  server := rfl
  alone _ _ := Crew.eq_zero_of_consumes
  uncalled d hd := by
    rw [Solo.opening, Solo.waiting] at hd
    split at hd
    · simp only [List.cons_append, List.nil_append, List.mem_cons, List.not_mem_nil,
        or_false] at hd
      rcases hd with rfl | rfl | rfl | rfl <;> rfl
    · simp only [List.cons_append, List.nil_append, List.mem_cons, List.not_mem_nil,
        or_false] at hd
      rcases hd with rfl | rfl | rfl | rfl | rfl | rfl <;> rfl
  ttl := rfl
  settings := rfl
  leaseRetry := rfl
  pipeline := hpl.symm

/-- **When the servers of a configuration hold their leases.**  The check of a configuration lets
any idle poll and any window pass: a server is certain to hold its lease when it starts on a batch
exactly if collecting the batch takes less time than a lease is held. -/
theorem holdsLease_iff {k : Config} {name : String} {pl : Pipeline} (hk : k.fault? = none)
    (hpl : k.pipeline? name = some pl) :
    k.HoldsLease name ↔ k.collection.longestCollection < k.leader.leaseTtl := by
  constructor
  · intro h
    have hwindow : k.collection.window ≠ 0 := by
      intro hzero
      rw [ fault?, if_pos hzero] at hk
      split at hk
      · cases hk
      · cases hk
    refine Solo.holder?_granted (h (runs_waiting hwindow hpl) ?_)
    exact Option.isSome_of_eq_some (Solo.nextBatch?_waiting _ _ _ _ hwindow)
  · intro hfits σ site deeds c j v h hstarts
    refine Crew.holder?_of_starts h.run h.server h.hasOwnName h.uncalled ?_ hstarts
    rw [h.settings, h.ttl]
    exact hfits

/-- A configuration with one pipeline, as usual but for how long leases are held. -/
def solo (leaseTtl : Nat) : Config :=
  { leader := { leaseTtl }
    pipelines := .ofList [("geo",
      { topic := "t", domain := "GEO", action := "geo.run", retry := ⟨3, 100⟩ })] }

def soloPipeline : Pipeline :=
  { name := "geo", topic := "t", domain := "GEO", action := "geo.run", retry := ⟨3, 100⟩ }

theorem pipeline?_solo (leaseTtl : Nat) : (solo leaseTtl).pipeline? "geo" = some soloPipeline :=
  rfl

theorem holdsLease_iff_solo : (solo 2001).fault? = none ∧ (solo 2001).HoldsLease "geo" := by
  have haccepted : (solo 2001).fault? = none := by decide +kernel
  exact ⟨haccepted, (holdsLease_iff haccepted (pipeline?_solo 2001)).2 (by decide)⟩

/-- A message comes shortly before the end of the idle poll, and the window is awaited. -/
def lateMessage : List Deed :=
  [.errand (.publish "t" Sample.message (some 900)),
    .join (.server (Solo.server soloPipeline {} 5000)), .move 0, .pass 900, .move 0, .pass 1900]

/-- A server starts on a batch without a lease, although its configuration is accepted and nobody
else is there: leases are held for a shorter time than it takes to collect a batch. -/
theorem lapsed_before_start :
    (solo 1500).fault? = none ∧
      ∃ c v, (solo 1500).Runs "geo" (Solo.site 1500 soloPipeline) lateMessage c 0 v ∧
        (v.nextBatch? c.site).isSome = true ∧ c.site.leases.holder? "t" c.site.now = none := by
  let v := Solo.collecting soloPipeline {} 5000
    { batch := some Solo.batch, received := 1, deadline := 1900 }
  let c : Crew Unit :=
    { site := Solo.granted 1500 soloPipeline 1900 (Solo.emptied soloPipeline)
      workers := [.server v] }
  have hruns : (solo 1500).Runs "geo" (Solo.site 1500 soloPipeline) lateMessage c 0 v :=
    { run := rfl, server := rfl, alone := fun _ _ => Crew.eq_zero_of_consumes
      uncalled := by decide +kernel, ttl := rfl, settings := rfl, leaseRetry := rfl
      pipeline := (pipeline?_solo 1500).symm }
  have hstarts : v.nextBatch? c.site = some Solo.batch :=
    Server.nextBatch?_of_closed rfl rfl Solo.isRejectedOnly_batch
  exact ⟨by decide +kernel, c, v, hruns, Option.isSome_of_eq_some hstarts, by decide +kernel⟩

end Config

end TaskRelay
