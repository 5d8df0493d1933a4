import TaskRelay.Proofs.Crew.Draining

/-!
# A rush of messages

Messages that may all be taken when a drain begins to collect are taken one after the other at that
instant, until the batch is full.  Where the drain is alone in its crew this is a run of its moves,
at the end of which it works on the batch of all these messages (`replay?_collecting`).
-/

namespace TaskRelay

namespace Rush

variable {σ : Type}

/-- How many messages make a batch at the instant at which they come. -/
def batchSize (settings : CollectionSettings) : Nat :=
  if settings.window = 0 then 1 else max 1 settings.maxMessages

/-- A collection that has begun at an instant and has taken in messages at once. -/
def collection (settings : CollectionSettings) (now wait : Nat) : List Message → Collection
  | [] => .start now wait
  | m :: taken =>
    { batch := some ((∅ : Batch).absorbAll (m :: taken)), received := taken.length + 1
      deadline := now + settings.window }

def crew (s : Site σ) (v : Drain) : Crew σ :=
  { site := s, workers := [.drain v] }

/-! ## Single receives -/

section Collections

variable {settings : CollectionSettings} {now : Nat} {taken : List Message}

theorem batchSize_pos (settings : CollectionSettings) : 0 < batchSize settings := by
  unfold batchSize
  split <;> omega

theorem absorbAll_append (taken : List Message) (m : Message) :
    (∅ : Batch).absorbAll (taken ++ [m]) = ((∅ : Batch).absorbAll taken).absorb m := by
  rw [Batch.absorbAll, List.foldl_append]
  rfl

theorem batch_collection (settings : CollectionSettings) (now wait : Nat) (taken : List Message) :
    (collection settings now wait taken).batch.getD ∅ = (∅ : Batch).absorbAll taken := by
  cases taken <;> rfl

theorem received_collection (settings : CollectionSettings) (now wait : Nat)
    (taken : List Message) : (collection settings now wait taken).received = taken.length := by
  cases taken <;> rfl

theorem windowEnd_collection (settings : CollectionSettings) (now wait : Nat)
    (taken : List Message) :
    (collection settings now wait taken).windowEnd settings now = now + settings.window := by
  cases taken <;> rfl

theorem collection_append (settings : CollectionSettings) (now wait : Nat) (taken : List Message)
    (m : Message) :
    collection settings now wait (taken ++ [m]) =
      { batch := some ((∅ : Batch).absorbAll (taken ++ [m])), received := taken.length + 1
        deadline := now + settings.window } := by
  cases taken with
  | nil => rfl
  | cons first taken =>
    rw [List.cons_append, collection, List.length_append]
    rfl

theorem stays_open_iff (h : taken.length < batchSize settings) :
    (taken.length + 1 < settings.maxMessages ∧ now < now + settings.window) ↔
      taken.length + 1 < batchSize settings := by
  unfold batchSize at h ⊢
  by_cases hwindow : settings.window = 0
  · rw [if_pos hwindow] at h ⊢
    omega
  · rw [if_neg hwindow] at h ⊢
    omega

theorem take?_cons {channel : Channel} {topic : String} {held : Held} {rest : List Held}
    (hheld : channel.held = held :: rest) (hdeliverable : held.isDeliverable topic now = true) :
    channel.take? topic now = some (held.message, { channel with held := rest }) := by
  rw [Channel.take?, hheld, List.find?_cons_of_pos hdeliverable,
    List.eraseP_cons_of_pos hdeliverable]

theorem poll_collection {channel : Channel} {topic : String} {held : Held} {rest : List Held}
    (wait : Nat) (hheld : channel.held = held :: rest)
    (hdeliverable : held.isDeliverable topic now = true)
    (h : taken.length < batchSize settings) :
    (collection settings now wait taken).poll settings topic now channel =
      (if taken.length + 1 < batchSize settings then
          .more (collection settings now wait (taken ++ [held.message]))
        else .closed (some ((∅ : Batch).absorbAll (taken ++ [held.message]))),
        { channel with held := rest }) := by
  rw [Collection.poll, take?_cons hheld hdeliverable]
  simp only [Collection.accept, batch_collection, absorbAll_append, received_collection,
    windowEnd_collection, stays_open_iff h, collection_append]

end Collections

/-! ## Moves of a drain -/

variable {v : Drain} {s : Site σ}

theorem perform?_of_move? {v' : Drain} {s' : Site σ} (h : v.move? s = some (v', s')) :
    (crew s v).perform? (.move 0) = some (crew s' v') :=
  Crew.perform?_move_of_move? (by rw [Worker.move?, h]; rfl)

theorem perform?_pass_of_wakesAt? {instant wake : Nat} (hnow : s.now ≤ instant)
    (hwakes : v.wakesAt? s = some wake) (hwake : instant ≤ wake) :
    (crew s v).perform? (.pass instant) = some (crew { s with now := instant } v) :=
  Crew.perform?_pass_of_wakesAt? hnow hwakes hwake

/-- The drain takes the messages of a batch and works on it. -/
theorem replay?_collecting {w : Drain} {t : Site σ} (ticker : Ticker) (wait : Nat)
    (rest helds : List Held) : ∀ (s : Site σ) (taken : List Message), helds ≠ [] →
      s.channel.held = helds ++ rest → s.faults .receive = 0 →
      (∀ h ∈ helds, h.isDeliverable v.post.topic s.now = true) →
      taken.length + helds.length = batchSize v.post.settings →
      (∀ stage, ({ v with stage } : Drain).work ticker.holding
        (some ((∅ : Batch).absorbAll (taken ++ helds.map Held.message)))
        { s with channel := { s.channel with held := rest } } = (w, t)) →
      (crew s { v with
          stage := .collecting (collection v.post.settings s.now wait taken) ticker }).replay?
        (List.replicate helds.length (.move 0)) = some (crew t w) := by
  induction helds with
  | nil => exact fun s taken hne => absurd rfl hne
  | cons held helds ih =>
    rintro s taken - hheld hfault hdeliverable hsize hwork
    have hroom : taken.length < batchSize v.post.settings := by
      rw [List.length_cons] at hsize
      omega
    have hpoll := poll_collection wait hheld (hdeliverable held List.mem_cons_self) hroom
    rw [List.length_cons, List.replicate_succ, Crew.replay?]
    rcases helds with _ | ⟨next, helds⟩
    · -- the last message fills the batch
      have hfull : ¬ taken.length + 1 < batchSize v.post.settings :=
        Nat.not_lt.2 (Nat.le_of_eq hsize.symm)
      rw [if_neg hfull] at hpoll
      have hclosed := Post.poll?_of_closed (p := v.post) hpoll
      have hmove : ({ v with
          stage := .collecting (collection v.post.settings s.now wait taken) ticker } : Drain).move?
            s = some (w, t) := by
        simp only [Drain.move?, hclosed]
        exact congrArg some (hwork _)
      rw [perform?_of_move? hmove]
      rfl
    · have hopen : taken.length + 1 < batchSize v.post.settings := by
        rw [← hsize, List.length_cons, List.length_cons]
        omega
      rw [if_pos hopen] at hpoll
      have hmore := Post.poll?_of_more (p := v.post) hpoll hfault
      have hmove : ({ v with
          stage := .collecting (collection v.post.settings s.now wait taken) ticker } : Drain).move?
            s = some ({ v with
              stage := .collecting (collection v.post.settings s.now wait (taken ++ [held.message]))
                ticker },
              { s with channel := { s.channel with held := next :: helds ++ rest } }) := by
        simp only [Drain.move?, hmore]
        rfl
      rw [perform?_of_move? hmove, Option.bind_some]
      refine ih { s with channel := { s.channel with held := next :: helds ++ rest } }
        (taken ++ [held.message]) (List.cons_ne_nil _ _) rfl hfault
        (fun h hh => hdeliverable h (List.mem_cons_of_mem _ hh)) ?_ fun stage => ?_
      · rw [List.length_append, List.length_singleton, ← hsize, List.length_cons (a := held)]
        omega
      · rw [List.append_assoc]
        exact hwork stage

/-- A drain that finds nothing before the first tick of its collection is done. -/
theorem idles {ticker : Ticker} {wait : Nat} (hholding : ticker.holding = true)
    (hticks : s.now + wait ≤ ticker.due)
    (hlate : ∀ h ∈ s.channel.onTopic v.post.topic, s.now + wait < h.due) :
    let w : Drain := { v with stage := .collecting (.start s.now wait) ticker }
    (crew s w).perform? (.pass (s.now + wait)) =
        some (crew { s with now := s.now + wait } w) ∧
      ∃ t, w.move? { s with now := s.now + wait } =
          some ({ v with stage := .ended (.ok v.report) }, t) ∧ t.channel = s.channel := by
  intro w
  constructor
  · have hwakes : w.wakesAt? s =
        some (min ticker.due ((Collection.start s.now wait).wakesAt v.post.topic s.channel)) := by
      simp only [w, Drain.wakesAt?, Ticker.due?, hholding, if_true]
    refine perform?_pass_of_wakesAt? (Nat.le_add_right _ _) hwakes (Nat.le_min.2 ⟨hticks, ?_⟩)
    rcases (Collection.start s.now wait).wakesAt_eq v.post.topic s.channel with
      ⟨h, hh, hwake⟩ | hwake
    · rw [hwake]
      exact Nat.le_of_lt (hlate h hh)
    · exact Nat.le_of_eq hwake.symm
  · have hnone : s.channel.take? v.post.topic (s.now + wait) = none := by
      refine Channel.take?_eq_none_iff.2 fun h hh => ?_
      refine Held.isDeliverable_eq_false_iff.2 fun htopic => ?_
      exact hlate h (List.mem_filter.2 ⟨hh, beq_iff_eq.2 htopic⟩)
    have hpoll : (Collection.start s.now wait).poll v.post.settings v.post.topic (s.now + wait)
        s.channel = (.closed none, s.channel) := by
      rw [Collection.poll, hnone]
      exact Prod.ext (if_pos (Nat.le_refl _)) rfl
    have hclosed := Post.poll?_of_closed (p := v.post) (s := { s with now := s.now + wait }) hpoll
    refine ⟨_, ?_, (Site.quiet_release v.post { s with now := s.now + wait }).channel_eq⟩
    simp only [w, Drain.move?, hclosed, Drain.work, hholding, if_true]
    rfl

end Rush

end TaskRelay
