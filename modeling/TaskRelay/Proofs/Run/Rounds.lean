import TaskRelay.Proofs.Collection
import TaskRelay.Proofs.Run.Plain
import TaskRelay.Proofs.Worker.Turn

/-!
# Rounds

Somebody who drives a run asks for the next batch, again and again, and runs an iteration on each
one that comes (`Site.Round`).  Between any two of these steps time may pass as it likes, and how
long to wait for a batch may be different every time.

Where no call fails, what a site does is an equation for its observations, and the engine and the
messages of the topic are as `Site.Serves` says.
-/

namespace TaskRelay

variable {σ : Type}

/-! ## Driving a run -/

namespace Site

/-- From a receive of a collection to the end of the collection, which has come to `b`. -/
inductive Polls (p : Post) : Collection → Option Batch → Site σ → Site σ → Prop
  | pass {c : Collection} {b : Option Batch} {s t : Site σ} {instant : Nat}
      (hle : s.now ≤ instant) (hrest : Polls p c b { s with now := instant } t) : Polls p c b s t
  | receive {c next : Collection} {b : Option Batch} {s t u : Site σ}
      (hpoll : p.poll? c s = some (.receiving (.ok next), u)) (hrest : Polls p next b u t) :
      Polls p c b s t
  | close {c : Collection} {b : Option Batch} {s t : Site σ}
      (hpoll : p.poll? c s = some (.batch b, t)) : Polls p c b s t

/-- An iteration of the engine of a post on a batch, from its beginning to its end. -/
inductive Iterates (p : Post) (b : Batch) (s : Site σ) : Site σ → Prop
  | atOnce {e : Engine σ} {result : Except ChannelError Continuation} {t : Site σ}
      (hengine : s.engines[p.engine]? = some e)
      (hbegin : s.beginIteration p.engine e b = (.ended result, t)) : Iterates p b s t
  | called {e : Engine σ} {d : Dispatch} {result : Option (Except ChannelError Continuation)}
      {t u : Site σ} {instant : Nat} (hengine : s.engines[p.engine]? = some e)
      (hbegin : s.beginIteration p.engine e b = (.dispatched d, u)) (hle : u.now ≤ instant)
      (hends : d.ends ≤ instant)
      (hend : ({ u with now := instant } : Site σ).endIteration d = (result, t)) :
      Iterates p b s t

/-- One iteration, with everything that comes before it. -/
inductive Round (p : Post) : Site σ → Site σ → Prop
  | pass {s t : Site σ} {instant : Nat} (hle : s.now ≤ instant)
      (hrest : Round p { s with now := instant } t) : Round p s t
  /-- No message has come in time. -/
  | skip {s t u v : Site σ} {wait : Nat} {c : Collection} (hcollect : p.collect wait s = (.ok c, u))
      (hpolls : Polls p c none u v) (hrest : Round p v t) : Round p s t
  | work {s t u v : Site σ} {wait : Nat} {c : Collection} {b : Batch}
      (hcollect : p.collect wait s = (.ok c, u)) (hpolls : Polls p c (some b) u v)
      (hiterates : Iterates p b v t) : Round p s t

inductive Rounds (p : Post) : Nat → Site σ → Site σ → Prop
  | none {s : Site σ} : Rounds p 0 s s
  | more {n : Nat} {s t u : Site σ} (hround : Round p s t) (hrest : Rounds p n t u) :
      Rounds p (n + 1) s u

theorem Rounds.snoc {p : Post} {n : Nat} {s t u : Site σ} (h : Rounds p n s t)
    (hround : Round p t u) : Rounds p (n + 1) s u := by
  induction h with
  | none => exact .more hround .none
  | more hfirst hrest ih => exact .more hfirst (ih hround)

theorem Rounds.exists_round {p : Post} {m n : Nat} {s t : Site σ} (h : Rounds p n s t)
    (hm : m < n) : ∃ u w, Rounds p m s u ∧ Round p u w := by
  induction h generalizing m with
  | none => exact absurd hm (Nat.not_lt_zero m)
  | more hfirst hrest ih =>
    cases m with
    | zero => exact ⟨_, _, .none, hfirst⟩
    | succ m =>
      obtain ⟨u, w, hrounds, hround⟩ := ih (Nat.lt_of_succ_lt_succ hm)
      exact ⟨u, w, .more hfirst hrounds, hround⟩

end Site

/-! ## Observations -/

/-- What an entry shows of a run. -/
def Entry.observation? : Entry → Option Observation
  | .event e =>
    some (.report e.correlationId e.domain
      { action := e.action, state := e.state, detail := e.detail })
  | .dispatch _ context => some (.dispatch context)
  | .continued _ c => some (.continued c)
  | .notes _ _ _ => none

namespace Site

def observations (s : Site σ) : List Observation :=
  s.journal.reverse.filterMap fun e => e.2.observation?

/-- No call fails. -/
def IsReliable (s : Site σ) : Prop :=
  ∀ o, s.faults o = 0

theorem IsReliable.canPublish {s : Site σ} (h : s.IsReliable) : s.CanPublish :=
  ⟨h .publish, h .publishDelayed⟩

theorem Keeps.isReliable {s t : Site σ} (h : Keeps s t) (hs : s.IsReliable) : t.IsReliable :=
  fun o => h.faults_eq_zero (hs o)

theorem observations_pass (s : Site σ) (instant : Nat) :
    ({ s with now := instant } : Site σ).observations = s.observations := rfl

theorem observations_record (s : Site σ) (e : Entry) :
    (s.record e).observations = s.observations ++ e.observation?.toList := by
  rw [observations, record, List.reverse_cons, List.filterMap_append, observations]
  cases h : e.observation? <;> simp [h]

theorem observations_report {s : Site σ} (hs : s.IsReliable) (id domain : String) (n : Notice) :
    (s.report id domain n).observations = s.observations ++ [.report id domain n] := by
  rw [report, call_eq_of_no_fault (hs .report)]
  exact observations_record s _

theorem observations_reportAll {s : Site σ} (hs : s.IsReliable) (id domain : String)
    (notices : List Notice) :
    (s.reportAll id domain notices).observations =
      s.observations ++ notices.map (.report id domain) := by
  induction notices generalizing s with
  | nil => exact (List.append_nil _).symm
  | cons n notices ih =>
    have hreported := (keeps_report s id domain n).isReliable hs
    rw [reportAll, List.foldl_cons, ← reportAll, ih hreported, observations_report hs,
      List.append_assoc]
    rfl

theorem observations_idFor (s : Site σ) (id : Option String) :
    (s.idFor id).2.observations = s.observations := by
  cases id <;> rfl

theorem observations_noted (s : Site σ) (d : Dispatch) :
    (s.noted d).observations = s.observations := by
  rw [noted]
  split
  · rfl
  · exact (observations_record s _).trans (List.append_nil _)

/-! ## What the engine of a post has to do with -/

/-- The engine of a post, with the state of its steps, and the messages of its topic. -/
structure Serves (p : Post) (pl : Pipeline) (v : Service σ) (state : σ) (messages : List Message)
    (s : Site σ) : Prop where
  reliable : s.IsReliable
  engine : s.engines[p.engine]? = some { pipeline := pl, service := v, state }
  messages : s.channel.messages p.topic = messages

variable {p : Post} {pl : Pipeline} {v : Service σ} {state : σ} {messages : List Message}
  {s : Site σ}

theorem Serves.pass (h : Serves p pl v state messages s) (instant : Nat) :
    Serves p pl v state messages { s with now := instant } :=
  ⟨h.reliable, h.engine, h.messages⟩

theorem Serves.reportAll (h : Serves p pl v state messages s) (id domain : String)
    (notices : List Notice) : Serves p pl v state messages (s.reportAll id domain notices) :=
  ⟨(keeps_reportAll s id domain notices).isReliable h.reliable,
    by rw [engines_reportAll]; exact h.engine, by rw [channel_reportAll]; exact h.messages⟩

theorem Serves.idFor (h : Serves p pl v state messages s) (id : Option String) :
    Serves p pl v state messages (s.idFor id).2 :=
  ⟨(keeps_idFor s id).isReliable h.reliable, by rw [engines_idFor]; exact h.engine,
    by rw [channel_idFor]; exact h.messages⟩

theorem Serves.record (h : Serves p pl v state messages s) (e : Entry) :
    Serves p pl v state messages (s.record e) :=
  ⟨h.reliable, h.engine, h.messages⟩

theorem Serves.noted (h : Serves p pl v state messages s) (d : Dispatch) :
    Serves p pl v state messages (s.noted d) := by
  rw [Site.noted]
  split
  · exact h
  · exact h.record _

end Site

theorem Channel.messages_publish (c : Channel) (topic : String) (m : Message) (due : Nat) :
    (c.publish topic m due).messages topic = c.messages topic ++ [m] := by
  simp [messages, onTopic, publish]

namespace Site

variable {p : Post} {pl : Pipeline} {v : Service σ} {state : σ} {messages : List Message}
  {s : Site σ}

theorem Serves.publish (h : Serves p pl v state messages s) (m : Message) (delay : Option Nat) :
    ∃ t, s.publish p.topic m delay = (.ok (), t) ∧ t.observations = s.observations ∧
      Serves p pl v state (messages ++ [m]) t := by
  have hfault : s.faults (publishing delay) = 0 := h.reliable _
  refine ⟨_, publish_eq s p.topic m delay hfault, rfl, h.reliable, h.engine, ?_⟩
  rw [Channel.messages_publish, h.messages]

theorem Serves.calling (h : Serves p pl v state messages s) (context : Context) (id : String) :
    let t := s.calling p.engine { pipeline := pl, service := v, state } context id
    t.observations = s.observations ++
        ((Pipeline.startNotices context).map (.report id pl.domain) ++ [.dispatch context]) ∧
      Serves p pl v (v.invoke context state).2 messages t := by
  have hreported := h.reportAll id pl.domain (Pipeline.startNotices context)
  have hseen := observations_reportAll h.reliable id pl.domain (Pipeline.startNotices context)
  simp only [Site.calling]
  generalize s.reportAll id pl.domain (Pipeline.startNotices context) = reported at hreported hseen ⊢
  refine ⟨?_, hreported.reliable, ?_, hreported.messages⟩
  · rw [← List.append_assoc, ← hseen]
    exact observations_record reported (.dispatch p.engine context)
  · obtain ⟨hlt, -⟩ := List.getElem?_eq_some_iff.1 hreported.engine
    exact List.getElem?_set_self hlt

/-- What a conclusion shows of a run. -/
def shown (pl : Pipeline) (id : String) (c : Conclusion) : List Observation :=
  c.notices.map (.report id pl.domain) ++ [.continued c.continuation]

theorem Serves.carryOut (h : Serves p pl v state messages s) (htopic : pl.topic = p.topic)
    (id : String) (c : Conclusion) :
    ∃ t, s.carryOut p.engine pl id c = (.ok c.continuation, t) ∧
      t.observations = s.observations ++ shown pl id c ∧
      Serves p pl v state (messages ++ (c.requeue.map Prod.fst).toList) t := by
  have hreported := h.reportAll id pl.domain c.notices
  have hseen := observations_reportAll h.reliable id pl.domain c.notices
  rw [Site.carryOut]
  generalize s.reportAll id pl.domain c.notices = reported at hreported hseen ⊢
  cases hrequeue : c.requeue with
  | none =>
    refine ⟨_, rfl, ?_, ?_⟩
    · rw [observations_record, hseen, List.append_assoc]
      rfl
    · rw [Option.map_none, Option.toList_none, List.append_nil]
      exact hreported.record _
  | some requeue =>
    obtain ⟨m, delay⟩ := requeue
    obtain ⟨t, hpublish, hsame, hserves⟩ :=
      hreported.publish m (if delay = 0 then none else some delay)
    simp only [htopic, hpublish]
    refine ⟨_, rfl, ?_, hserves.record _⟩
    rw [observations_record, hsame, hseen, List.append_assoc]
    rfl

end Site

end TaskRelay
