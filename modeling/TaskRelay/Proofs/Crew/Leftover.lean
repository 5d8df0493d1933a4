import TaskRelay.Proofs.Crew.Clearing
import TaskRelay.Proofs.Crew.Lapse

/-!
# When drains clear their topics

A drain waits longer after it has put a task back, but only for the next batch: with that batch the
task is forgotten.  So a retry that is held back for longer than an idle poll is left behind if
something else comes in between.  `Leftover` has a drain put a task back and then put a full batch
of noise aside; after an idle poll it is done, and the task is still on its topic.

Where no retry is held back for longer than an idle poll, every drain that ends well has cleared its
topic, and these are all settings for which that is so (`Crew.drains_clear_iff`).
-/

namespace TaskRelay

/-! ## A task that is forgotten -/

namespace Leftover

variable {settings : CollectionSettings} {policy : RetryPolicy}

/-- A step never has its task done. -/
def attempt : Attempt :=
  { reply := .outcome .reschedule }

def pipeline (policy : RetryPolicy) : Pipeline :=
  { Sample.pipeline with retry := policy }

def service : Service Unit :=
  { supports := fun _ => true, invoke := fun _ state => (attempt, state) }

/-- The first tick comes after an idle poll. -/
def ttl (settings : CollectionSettings) : Nat :=
  3 * settings.idlePoll + 3

/-- As many copies of a message as make a batch. -/
def rush (settings : CollectionSettings) (m : Message) : List Held :=
  List.replicate (Rush.batchSize settings) { topic := "t", message := m, due := 0 }

/-- A batch of one task, and a batch of noise. -/
def site (settings : CollectionSettings) (policy : RetryPolicy) : Site Unit :=
  { Sample.site (ttl settings) attempt with
    engines := [{ pipeline := pipeline policy, state := (), service }]
    channel := { held := rush settings Sample.message ++ rush settings Sample.noise } }

def acquired (settings : CollectionSettings) (policy : RetryPolicy) : Site Unit :=
  { site settings policy with leases := ({ ttl := ttl settings } : LeaseTable).grant "t" "a" 0 }

/-- The drain when it begins to collect. -/
def gathering (settings : CollectionSettings) (now wait : Nat) (report : DrainReport) : Drain :=
  { post := Sample.post "a" settings, report
    stage := .collecting (.start now wait) (.begin now (ttl settings)) }

/-! ### The step -/

/-- The task is held back for the delay of the policy. -/
theorem conclude?_reschedule (hretries : policy.maxRetries ≠ 0) {context : Context}
    (hcounter : context.loopCounter = 0) :
    ∃ m, (pipeline policy).conclude? ∅ context attempt.reply =
      some { requeue := some (m, policy.delay), continuation := .requeued 1 policy.delay } := by
  have hdecide : policy.decide .reschedule 0 = .retry 1 policy.delay := by
    have hnot : policy.isExhausted (RetryPolicy.succCounter 0) = false := by
      rw [RetryPolicy.isExhausted, decide_eq_false_iff_not, UInt32.not_lt]
      exact UInt32.le_iff_toNat_le.2 (UInt32.pos_iff_ne_zero.2 hretries)
    rw [RetryPolicy.decide, hnot]
    rfl
  refine ⟨{ attributes := context.carriedAttributes (pipeline policy).carry
            payload := TaskList.encode ⟨[context.retryTask 1]⟩ }, ?_⟩
  show some ((pipeline policy).concludeOutcome ∅ context .reschedule) = _
  rw [Pipeline.concludeOutcome, show (pipeline policy).retry = policy from rfl, hcounter, hdecide]
  rfl

def dispatch (policy : RetryPolicy) (id : String) (start : Nat) : Site.Dispatch :=
  { engine := 0, pipeline := pipeline policy, context := Context.rehydrate Rush.task ∅ id
    rest := ∅, attempt, start }

variable {messages : List Message} {s : Site Unit}

theorem exists_call (received : Nat)
    (hs : Site.Serves (Sample.post "a" settings) (pipeline policy) service () messages s) :
    ∃ id t, (Sample.post "a" settings).work (Rush.batch (received + 1)) s =
        (.dispatched (dispatch policy id t.now), t) ∧
      Site.Serves (Sample.post "a" settings) (pipeline policy) service () messages t ∧
      t.channel = s.channel := by
  let correlation := (Rush.batch (received + 1)).correlationOf? (pipeline policy).order
  have hgiven := hs.idFor correlation
  have hchannel := Site.channel_idFor s correlation
  rcases hid : s.idFor correlation with ⟨id, given⟩
  rw [hid] at hgiven hchannel
  let e : Engine Unit := { pipeline := pipeline policy, state := (), service }
  let t := given.calling 0 e (Context.rehydrate Rush.task ∅ id) id
  have hbegin : s.beginIteration 0 e (Rush.batch (received + 1)) =
      (.dispatched (dispatch policy id t.now), t) := by
    have hchoose : (pipeline policy).choose (Rush.batch (received + 1)) id =
      .dispatch (Context.rehydrate Rush.task ∅ id) ∅ := rfl
    rw [Site.beginIteration_eq, hid]
    simp only [e, hchoose]
    rfl
  refine ⟨id, t, Post.work_of_dispatched rfl hs.engine hbegin, (hgiven.calling _ id).2, ?_⟩
  exact (Site.channel_calling given 0 e _ id).trans hchannel

theorem exists_end (hretries : policy.maxRetries ≠ 0)
    (hs : Site.Serves (Sample.post "a" settings) (pipeline policy) service () messages s)
    (id : String) (start : Nat) :
    ∃ u m, s.endIteration (dispatch policy id start) =
        (some (.ok (.requeued 1 policy.delay)), u) ∧
      u.channel = s.channel.publish "t" m (s.now + policy.delay) := by
  let context := Context.rehydrate Rush.task ∅ id
  let d := dispatch policy id start
  obtain ⟨m, hreschedule⟩ := conclude?_reschedule hretries (show context.loopCounter = 0 from rfl)
  let c : Conclusion :=
    { requeue := some (m, policy.delay), continuation := .requeued 1 policy.delay }
  have hconclude : d.pipeline.conclude? d.rest (d.context.editAll d.attempt.edits)
    d.attempt.reply = some c := hreschedule
  have hcarry : s.carryOut 0 (pipeline policy) context.correlationId c =
      (.ok c.continuation, (s.carryOut 0 (pipeline policy) context.correlationId c).2) := by
    obtain ⟨u, hcarry, -⟩ := hs.carryOut rfl context.correlationId c
    exact hcarry ▸ rfl
  refine ⟨_, m, ?_, Site.channel_carryOut hs.reliable.canPublish 0 (pipeline policy)
    context.correlationId c⟩
  rw [Site.endIteration_eq, hconclude]
  exact congrArg (fun r => (some r.1, r.2)) hcarry

/-! ### The drain -/

def opening (settings : CollectionSettings) (policy : RetryPolicy) : Crew Unit :=
  Rush.crew (site settings policy) { post := Sample.post "a" settings }

theorem perform?_opening (settings : CollectionSettings) (policy : RetryPolicy) :
    (opening settings policy).perform? (.move 0) =
      some (Rush.crew (acquired settings policy) (gathering settings 0 settings.idlePoll {})) :=
  Rush.perform?_of_move? rfl

/-- The drain collects a batch of which it takes all messages at once. -/
theorem replay?_rush {m : Message} {rest : List Held} {w : Drain} {t : Site Unit} (wait : Nat)
    (report : DrainReport) (hfault : s.faults .receive = 0)
    (hheld : s.channel.held = rush settings m ++ rest)
    (hwork : ∀ stage,
      ({ post := Sample.post "a" settings, report, stage } : Drain).work true
        (some ((∅ : Batch).absorbAll (List.replicate (Rush.batchSize settings) m)))
        { s with channel := { s.channel with held := rest } } = (w, t)) :
    (Rush.crew s (gathering settings s.now wait report)).replay?
      (List.replicate (Rush.batchSize settings) (.move 0)) = some (Rush.crew t w) := by
  have hgather := Rush.replay?_collecting (v := { post := Sample.post "a" settings, report })
    (w := w) (t := t) (.begin s.now (ttl settings)) wait rest (rush settings m) s []
  rw [rush, List.length_replicate, List.map_replicate] at hgather
  refine hgather ?_ hheld hfault ?_ (Nat.zero_add _) hwork
  · intro hnil
    rw [List.replicate_eq_nil_iff] at hnil
    exact Nat.ne_of_gt (Rush.batchSize_pos settings) hnil
  · intro h hh
    rw [List.eq_of_mem_replicate hh]
    exact decide_eq_true (Nat.zero_le s.now)

/-- The drain puts the task back, and will wait for it. -/
theorem replay?_task (settings : CollectionSettings) (hretries : policy.maxRetries ≠ 0) :
    ∃ u m, (Rush.crew (acquired settings policy)
          (gathering settings 0 settings.idlePoll {})).replay?
          (List.replicate (Rush.batchSize settings) (.move 0) ++ [.move 0]) =
        some (Rush.crew u (gathering settings u.now (settings.idlePoll + policy.delay)
          { iterations := 1, last := some (.requeued 1 policy.delay) })) ∧
      Site.Keeps (acquired settings policy) u ∧
      u.channel.held =
        rush settings Sample.noise ++ [{ topic := "t", message := m, due := policy.delay }] := by
  obtain ⟨received, hsize⟩ := Nat.exists_eq_succ_of_ne_zero
    (Nat.ne_of_gt (Rush.batchSize_pos settings))
  let s : Site Unit :=
    { acquired settings policy with channel := { held := rush settings Sample.noise } }
  have hserves : Site.Serves (Sample.post "a" settings) (pipeline policy) service ()
      (s.channel.messages "t") s := ⟨fun _ => rfl, rfl, rfl⟩
  obtain ⟨id, t, hwork, hserves, hchannel⟩ := exists_call received hserves
  obtain ⟨u, m, hend, hpublished⟩ := exists_end hretries hserves id t.now
  have hcalled : Site.Keeps s t := Post.keeps_of_work hwork
  have hended : Site.Keeps s u := hcalled.trans (Site.keeps_of_endIteration hend)
  refine ⟨u, m, ?_, ⟨hended.now_eq, hended.leases_eq, hended.roles_eq, hended.faults_le⟩, ?_⟩
  · have htaken := replay?_rush (s := acquired settings policy) (m := Sample.message)
      (w := { post := Sample.post "a" settings
              stage := .working (dispatch policy id t.now) (Post.ticker t) true })
      (t := t) settings.idlePoll {} rfl rfl fun stage => by
        rw [hsize, Rush.absorbAll_replicate]
        simp only [Drain.work]
        exact hwork ▸ rfl
    have hmove : ({ post := Sample.post "a" settings
                    stage := .working (dispatch policy id t.now) (Post.ticker t) true } :
        Drain).move? t = some (gathering settings u.now (settings.idlePoll + policy.delay)
          { iterations := 1, last := some (.requeued 1 policy.delay) }, u) := by
      have hfault : u.faults .receive = 0 := hended.faults_eq_zero rfl
      have hticker : Post.ticker u = .begin u.now (ttl settings) := by
        rw [Post.ticker, hended.leases_eq]
        rfl
      simp only [Drain.move?, show (dispatch policy id t.now).ends ≤ t.now from Nat.le_refl _,
        if_true, hend, Drain.next, Drain.collect_of_no_fault hfault, hticker]
      rfl
    rw [Crew.replay?_append]
    refine Option.bind_eq_some_iff.2 ⟨_, htaken, ?_⟩
    rw [Crew.replay?, Rush.perform?_of_move? hmove]
    rfl
  · rw [hpublished, hchannel, hcalled.now_eq]
    show rush settings Sample.noise ++ [_] = _
    rw [show s.now = 0 from rfl, Nat.zero_add]

theorem absorbAll_noise (received : Nat) :
    (∅ : Batch).absorbAll (List.replicate received Sample.noise) = { rejected := received } := by
  have hnone : (∅ : TaskList).mergeText? Sample.noise.payload = none := by decide +kernel
  induction received with
  | zero => rfl
  | succ received ih =>
    rw [List.replicate_succ', Rush.absorbAll_append, ih, Batch.absorb]
    simp only [hnone]

/-- The drain puts a batch of noise aside and waits no longer than ever. -/
theorem replay?_noise {rest : List Held} (wait : Nat) (report : DrainReport)
    (hkeeps : Site.Keeps (acquired settings policy) s)
    (hheld : s.channel.held = rush settings Sample.noise ++ rest) :
    (Rush.crew s (gathering settings s.now wait report)).replay?
        (List.replicate (Rush.batchSize settings) (.move 0)) =
      some (Rush.crew { s with channel := { s.channel with held := rest } }
        (gathering settings s.now settings.idlePoll report)) := by
  let t : Site Unit := { s with channel := { s.channel with held := rest } }
  have hfault : t.faults .receive = 0 := hkeeps.faults_eq_zero (o := .receive) rfl
  have hticker : Post.ticker t = .begin s.now (ttl settings) := by
    rw [Post.ticker, show t.leases = s.leases from rfl, hkeeps.leases_eq]
    rfl
  refine replay?_rush wait report hfault hheld fun stage => ?_
  have hwork : (Sample.post "a" settings).work ((∅ : Batch).absorbAll
      (List.replicate (Rush.batchSize settings) Sample.noise)) t = (.ended (.ok none), t) := by
    rw [absorbAll_noise]
    rfl
  simp only [Drain.work]
  rw [hwork]
  simp only [Drain.next, if_true, Drain.collect_of_no_fault hfault, hticker]
  rfl

/-! ### The whole run -/

/-- What happens from the acquire of the drain to its release. -/
def between (settings : CollectionSettings) : List Deed :=
  (List.replicate (Rush.batchSize settings) (.move 0) ++ [.move 0]) ++
    (List.replicate (Rush.batchSize settings) (.move 0) ++ [.pass settings.idlePoll])

/-- What the drain has done when it ends. -/
def report (policy : RetryPolicy) : DrainReport :=
  { iterations := 1, last := some (.requeued 1 policy.delay) }

/-- All that happens. -/
def deeds (settings : CollectionSettings) : List Deed :=
  .move 0 :: (between settings ++ [.move 0])

theorem mem_between {d : Deed} (h : d ∈ between settings) :
    d = .move 0 ∨ d = .pass settings.idlePoll := by
  simp only [between, List.mem_append, List.mem_replicate, List.mem_singleton] at h
  rcases h with (⟨-, rfl⟩ | rfl) | ⟨-, rfl⟩ | rfl
  · exact .inl rfl
  · exact .inl rfl
  · exact .inl rfl
  · exact .inr rfl

/-- The drain when it has ended. -/
def finished (settings : CollectionSettings) (policy : RetryPolicy) : Drain :=
  { post := Sample.post "a" settings, report := report policy
    stage := .ended (.ok (report policy)) }

/-- When an idle poll is over, the drain is done. -/
theorem replay?_between (hretries : policy.maxRetries ≠ 0)
    (hdelay : settings.idlePoll < policy.delay) :
    ∃ s t v m,
      (Rush.crew (acquired settings policy) (gathering settings 0 settings.idlePoll {})).replay?
        (between settings) = some (Rush.crew s v) ∧
      v.move? s = some (finished settings policy, t) ∧
      s.now = settings.idlePoll ∧ s.leases = (acquired settings policy).leases ∧
      t.channel.held = [{ topic := "t", message := m, due := policy.delay }] := by
  obtain ⟨u, m, htask, hkeeps, hheld⟩ := replay?_task settings hretries
  have hnow : u.now = 0 := hkeeps.now_eq
  have hnoise := replay?_noise (settings.idlePoll + policy.delay) (report policy) hkeeps hheld
  let s : Site Unit := { u with
    channel := { u.channel with held := [{ topic := "t", message := m, due := policy.delay }] } }
  have hlater : s.now + settings.idlePoll = settings.idlePoll := by
    rw [show s.now = 0 from hnow, Nat.zero_add]
  have hlate : ∀ h ∈ s.channel.onTopic "t", s.now + settings.idlePoll < h.due := by
    intro h hh
    rw [List.mem_singleton.1 hh, hlater]
    exact hdelay
  have hticks : s.now + settings.idlePoll ≤ (Ticker.begin s.now (ttl settings)).due := by
    have hthird := Ticker.le_three_mul_longestGap (ttl settings)
    have httl : ttl settings = 3 * settings.idlePoll + 3 := rfl
    rw [Ticker.due_begin]
    omega
  obtain ⟨hpass, t, hmove, hchannel⟩ := Rush.idles
    (v := { post := Sample.post "a" settings, report := report policy }) rfl hticks hlate
  rw [hlater] at hpass hmove
  refine ⟨_, t, _, m, ?_, hmove, rfl, hkeeps.leases_eq, by rw [hchannel]⟩
  rw [between, Crew.replay?_append]
  refine Option.bind_eq_some_iff.2 ⟨_, htask, ?_⟩
  rw [Crew.replay?_append]
  refine Option.bind_eq_some_iff.2 ⟨_, hnoise, ?_⟩
  exact Option.bind_eq_some_iff.2 ⟨_, hpass, rfl⟩

/-- The lease of the drain is live in the end, and there is a message on its topic. -/
theorem exists_drainsAlone (hretries : policy.maxRetries ≠ 0)
    (hdelay : settings.idlePoll < policy.delay) :
    ∃ last, Crew.DrainsAlone (opening settings policy) last 0
        { post := Sample.post "a" settings } (pipeline policy) (deeds settings) ∧
      Crew.KeepsLease (opening settings policy) 0 { post := Sample.post "a" settings }
        (deeds settings) ∧
      last.site.channel.pending "t" = 1 := by
  obtain ⟨s, t, v, m, hrun, hmove, hnow, hleases, hheld⟩ :=
    replay?_between hretries hdelay
  have hopening := perform?_opening settings policy
  have hrelease := Rush.perform?_of_move? hmove
  have hwhole : (opening settings policy).replay? (deeds settings) =
      some (Rush.crew t (finished settings policy)) := by
    refine Option.bind_eq_some_iff.2 ⟨_, hopening, ?_⟩
    rw [Crew.replay?_append]
    refine Option.bind_eq_some_iff.2 ⟨_, hrun, ?_⟩
    exact Option.bind_eq_some_iff.2 ⟨_, hrelease, rfl⟩
  have hdrains : Crew.Drains (opening settings policy)
      (Rush.crew (acquired settings policy) (gathering settings 0 settings.idlePoll {}))
      (Rush.crew s v) 0 { post := Sample.post "a" settings } (between settings) := by
    refine ⟨rfl, rfl, hopening, hrun, ⟨_, _, _, hrelease, rfl, rfl⟩,
      fun _ hw => absurd hw List.not_mem_nil, fun d hd => ?_⟩
    rcases mem_between hd with rfl | rfl
    · rfl
    · rfl
  refine ⟨_, ⟨rfl, rfl, ⟨_, rfl⟩, rfl, ?_, hwhole, ?_, ⟨_, _, rfl, rfl⟩⟩,
    ⟨_, _, _, rfl, hdrains, hdrains.keepsOut_iff.2 ?_⟩, ?_⟩
  · -- everything is due in the beginning
    intro h hh
    have hmem := (List.mem_filter.1 hh).1
    rcases List.mem_append.1 hmem with hmem | hmem
    · exact Nat.le_of_eq (congrArg Held.due (List.eq_of_mem_replicate hmem))
    · exact Nat.le_of_eq (congrArg Held.due (List.eq_of_mem_replicate hmem))
  · refine Crew.onlyPublisher_of_forall hwhole fun d hd => ?_
    rw [deeds, List.mem_cons, List.mem_append, List.mem_singleton] at hd
    rcases hd with rfl | hd | rfl
    · exact .inl rfl
    · exact (mem_between hd).imp_right fun h => ⟨_, h⟩
    · exact .inl rfl
  · refine LeaseTable.holder?_eq_some_iff.2 ⟨0 + ttl settings, ?_, ?_⟩
    · show s.leases.get? "t" = _
      rw [hleases]
      exact LeaseTable.get?_grant_self _ _ _ _
    · show s.now < 0 + ttl settings
      rw [hnow, ttl]
      omega
  · show (t.channel.onTopic "t").length = 1
    rw [Channel.onTopic, hheld]
    rfl

end Leftover

/-! ## Which drains clear their topics -/

theorem RetryPolicy.longestDelay_le_iff {p : RetryPolicy} {time : Nat} :
    p.longestDelay ≤ time ↔ p.maxRetries = 0 ∨ p.delay ≤ time := by
  unfold longestDelay
  split
  · next hnone => exact ⟨fun _ => .inl hnone, fun _ => Nat.zero_le _⟩
  · next hsome => exact ⟨.inr, fun h => h.resolve_left hsome⟩

namespace Crew

/-- **When a drain clears its topic.**  All drains with given settings and a given retry policy that
begin with deliverable messages only, with nobody else to publish, keep their leases and end well
leave nothing behind, whatever their steps do, exactly if the policy puts no task back or holds it
back no longer than an idle poll.  A drain that begins with one message at most never leaves
anything behind. -/
theorem drains_clear_iff (settings : CollectionSettings) (policy : RetryPolicy) :
    ((∀ (σ : Type) (c₀ c₁ : Crew σ) (j : Nat) (v : Drain) (pl : Pipeline) (deeds : List Deed),
        v.post.settings = settings → pl.retry = policy → DrainsAlone c₀ c₁ j v pl deeds →
          c₀.KeepsLease j v deeds → c₁.site.channel.pending v.post.topic = 0) ↔
      policy.maxRetries = 0 ∨ policy.delay ≤ settings.idlePoll) ∧
    ∀ (σ : Type) (c₀ c₁ : Crew σ) (j : Nat) (v : Drain) (pl : Pipeline) (deeds : List Deed),
      DrainsAlone c₀ c₁ j v pl deeds → c₀.site.channel.pending v.post.topic ≤ 1 →
        c₁.site.channel.pending v.post.topic = 0 := by
  refine ⟨⟨fun hall => ?_, ?_⟩, fun σ c₀ c₁ j v pl deeds hdrains hone =>
    hdrains.pending_eq_zero (.inr hone)⟩
  · by_cases hretries : policy.maxRetries = 0
    · exact .inl hretries
    · refine .inr (Nat.le_of_not_lt fun hdelay => ?_)
      obtain ⟨last, hdrains, hkeeps, hleft⟩ := Leftover.exists_drainsAlone hretries hdelay
      have hclear := hall Unit _ last 0 _ _ _ rfl rfl hdrains hkeeps
      exact absurd (hleft.symm.trans hclear) (by decide)
  · rintro hshort σ c₀ c₁ j v pl deeds rfl rfl hdrains -
    exact hdrains.pending_eq_zero (.inl (RetryPolicy.longestDelay_le_iff.2 hshort))

/-- A site where the tasks for `a` are put back for a tenth of a second, and all others are done. -/
def mixedSite : Site Unit :=
  { Sample.site 3000 { reply := .outcome .done } with
    engines := [{
      pipeline := Leftover.pipeline { maxRetries := 1, delay := 100 }, state := ()
      service := {
        supports := fun _ => true
        invoke := fun context state =>
          (if context.task.destination = "a" then { reply := .outcome .reschedule }
            else { reply := .outcome .done }, state) } }] }

/-- Two runs are triggered, one with a task that is put back, and one with a task that is done. -/
def twoRuns (idlePoll : Nat) : Crew Unit :=
  let trigger (s : Site Unit) (d : Destination) :=
    (s.trigger Sample.pipeline ⟨[{ phase := "p", destination := d }]⟩ ∅).2
  { site := ["a", "b"].foldl trigger mixedSite
    workers := [.drain { post := Sample.post "drain" { maxMessages := 1, idlePoll } }] }

/-- The drain waits for the task that has been put back, and gives it up. -/
def patient : List Deed :=
  [.move 0, .move 0, .move 0, .move 0, .pass 100, .move 0, .move 0, .pass 200]

theorem drains_clear_iff_patient :
    ∃ last, (twoRuns 100).replay? (.move 0 :: (patient ++ [.move 0])) = some last ∧
      last.site.channel.pending "t" = 0 := by
  let v : Drain := { post := Sample.post "drain" { maxMessages := 1, idlePoll := 100 } }
  have hreplay : (((twoRuns 100).perform? (.move 0)).bind fun c₁ => (c₁.replay? patient).bind
      fun c₂ => (c₂.perform? (.move 0)).bind fun c₃ => some (c₂.workers.length,
        c₂.site.leases.holder? "t" c₂.site.now, c₃.workers[0]?.bind report?)) =
      some (1, some "drain", some { iterations := 3, last := some .complete }) := by
    decide +kernel
  obtain ⟨c₁, hacquire, hreplay⟩ := Option.bind_eq_some_iff.1 hreplay
  obtain ⟨c₂, hrun, hreplay⟩ := Option.bind_eq_some_iff.1 hreplay
  obtain ⟨c₃, hrelease, hreplay⟩ := Option.bind_eq_some_iff.1 hreplay
  simp only [Option.some.injEq, Prod.mk.injEq] at hreplay
  obtain ⟨hlength, hholder, hreport⟩ := hreplay
  have hdeeds : ∀ d ∈ Deed.move 0 :: (patient ++ [.move 0]),
      d = .move 0 ∨ ∃ instant, d = .pass instant := by
    simp [patient]
  have hwhole : (twoRuns 100).replay? (.move 0 :: (patient ++ [.move 0])) = some c₃ := by
    refine Option.bind_eq_some_iff.2 ⟨c₁, hacquire, ?_⟩
    rw [replay?_append, hrun, Option.bind_some, replay?, hrelease]
    rfl
  have hdrains : Drains (twoRuns 100) c₁ c₂ 0 v patient :=
    drains_of_report? rfl rfl hacquire hrun hrelease hlength hreport
      (by simp [patient, Deed.callsFor])
  have halone : DrainsAlone (twoRuns 100) c₃ 0 v (Leftover.pipeline { maxRetries := 1, delay := 100 })
      (.move 0 :: (patient ++ [.move 0])) :=
    ⟨rfl, rfl, ⟨_, rfl⟩, rfl, by decide +kernel, hwhole, onlyPublisher_of_forall hwhole hdeeds,
      exists_drain_of_report? hreport⟩
  have hclear := (drains_clear_iff { maxMessages := 1, idlePoll := 100 }
    { maxRetries := 1, delay := 100 }).1.2 (.inr (by decide)) Unit _ _ _ _ _ _ rfl rfl halone
    ⟨c₁, c₂, patient, rfl, hdrains, hdrains.keepsOut_iff.2 hholder⟩
  exact ⟨c₃, hwhole, hclear⟩

/-- The drain works on both runs and then waits for an idle poll; the task that has been put back is
still on its topic. -/
theorem left_behind_impatient :
    ((twoRuns 10).replay? [.move 0, .move 0, .move 0, .move 0, .move 0, .pass 10, .move 0]).map
        (fun c => (c.workers.map report?, c.site.channel.pending "t")) =
      some ([some { iterations := 2, last := some .complete }], 1) := by
  decide +kernel

end Crew

end TaskRelay
