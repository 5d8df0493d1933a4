import TaskRelay.Proofs.Context
import TaskRelay.Proofs.Run.Calls
import TaskRelay.Proofs.TaskList.Lookup

/-!
# One correlation id per run

The id of a run is read anew in each iteration, from the headers of the task and, where the task has
none, from the attributes of the run.  A step cannot write it, so a task that is put back has the id
that it came with.  A task that a step lets follow, however, keeps the headers with which it has
been scheduled, its own correlation id included, and that is the id of all that comes after its
dispatch.  A run keeps its id whatever its steps do exactly if the tasks that they may let follow
have none of their own, or that of the run (`Site.keepsId_iff`).
-/

namespace TaskRelay

variable {σ : Type}

/-- A task has no correlation id of its own other than that of the run. -/
def Task.FitsRun (id : String) (t : Task) : Prop :=
  ∀ own, t.header? correlationHeader = some own → own = id

/-- The steps let no other tasks follow than allowed ones. -/
def Service.LetsFollow (v : Service σ) (allowed : Task → Prop) : Prop :=
  ∀ context state next, .scheduleFollowUp next ∈ (v.invoke context state).1.edits → allowed next

/-! ## What is left after an answer -/

theorem TaskList.mem_tasks_add {l : TaskList} {t u : Task} (h : u ∈ (l.add t).tasks) :
    u ∈ l.tasks ∨ u = t := by
  by_cases hmem : t.key ∈ l.keys
  · rw [add_of_mem hmem] at h
    exact .inl h
  · rw [add_of_not_mem hmem] at h
    simpa using h

/-- A task that is left was there besides, follows, or has been put back. -/
theorem Pipeline.mem_tasks_tasksAfter {p : Pipeline} {rest : TaskList} {context : Context}
    {outcome : Outcome} {t : Task} (h : t ∈ (p.tasksAfter rest context outcome).tasks) :
    t ∈ rest.tasks ∨ (∃ next, context.followUp = some next ∧ t = context.handedOn next) ∨
      ∃ loopCounter, t = context.retryTask loopCounter := by
  unfold tasksAfter at h
  split at h
  · rw [Context.preparedFollowUp_eq] at h
    cases hnext : context.followUp with
    | none =>
      rw [hnext] at h
      exact .inl h
    | some next =>
      rw [hnext] at h
      rcases TaskList.mem_tasks_add h with hrest | rfl
      · exact .inl hrest
      · exact .inr (.inl ⟨next, rfl, rfl⟩)
  · rcases TaskList.mem_tasks_add h with hrest | rfl
    · exact .inl hrest
    · exact .inr (.inr ⟨_, rfl⟩)
  · exact .inl h

namespace Context

theorem followUp_edit {c : Context} {e : Edit} {next : Task} (h : (c.edit e).followUp = some next) :
    c.followUp = some next ∨ e = .scheduleFollowUp next := by
  cases e with
  | setHeader name value =>
    rw [edit, setHeader] at h
    split at h <;> exact .inl h
  | scheduleFollowUp other =>
    cases h
    exact .inr rfl

/-- What follows was to follow before, or an edit has said so. -/
theorem followUp_editAll {c : Context} {edits : List Edit} {next : Task}
    (h : (c.editAll edits).followUp = some next) :
    c.followUp = some next ∨ .scheduleFollowUp next ∈ edits := by
  induction edits generalizing c with
  | nil => exact .inl h
  | cons e edits ih =>
    rcases ih h with hbefore | hmem
    · rcases followUp_edit hbefore with hsome | rfl
      · exact .inl hsome
      · exact .inr List.mem_cons_self
    · exact .inr (List.mem_cons_of_mem _ hmem)

end Context

/-! ## A run keeps its id -/

namespace PlainRun

variable {p : Pipeline} {v : Service σ} {r : PlainRun σ} {c : Call σ} {id : String}

/-- The run has the id, and no task has another one. -/
structure Carries (id : String) (r : PlainRun σ) : Prop where
  attributes : r.attributes.get? correlationHeader = some id
  fits : ∀ t ∈ r.tasks.tasks, t.FitsRun id

theorem correlationId_of_fitsRun {task : Task} {attributes : Headers}
    (hattributes : attributes.get? correlationHeader = some id) (htask : task.FitsRun id)
    (fresh : String) : (Context.rehydrate task attributes fresh).correlationId = id := by
  rw [Context.correlationId_rehydrate, hattributes]
  cases hown : task.header? correlationHeader with
  | none => rfl
  | some own => exact htask own hown

/-- In each call the step sees the id of the run. -/
theorem Carries.correlationId (h : r.Carries id) (hcall : r.call? p v = some c) :
    c.context.correlationId = id := by
  obtain ⟨task, rest, hpop, rfl⟩ := popNext?_of_call? hcall
  exact correlationId_of_fitsRun h.attributes
    (h.fits task ((TaskList.mem_tasks_popNext? hpop).2 (.inl rfl))) _

theorem fitsRun_handedOn {context : Context} {edits : List Context.Edit} {next : Task}
    (hwritten : context.written = []) (h : next.FitsRun id) :
    ((context.editAll edits).handedOn next).FitsRun id := by
  intro own hown
  rw [Context.header?_handedOn _ _ (by decide),
    Context.get?_writtenHeaders_of_isReserved (.inr rfl) hwritten, Option.or_none] at hown
  exact h own hown

theorem fitsRun_retryTask {context : Context} {edits : List Context.Edit} {loopCounter : UInt32}
    (hwritten : context.written = []) (h : context.task.FitsRun id) :
    ((context.editAll edits).retryTask loopCounter).FitsRun id := by
  intro own hown
  rw [Context.header?_retryTask _ _ (by decide),
    Context.get?_writtenHeaders_of_isReserved (.inr rfl) hwritten, Option.none_or,
    Context.editAll_task] at hown
  exact h own hown

/-- **One call keeps the id**, if what the step lets follow fits the run. -/
theorem Carries.next {next : PlainRun σ} (h : r.Carries id) (hr : r.IsSound)
    (hcall : r.call? p v = some c) (hnext : c.next = some next)
    (hv : v.LetsFollow (Task.FitsRun id)) : next.Carries id := by
  obtain ⟨task, rest, outcome, hpop, rfl, -, rfl⟩ := exists_after hr hcall hnext
  have hid := h.correlationId hcall
  refine ⟨?_, fun t ht => ?_⟩
  · rw [after, Context.get?_carriedAttributes, Context.editAll_correlationId]
    exact congrArg some hid
  · rcases Pipeline.mem_tasks_tasksAfter ht with hrest | ⟨follows, hfollows, rfl⟩ | ⟨counter, rfl⟩
    · exact h.fits t ((TaskList.mem_tasks_popNext? hpop).2 (.inr hrest))
    · refine fitsRun_handedOn rfl ?_
      rcases Context.followUp_editAll hfollows with hbefore | hmem
      · cases hbefore
      · exact hv _ _ _ hmem
    · exact fitsRun_retryTask rfl (h.fits task ((TaskList.mem_tasks_popNext? hpop).2 (.inl rfl)))

/-- Whatever is reported of a run in some observations is reported under the id. -/
def ReportsUnder (id : String) (shown : List Observation) : Prop :=
  ∀ other domain n, .report other domain n ∈ shown → other = id

theorem ReportsUnder.append {shown later : List Observation} (h : ReportsUnder id shown)
    (hlater : ReportsUnder id later) : ReportsUnder id (shown ++ later) := by
  intro other domain n hmem
  rcases List.mem_append.1 hmem with hmem | hmem
  · exact h other domain n hmem
  · exact hlater other domain n hmem

/-- All that is reported of an iteration is reported under the id that the step sees. -/
theorem reportsUnder_of_shows {tail : List Observation} (h : c.Shows p tail) :
    ReportsUnder c.context.correlationId (c.opening p ++ .dispatch c.context :: tail) := by
  have htimeout : ReportsUnder c.context.correlationId (c.timeout p) := by
    intro other domain n hmem
    rw [Call.timeout] at hmem
    split at hmem
    · cases List.mem_singleton.1 hmem
      rfl
    · cases hmem
  have hopening : ReportsUnder c.context.correlationId (c.opening p) := by
    intro other domain n hmem
    obtain ⟨n', -, heq⟩ := List.mem_map.1 hmem
    cases heq
    rfl
  have htail : ReportsUnder c.context.correlationId tail := by
    cases h with
    | breaksOff hreply hnext => exact fun _ _ _ hmem => absurd hmem List.not_mem_nil
    | fails hreply hnext =>
      intro other domain n hmem
      simp only [List.mem_cons, List.not_mem_nil, or_false, reduceCtorEq] at hmem
      cases hmem
      rfl
    | completes hreply hnext =>
      refine htimeout.append fun other domain n hmem => ?_
      simp only [List.mem_cons, List.not_mem_nil, or_false, reduceCtorEq] at hmem
      cases hmem
      rfl
    | goesOn hreply hnext =>
      refine htimeout.append fun other domain n hmem => ?_
      simp at hmem
  refine hopening.append fun other domain n hmem => ?_
  rcases List.mem_cons.1 hmem with heq | hmem
  · cases heq
  · exact htail other domain n hmem

/-- **A run keeps its id**, however long it goes on. -/
theorem Carries.iterations (h : r.Carries id) (hr : r.IsSound)
    (hv : v.LetsFollow (Task.FitsRun id)) (n : Nat) :
    ReportsUnder id (r.iterations p v n).1 ∧
      ∀ last, (r.iterations p v n).2 = some last → last.Carries id := by
  induction n generalizing r with
  | zero =>
    refine ⟨fun _ _ _ hmem => absurd hmem List.not_mem_nil, fun last hlast => ?_⟩
    cases hlast
    exact h
  | succ n ih =>
    have hunfolds := unfolds p v n hr
    generalize r.calls p v (n + 1) = calls, r.iterations p v (n + 1) = shown at hunfolds ⊢
    cases hunfolds with
    | idle hcall =>
      refine ⟨fun other domain n hmem => ?_, fun last hlast => by cases hlast⟩
      simp only [List.mem_cons, List.not_mem_nil, or_false, reduceCtorEq] at hmem
      cases hmem
      rw [PlainRun.correlationId, h.attributes]
      rfl
    | last hcall hnext hshows =>
      rw [← h.correlationId hcall]
      exact ⟨reportsUnder_of_shows hshows, fun last hlast => by cases hlast⟩
    | more hcall hnext hsound hshows =>
      obtain ⟨hlater, hlast⟩ := ih (h.next hr hcall hnext hv) hsound
      refine ⟨?_, hlast⟩
      have hshown := reportsUnder_of_shows hshows
      rw [h.correlationId hcall] at hshown
      exact hshown.append hlater

end PlainRun

/-! ## Runs that are triggered -/

namespace Site

variable {p : Post} {e : Engine σ} {tasks : TaskList} {attributes : Headers} {n : Nat}
  {s t : Site σ} {id : String}

/-- All that has been reported since `s` is reported under the id, and so are the messages that are
on the topic. -/
structure KeepsId (p : Post) (id : String) (s t : Site σ) : Prop where
  reported : ∃ shown, t.observations = s.observations ++ shown ∧ PlainRun.ReportsUnder id shown
  sent : ∀ m ∈ t.channel.messages p.topic, m.attributes.get? correlationHeader = some id

theorem Driven.keepsId (h : Driven p e tasks attributes n s t)
    (hid : (s.trigger e.pipeline tasks attributes).1 = .ok id)
    (htasks : ∀ task ∈ tasks.tasks, task.header? correlationHeader = none)
    (hv : e.service.LetsFollow (Task.FitsRun id)) : KeepsId p id s t := by
  obtain ⟨htrigger, hseen, -⟩ := h.follows
  have hgiven : (s.idFor (attributes.get? correlationHeader)).1 = id := by
    rw [htrigger] at hid
    exact Except.ok.inj hid
  have hstart : (PlainRun.start s e tasks attributes).Carries id := by
    refine ⟨?_, fun task htask own hown => ?_⟩
    · rw [PlainRun.start, Headers.get?_insert, if_pos rfl, hgiven]
    · have hmem := List.mem_of_find?_eq_some (TaskList.find?_of_mem_ofList htask)
      rw [htasks task hmem] at hown
      cases hown
  obtain ⟨hreports, hcarries⟩ := hstart.iterations (isSound_start s e tasks attributes) hv n
  refine ⟨⟨_, hseen, fun other domain notice hmem => ?_⟩, fun m hm => ?_⟩
  · rcases List.mem_cons.1 hmem with heq | hmem
    · cases heq
      exact hgiven
    · exact hreports other domain notice hmem
  · obtain ⟨last, hlast, hattributes⟩ := h.exists_last_of_message hm
    rw [hattributes]
    exact (hcarries last hlast).attributes

/-! ## A task that follows with an id of its own -/

/-- An engine whose steps are done at once and let a task follow. -/
def followedBy (pl : Pipeline) (next : Task) : Engine Unit where
  pipeline := pl
  service := {
    supports := fun _ => true
    invoke := fun _ state =>
      ({ edits := [.scheduleFollowUp next], reply := .outcome .done }, state) }
  state := ()

theorem letsFollow_followedBy {allowed : Task → Prop} {next : Task} (h : allowed next)
    (pl : Pipeline) : (followedBy pl next).service.LetsFollow allowed := by
  intro context state other hmem
  cases List.mem_singleton.1 hmem
  exact h

/-- Where one task is left, the task that follows is all there is after its call. -/
theorem iterate_followedBy (pl : Pipeline) {r : PlainRun Unit} {task : Task} (next : Task)
    (h : r.tasks = ⟨[task]⟩) :
    ∃ after following, (r.iterate pl (followedBy pl next).service).2 = some after ∧
      after.tasks = ⟨[following]⟩ ∧
      following.header? correlationHeader = next.header? correlationHeader ∧
      after.attributes.get? correlationHeader =
        some (Context.rehydrate task r.attributes r.correlationId).correlationId := by
  have hpop : r.tasks.popNext? pl.order = some (task, ∅) := by
    rw [h]
    rfl
  have hreply :
      (r.callFor pl (followedBy pl next).service task).attempt.reply = .outcome .done := rfl
  have hnext := PlainRun.next_callFor hpop hreply
  rw [if_neg (by exact List.cons_ne_nil _ _)] at hnext
  refine ⟨_, (r.editedContext pl (followedBy pl next).service task).handedOn next, hnext, rfl,
    ?_, ?_⟩
  · rw [Context.header?_handedOn _ _ (by decide), PlainRun.editedContext,
      Context.get?_writtenHeaders_of_isReserved (.inr rfl) rfl, Option.or_none]
  · rw [PlainRun.after, Context.get?_carriedAttributes, Context.editAll_correlationId]

/-- After two calls the run has the id of the task that follows, if that has one of its own. -/
theorem iterations_followedBy (pl : Pipeline) {r : PlainRun Unit} {task : Task} {id : String}
    (next : Task) (h : r.tasks = ⟨[task]⟩) (hown : task.header? correlationHeader = none)
    (hid : r.attributes.get? correlationHeader = some id) :
    (r.iterations pl (followedBy pl next).service 1).2.isSome = true ∧
      ∃ last, (r.iterations pl (followedBy pl next).service 2).2 = some last ∧
        last.attributes.get? correlationHeader =
          some ((next.header? correlationHeader).getD id) := by
  obtain ⟨first, following, hfirst, hfollowing, hheader, hfirstId⟩ := iterate_followedBy pl next h
  obtain ⟨last, -, hlast, -, -, hlastId⟩ := iterate_followedBy pl next hfollowing
  rw [Context.correlationId_rehydrate, hown, hid] at hfirstId
  rw [Context.correlationId_rehydrate, hheader, hfirstId] at hlastId
  have hone := PlainRun.iterations_of_goesOn 0 (Prod.ext rfl hfirst)
  have htwo := PlainRun.iterations_of_goesOn 1 (Prod.ext rfl hfirst)
  have hmore := PlainRun.iterations_of_goesOn 0 (Prod.ext rfl hlast)
  rw [hone, htwo, hmore]
  refine ⟨rfl, last, rfl, hlastId.trans ?_⟩
  cases next.header? correlationHeader <;> rfl

/-- A site with one engine and nothing on its channel. -/
def vacant (e : Engine Unit) : Site Unit :=
  { leases := { ttl := 0 }, ids := Nat.repr, clock := .fixed 0, engines := [e] }

def oneTask : TaskList :=
  ⟨[{ phase := "load", destination := "a" }]⟩

/-- On the wire the id of such a task is that of the message, two iterations after the trigger. -/
theorem exists_driven_followedBy (pl : Pipeline) (id : String) (next : Task) :
    ∃ (p : Post) (t : Site Unit) (m : Message),
      Driven p (followedBy pl next) oneTask (Headers.insert ∅ correlationHeader id) 2
        (vacant (followedBy pl next)) t ∧
      m ∈ t.channel.messages p.topic ∧
      m.attributes.get? correlationHeader =
        some ((next.header? correlationHeader).getD id) := by
  have hid : (PlainRun.start (vacant (followedBy pl next)) (followedBy pl next) oneTask
      (Headers.insert ∅ correlationHeader id)).attributes.get? correlationHeader = some id := by
    rw [PlainRun.start, Headers.get?_insert, if_pos rfl, Headers.get?_insert, if_pos rfl]
    rfl
  obtain ⟨hone, last, hlast, hsent⟩ := iterations_followedBy pl next rfl rfl hid
  obtain ⟨t, hdriven⟩ := exists_driven
    (p := { engine := 0, topic := pl.topic, holder := "a", settings := {} })
    (e := followedBy pl next) (s := vacant (followedBy pl next)) oneTask
    (Headers.insert ∅ correlationHeader id) (fun _ => rfl) rfl rfl rfl 2
    (fun k hk => by
      obtain rfl | rfl : k = 0 ∨ k = 1 := by omega
      · rfl
      · exact hone)
  obtain ⟨-, -, hfollows⟩ := hdriven.follows
  have hplain : PlainRun.Follows _ _ _ t (some last) := hlast ▸ hfollows
  obtain ⟨-, m, hin, hserves⟩ := hplain
  refine ⟨_, t, m, hdriven, ?_, ?_⟩
  · rw [hserves.messages]
    exact List.mem_singleton_self m
  · rw [hin.attributes_eq]
    exact hsent

/-- **A run keeps its id whatever its steps do exactly if no task follows with another one.**  Of
the tasks that the steps may let follow, none may have a correlation id other than that with which
the run has been triggered; then all events and all messages of the run have that id.  One that has
makes a run send a message with its own id. -/
theorem keepsId_iff (pl : Pipeline) (id : String) (allowed : Task → Prop) :
    (∀ (σ : Type) (p : Post) (e : Engine σ) (tasks : TaskList) (attributes : Headers) (n : Nat)
        (s t : Site σ), e.pipeline = pl → Driven p e tasks attributes n s t →
        (s.trigger e.pipeline tasks attributes).1 = .ok id →
        (∀ task ∈ tasks.tasks, task.header? correlationHeader = none) →
        e.service.LetsFollow allowed → KeepsId p id s t) ↔
      ∀ next, allowed next → next.FitsRun id := by
  constructor
  · intro hkeeps next hnext own hown
    obtain ⟨p, t, m, hdriven, hm, hsent⟩ := exists_driven_followedBy pl id next
    have hkept := hkeeps Unit p _ _ _ 2 _ t rfl hdriven ?_ ?_ (letsFollow_followedBy hnext pl)
    · have heq := hkept.sent m hm
      rw [hsent, hown] at heq
      exact Option.some.inj heq
    · rw [hdriven.follows.1, Headers.get?_insert, if_pos rfl]
      rfl
    · intro task htask
      cases List.mem_singleton.1 htask
      rfl
  · rintro hfits σ p e tasks attributes n s t - hdriven hid htasks hv
    exact hdriven.keepsId hid htasks fun context state next hmem =>
      hfits next (hv context state next hmem)

/-- A step that tries to write the correlation id, and lets a task follow that has none. -/
def overwriting : Attempt :=
  { edits := [.setHeader correlationHeader "other",
      .scheduleFollowUp { phase := "load", destination := "b" }]
    reply := .outcome .done }

theorem keepsId_iff_overwriting :
    ∃ t, Driven (Sample.post "a" {}) (Sample.engine overwriting) oneTask
        (Headers.insert ∅ correlationHeader "c") 3 (Sample.site 10 overwriting) t ∧
      KeepsId (Sample.post "a" {}) "c" (Sample.site 10 overwriting) t ∧
      t.observations.getLast? = some (.continued (.requeued 1 0)) := by
  obtain ⟨t, hdriven⟩ := exists_driven (p := Sample.post "a" {}) (e := Sample.engine overwriting)
    (s := Sample.site 10 overwriting) oneTask (Headers.insert ∅ correlationHeader "c")
    (fun _ => rfl) rfl rfl rfl 3 (by decide +kernel)
  have hfits : ∀ next : Task, next.header? correlationHeader = none → next.FitsRun "c" := by
    intro next hnone own hown
    rw [hnone] at hown
    cases hown
  have hallowed : (Sample.engine overwriting).service.LetsFollow
      (fun next => next.header? correlationHeader = none) := by
    intro context state next hmem
    simp only [Sample.engine, overwriting, List.mem_cons, List.not_mem_nil, or_false, reduceCtorEq,
      false_or] at hmem
    cases hmem
    rfl
  obtain ⟨htrigger, hseen, -⟩ := hdriven.follows
  refine ⟨t, hdriven, ?_, ?_⟩
  · exact (keepsId_iff Sample.pipeline "c" _).2 hfits Unit _ _ _ _ 3 _ t rfl hdriven
      (htrigger.trans (congrArg Except.ok (by decide +kernel))) (by decide +kernel) hallowed
  · rw [hseen]
    decide +kernel

/-- An engine with a step that lets a task follow with a correlation id of its own. -/
def straying : Engine Unit where
  pipeline := Sample.pipeline
  service := {
    supports := fun _ => true
    invoke := fun context state =>
      if context.task.destination = "a" then
        ({ edits := [.scheduleFollowUp
              { phase := "load", destination := "b"
                headers := Headers.insert ∅ correlationHeader "other" }]
           reply := .outcome .done }, state)
      else ({ reply := .outcome .done }, state) }
  state := ()

/-- The run has been triggered with one id, and its end is reported under the other. -/
theorem id_lost_straying :
    ∃ t, Driven (Sample.post "a" {}) straying oneTask (Headers.insert ∅ correlationHeader "c") 2
        (vacant straying) t ∧
      ((vacant straying).trigger Sample.pipeline oneTask
        (Headers.insert ∅ correlationHeader "c")).1 = .ok "c" ∧
      .report "other" "SAMPLE" { action := "sample.run", state := .ok } ∈ t.observations ∧
      ¬ KeepsId (Sample.post "a" {}) "c" (vacant straying) t := by
  obtain ⟨t, hdriven⟩ := exists_driven (p := Sample.post "a" {}) (e := straying)
    (s := vacant straying) oneTask (Headers.insert ∅ correlationHeader "c")
    (fun _ => rfl) rfl rfl rfl 2 (by decide +kernel)
  obtain ⟨htrigger, hseen, -⟩ := hdriven.follows
  have hmem : .report "other" "SAMPLE" { action := "sample.run", state := .ok } ∈
      t.observations := by
    rw [hseen]
    decide +kernel
  refine ⟨t, hdriven, htrigger.trans (congrArg Except.ok (by decide +kernel)), hmem, ?_⟩
  intro hkept
  obtain ⟨shown, hshown, hreported⟩ := hkept.reported
  have hall : t.observations = shown := hshown
  rw [hall] at hmem
  exact absurd (hreported _ _ _ hmem) (by decide)

end Site

end TaskRelay
