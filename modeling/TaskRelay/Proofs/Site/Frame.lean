import TaskRelay.Worker.Basic

/-!
# What the calls of a site leave alone

Publishing, reporting, calling a step and ending its call never touch the clock or the leases,
never change what an engine is, and bring no new faults: this is `Site.Keeps`, and each call of a
site that is not about leases has it.  The channel changes by what is published and by nothing
else.
-/

namespace TaskRelay

variable {σ : Type}

namespace Site

/-- What the engines are, apart from the states of their steps. -/
def roles (s : Site σ) : List (Pipeline × Service σ) :=
  s.engines.map fun e => (e.pipeline, e.service)

/-- Clock, leases and engines stay as they are, and no faults come up. -/
structure Keeps (s t : Site σ) : Prop where
  now_eq : t.now = s.now
  leases_eq : t.leases = s.leases
  roles_eq : t.roles = s.roles
  faults_le : ∀ o, t.faults o ≤ s.faults o

namespace Keeps

theorem refl (s : Site σ) : Keeps s s :=
  ⟨rfl, rfl, rfl, fun _ => Nat.le_refl _⟩

theorem trans {s t u : Site σ} (h₁ : Keeps s t) (h₂ : Keeps t u) : Keeps s u :=
  ⟨h₂.now_eq.trans h₁.now_eq, h₂.leases_eq.trans h₁.leases_eq, h₂.roles_eq.trans h₁.roles_eq,
    fun o => Nat.le_trans (h₂.faults_le o) (h₁.faults_le o)⟩

theorem faults_eq_zero {s t : Site σ} (h : Keeps s t) {o : Operation} (ho : s.faults o = 0) :
    t.faults o = 0 :=
  Nat.le_zero.1 (ho ▸ h.faults_le o)

end Keeps

/-! ## Faults -/

theorem call_eq_of_no_fault {s : Site σ} {o : Operation} (h : s.faults o = 0) :
    s.call o = (false, s) := by
  rw [call, h]

theorem keeps_call (s : Site σ) (o : Operation) : Keeps s (s.call o).2 := by
  unfold call
  split
  · exact .refl s
  · next count h =>
    refine ⟨rfl, rfl, rfl, fun o' => ?_⟩
    by_cases ho : o' = o
    · simp [failNext, ho, h]
    · simp [failNext, ho]

theorem channel_call (s : Site σ) (o : Operation) : (s.call o).2.channel = s.channel := by
  unfold call
  split <;> rfl

/-! ## Reports and ids -/

theorem keeps_report (s : Site σ) (id domain : String) (n : Notice) :
    Keeps s (s.report id domain n) := by
  have hcall := keeps_call s .report
  unfold report
  split
  · next t heq => rw [heq] at hcall; exact hcall
  · next t heq => rw [heq] at hcall; exact hcall.trans ⟨rfl, rfl, rfl, fun _ => Nat.le_refl _⟩

theorem channel_report (s : Site σ) (id domain : String) (n : Notice) :
    (s.report id domain n).channel = s.channel := by
  have hcall := channel_call s .report
  unfold report
  split
  · next t heq => rw [heq] at hcall; exact hcall
  · next t heq => rw [heq] at hcall; exact hcall

theorem keeps_reportAll (s : Site σ) (id domain : String) (notices : List Notice) :
    Keeps s (s.reportAll id domain notices) := by
  induction notices generalizing s with
  | nil => exact .refl s
  | cons n notices ih => exact (keeps_report s id domain n).trans (ih _)

theorem channel_reportAll (s : Site σ) (id domain : String) (notices : List Notice) :
    (s.reportAll id domain notices).channel = s.channel := by
  induction notices generalizing s with
  | nil => rfl
  | cons n notices ih => exact (ih _).trans (channel_report s id domain n)

theorem keeps_idFor (s : Site σ) (id : Option String) : Keeps s (s.idFor id).2 := by
  cases id with
  | none => exact ⟨rfl, rfl, rfl, fun _ => Nat.le_refl _⟩
  | some id => exact .refl s

theorem channel_idFor (s : Site σ) (id : Option String) :
    (s.idFor id).2.channel = s.channel := by
  cases id <;> rfl

/-! ## Publishing -/

/-- Publishing with a delay or without one is the same call with another name. -/
def publishing : Option Nat → Operation
  | none => .publish
  | some _ => .publishDelayed

theorem publish_eq (s : Site σ) (topic : String) (m : Message) (delay : Option Nat)
    (h : s.faults (publishing delay) = 0) :
    s.publish topic m delay =
      (.ok (), { s with channel := s.channel.publish topic m (s.now + delay.getD 0) }) := by
  cases delay with
  | none =>
    have hfault : s.faults .publish = 0 := h
    rw [publish, call_eq_of_no_fault hfault]
    rfl
  | some delay =>
    have hfault : s.faults .publishDelayed = 0 := h
    rw [publish, call_eq_of_no_fault hfault]
    rfl

theorem keeps_publish (s : Site σ) (topic : String) (m : Message) (delay : Option Nat) :
    Keeps s (s.publish topic m delay).2 := by
  cases delay with
  | none =>
    have hcall := keeps_call s .publish
    rw [publish]
    generalize s.call .publish = called at hcall ⊢
    obtain ⟨_ | _, t⟩ := called
    · exact hcall.trans ⟨rfl, rfl, rfl, fun _ => Nat.le_refl _⟩
    · exact hcall
  | some delay =>
    have hcall := keeps_call s .publishDelayed
    rw [publish]
    generalize s.call .publishDelayed = called at hcall ⊢
    obtain ⟨_ | _, t⟩ := called
    · exact hcall.trans ⟨rfl, rfl, rfl, fun _ => Nat.le_refl _⟩
    · exact hcall

theorem keeps_trigger (s : Site σ) (p : Pipeline) (tasks : TaskList) (attributes : Headers) :
    Keeps s (s.trigger p tasks attributes).2 := by
  have hid := keeps_idFor s (attributes.get? correlationHeader)
  rw [trigger]
  generalize s.idFor (attributes.get? correlationHeader) = given at hid ⊢
  obtain ⟨id, t⟩ := given
  have hpublish := keeps_publish t p.topic
    { attributes := attributes.insert correlationHeader id, payload := tasks.encode } none
  simp only
  generalize t.publish p.topic
    { attributes := attributes.insert correlationHeader id, payload := tasks.encode } none =
      published at hpublish ⊢
  obtain ⟨_ | _, u⟩ := published
  · exact hid.trans hpublish
  · exact (hid.trans hpublish).trans (keeps_report _ _ _ _)

/-! ## Iterations -/

theorem keeps_record (s : Site σ) (e : Entry) : Keeps s (s.record e) :=
  ⟨rfl, rfl, rfl, fun _ => Nat.le_refl _⟩

theorem keeps_carryOut (s : Site σ) (engine : Nat) (p : Pipeline) (id : String) (c : Conclusion) :
    Keeps s (s.carryOut engine p id c).2 := by
  have hreport := keeps_reportAll s id p.domain c.notices
  rw [carryOut]
  cases c.requeue with
  | none => exact hreport.trans (keeps_record _ _)
  | some requeue =>
    obtain ⟨m, delay⟩ := requeue
    have hpublish := keeps_publish (s.reportAll id p.domain c.notices) p.topic m
      (if delay = 0 then none else some delay)
    simp only
    generalize (s.reportAll id p.domain c.notices).publish p.topic m
      (if delay = 0 then none else some delay) = published at hpublish ⊢
    obtain ⟨_ | _, t⟩ := published
    · exact hreport.trans hpublish
    · exact (hreport.trans hpublish).trans (keeps_record _ _)

/-- The site when the notes of a call have been written down. -/
def noted (s : Site σ) (d : Dispatch) : Site σ :=
  if d.attempt.notes.isEmpty then s else s.record (.notes d.engine d.start d.attempt.notes)

theorem keeps_noted (s : Site σ) (d : Dispatch) : Keeps s (s.noted d) := by
  unfold noted
  split
  · exact .refl s
  · exact keeps_record _ _

theorem channel_noted (s : Site σ) (d : Dispatch) : (s.noted d).channel = s.channel := by
  unfold noted
  split <;> rfl

theorem endIteration_eq (s : Site σ) (d : Dispatch) :
    s.endIteration d =
      match d.pipeline.conclude? d.rest (d.context.editAll d.attempt.edits) d.attempt.reply with
      | none => (none, s.noted d)
      | some c =>
        (some ((s.noted d).carryOut d.engine d.pipeline d.context.correlationId c).1,
          ((s.noted d).carryOut d.engine d.pipeline d.context.correlationId c).2) :=
  rfl

theorem keeps_endIteration (s : Site σ) (d : Dispatch) : Keeps s (s.endIteration d).2 := by
  rw [endIteration_eq]
  split
  · exact keeps_noted s d
  · exact (keeps_noted s d).trans (keeps_carryOut _ _ _ _ _)

theorem keeps_of_endIteration {s t : Site σ} {d : Dispatch}
    {result : Option (Except ChannelError Continuation)} (h : s.endIteration d = (result, t)) :
    Keeps s t := by
  have hkeeps := keeps_endIteration s d
  rw [h] at hkeeps
  exact hkeeps

/-- The site when the step of an engine has been called with a context. -/
def calling (s : Site σ) (i : Nat) (e : Engine σ) (context : Context) (id : String) : Site σ :=
  let t := (s.reportAll id e.pipeline.domain (Pipeline.startNotices context)).record
    (.dispatch i context)
  { t with engines := t.engines.set i { e with state := (e.service.invoke context e.state).2 } }

theorem beginIteration_eq (s : Site σ) (i : Nat) (e : Engine σ) (b : Batch) :
    s.beginIteration i e b =
      match e.pipeline.choose b (s.idFor (b.correlationOf? e.pipeline.order)).1 with
      | .nothing =>
        (.ended ((s.idFor (b.correlationOf? e.pipeline.order)).2.carryOut i e.pipeline
            (s.idFor (b.correlationOf? e.pipeline.order)).1
            (e.pipeline.advance b.tasks b.attributes 0)).1,
          ((s.idFor (b.correlationOf? e.pipeline.order)).2.carryOut i e.pipeline
            (s.idFor (b.correlationOf? e.pipeline.order)).1
            (e.pipeline.advance b.tasks b.attributes 0)).2)
      | .dispatch context rest =>
        (.dispatched {
            engine := i, pipeline := e.pipeline, context, rest
            attempt := (e.service.invoke context e.state).1
            start := ((s.idFor (b.correlationOf? e.pipeline.order)).2.calling i e context
              (s.idFor (b.correlationOf? e.pipeline.order)).1).now },
          (s.idFor (b.correlationOf? e.pipeline.order)).2.calling i e context
            (s.idFor (b.correlationOf? e.pipeline.order)).1) :=
  rfl

theorem engines_report (s : Site σ) (id domain : String) (n : Notice) :
    (s.report id domain n).engines = s.engines := by
  rw [report, call]
  cases s.faults .report <;> rfl

theorem engines_reportAll (s : Site σ) (id domain : String) (notices : List Notice) :
    (s.reportAll id domain notices).engines = s.engines := by
  induction notices generalizing s with
  | nil => rfl
  | cons n notices ih => exact (ih _).trans (engines_report s id domain n)

/-- A step changes the state of its engine, but not what the engine is. -/
theorem roles_set {s : Site σ} {i : Nat} {e : Engine σ} (h : s.engines[i]? = some e) (state : σ) :
    roles { s with engines := s.engines.set i { e with state } } = s.roles := by
  refine List.ext_getElem? fun j => ?_
  simp only [roles, List.getElem?_map, List.getElem?_set]
  by_cases hij : i = j
  · subst hij
    obtain ⟨hlt, -⟩ := List.getElem?_eq_some_iff.1 h
    rw [if_pos rfl, if_pos hlt, h]
    rfl
  · rw [if_neg hij]

theorem keeps_calling {s : Site σ} {i : Nat} {e : Engine σ} (h : s.engines[i]? = some e)
    (context : Context) (id : String) : Keeps s (s.calling i e context id) := by
  have hreport := keeps_reportAll s id e.pipeline.domain (Pipeline.startNotices context)
  have hengines := engines_reportAll s id e.pipeline.domain (Pipeline.startNotices context)
  refine (hreport.trans (keeps_record _ (.dispatch i context))).trans
    ⟨rfl, rfl, ?_, fun _ => Nat.le_refl _⟩
  refine roles_set ?_ _
  exact (congrArg (·[i]?) hengines).trans h

theorem channel_calling (s : Site σ) (i : Nat) (e : Engine σ) (context : Context) (id : String) :
    (s.calling i e context id).channel = s.channel :=
  channel_reportAll s id e.pipeline.domain (Pipeline.startNotices context)

theorem engines_calling (s : Site σ) (i : Nat) (e : Engine σ) (context : Context) (id : String) :
    (s.calling i e context id).engines =
      s.engines.set i { e with state := (e.service.invoke context e.state).2 } := by
  rw [← engines_reportAll s id e.pipeline.domain (Pipeline.startNotices context)]
  rfl

theorem engines_idFor (s : Site σ) (id : Option String) :
    (s.idFor id).2.engines = s.engines := by
  cases id <;> rfl

theorem keeps_beginIteration {s : Site σ} {i : Nat} {e : Engine σ} (h : s.engines[i]? = some e)
    (b : Batch) : Keeps s (s.beginIteration i e b).2 := by
  have hid := keeps_idFor s (b.correlationOf? e.pipeline.order)
  have hengine := (congrArg (·[i]?) (engines_idFor s (b.correlationOf? e.pipeline.order))).trans h
  rw [beginIteration_eq]
  split
  · exact hid.trans (keeps_carryOut _ _ _ _ _)
  · exact hid.trans (keeps_calling hengine _ _)

end Site

/-! ## A small site -/

namespace Sample

def pipeline : Pipeline :=
  { name := "sample", topic := "t", domain := "SAMPLE", action := "sample.run" }

def engine (attempt : Attempt) : Engine Unit :=
  { pipeline, state := ()
    service := { supports := fun _ => true, invoke := fun _ state => (attempt, state) } }

def site (ttl : Nat) (attempt : Attempt) : Site Unit :=
  { leases := { ttl }, ids := Nat.repr, clock := .fixed 0, engines := [engine attempt] }

def post (holder : String) (settings : CollectionSettings) : Post :=
  { engine := 0, topic := "t", holder, settings }

/-- A message with one task. -/
def message : Message :=
  { payload := TaskList.encode ⟨[{ phase := "load", destination := "d" }]⟩ }

/-- A message that holds no task list. -/
def noise : Message :=
  { payload := "noise" }

end Sample

end TaskRelay
