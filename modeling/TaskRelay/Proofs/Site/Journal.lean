import TaskRelay.Proofs.Worker.Turn

/-!
# Who writes the journal

Nothing is ever struck out of a journal: what a site does comes on top of what is there
(`Site.since`).  Calls of steps, their notes and continuations name the engine that they belong to,
and with each turn of a worker that is the engine of its post (`Turn.writes`).
-/

namespace TaskRelay

variable {σ : Type}

/-- The engine that an entry names. -/
def Entry.engine? : Entry → Option Nat
  | .event _ => none
  | .dispatch engine _ | .notes engine _ _ | .continued engine _ => some engine

namespace Site

/-- What has happened since a site was as it was before, the first thing first. -/
def since (after before : Site σ) : List (Nat × Entry) :=
  (after.journal.take (after.journal.length - before.journal.length)).reverse

/-- What comes onto the journal names no engine but one. -/
def Writes (i : Nat) (s t : Site σ) : Prop :=
  ∃ new, t.journal = new ++ s.journal ∧ ∀ e ∈ new, ∀ j, e.2.engine? = some j → j = i

variable {i : Nat} {s t u : Site σ}

theorem since_eq_reverse {new : List (Nat × Entry)} (h : t.journal = new ++ s.journal) :
    t.since s = new.reverse := by
  rw [since, h, List.length_append, Nat.add_sub_cancel, List.take_left]

theorem since_self (s : Site σ) : s.since s = [] :=
  since_eq_reverse (List.nil_append _).symm

theorem since_trans (h₁ : s.journal <:+ t.journal) (h₂ : t.journal <:+ u.journal) :
    u.since s = t.since s ++ u.since t := by
  obtain ⟨new₁, hjournal₁⟩ := h₁
  obtain ⟨new₂, hjournal₂⟩ := h₂
  have hjournal : u.journal = (new₂ ++ new₁) ++ s.journal := by
    rw [List.append_assoc, hjournal₁, hjournal₂]
  rw [since_eq_reverse hjournal₁.symm, since_eq_reverse hjournal₂.symm, since_eq_reverse hjournal,
    List.reverse_append]

namespace Writes

theorem of_journal_eq (h : t.journal = s.journal) : Writes i s t :=
  ⟨[], h, fun _ he => by cases he⟩

theorem refl (i : Nat) (s : Site σ) : Writes i s s :=
  of_journal_eq rfl

theorem trans (h₁ : Writes i s t) (h₂ : Writes i t u) : Writes i s u := by
  obtain ⟨new₁, hjournal₁, hnames₁⟩ := h₁
  obtain ⟨new₂, hjournal₂, hnames₂⟩ := h₂
  refine ⟨new₂ ++ new₁, ?_, fun e he => ?_⟩
  · rw [hjournal₂, hjournal₁, List.append_assoc]
  · rcases List.mem_append.1 he with he | he
    · exact hnames₂ e he
    · exact hnames₁ e he

theorem isSuffix (h : Writes i s t) : s.journal <:+ t.journal := by
  obtain ⟨new, hjournal, -⟩ := h
  exact ⟨new, hjournal.symm⟩

theorem eq_of_mem_since (h : Writes i s t) {e : Nat × Entry} (he : e ∈ t.since s) {j : Nat}
    (hj : e.2.engine? = some j) : j = i := by
  obtain ⟨new, hjournal, hnames⟩ := h
  rw [since_eq_reverse hjournal, List.mem_reverse] at he
  exact hnames e he j hj

end Writes

theorem Quiet.writes {p : Post} (h : Quiet p s t) (i : Nat) : Writes i s t := by
  obtain ⟨_, _, rfl, _⟩ := h
  exact .refl i s

/-! ## Calls of a site -/

theorem writes_record {e : Entry} (h : ∀ j, e.engine? = some j → j = i) (s : Site σ) :
    Writes i s (s.record e) := by
  refine ⟨[(s.now, e)], rfl, fun e' he' => ?_⟩
  rw [List.mem_singleton.1 he']
  exact h

theorem writes_report (i : Nat) (s : Site σ) (id domain : String) (n : Notice) :
    Writes i s (s.report id domain n) := by
  rw [report, call]
  cases s.faults .report with
  | zero => exact writes_record (by rintro _ ⟨⟩) s
  | succ count => exact .refl i s

theorem writes_reportAll (i : Nat) (s : Site σ) (id domain : String) (notices : List Notice) :
    Writes i s (s.reportAll id domain notices) := by
  induction notices generalizing s with
  | nil => exact .refl i s
  | cons n notices ih => exact (writes_report i s id domain n).trans (ih _)

theorem writes_idFor (i : Nat) (s : Site σ) (id : Option String) : Writes i s (s.idFor id).2 := by
  cases id <;> exact .refl i s

theorem writes_publish (i : Nat) (s : Site σ) (topic : String) (m : Message) (delay : Option Nat) :
    Writes i s (s.publish topic m delay).2 := by
  cases delay with
  | none =>
    rw [publish, call]
    cases s.faults .publish <;> exact .refl i s
  | some delay =>
    rw [publish, call]
    cases s.faults .publishDelayed <;> exact .refl i s

theorem writes_trigger (i : Nat) (s : Site σ) (p : Pipeline) (tasks : TaskList)
    (attributes : Headers) : Writes i s (s.trigger p tasks attributes).2 := by
  have hid := writes_idFor i s (attributes.get? correlationHeader)
  rw [trigger]
  generalize s.idFor (attributes.get? correlationHeader) = given at hid ⊢
  obtain ⟨id, t⟩ := given
  have hpublish := writes_publish i t p.topic
    { attributes := attributes.insert correlationHeader id, payload := tasks.encode } none
  simp only
  generalize t.publish p.topic
    { attributes := attributes.insert correlationHeader id, payload := tasks.encode } none =
      published at hpublish ⊢
  obtain ⟨_ | _, u⟩ := published
  · exact hid.trans hpublish
  · exact (hid.trans hpublish).trans (writes_report i _ _ _ _)

theorem writes_carryOut (i : Nat) (s : Site σ) (p : Pipeline) (id : String) (c : Conclusion) :
    Writes i s (s.carryOut i p id c).2 := by
  have hcontinued : ∀ u : Site σ, Writes i u (u.record (.continued i c.continuation)) :=
    writes_record (by rintro _ ⟨⟩; rfl)
  have hreport := writes_reportAll i s id p.domain c.notices
  rw [carryOut]
  cases c.requeue with
  | none => exact hreport.trans (hcontinued _)
  | some requeue =>
    obtain ⟨m, delay⟩ := requeue
    have hpublish := writes_publish i (s.reportAll id p.domain c.notices) p.topic m
      (if delay = 0 then none else some delay)
    simp only
    generalize (s.reportAll id p.domain c.notices).publish p.topic m
      (if delay = 0 then none else some delay) = published at hpublish ⊢
    obtain ⟨_ | _, t⟩ := published
    · exact hreport.trans hpublish
    · exact (hreport.trans hpublish).trans (hcontinued _)

theorem writes_noted (s : Site σ) (d : Dispatch) : Writes d.engine s (s.noted d) := by
  rw [noted]
  split
  · exact .refl d.engine s
  · exact writes_record (by rintro _ ⟨⟩; rfl) s

theorem writes_endIteration (s : Site σ) (d : Dispatch) :
    Writes d.engine s (s.endIteration d).2 := by
  rw [endIteration_eq]
  split
  · exact writes_noted s d
  · exact (writes_noted s d).trans (writes_carryOut d.engine _ _ _ _)

theorem writes_beginIteration (i : Nat) (s : Site σ) (e : Engine σ) (b : Batch) :
    Writes i s (s.beginIteration i e b).2 := by
  have hid := writes_idFor i s (b.correlationOf? e.pipeline.order)
  rw [beginIteration_eq]
  split
  · exact hid.trans (writes_carryOut i _ _ _ _)
  · next context _ _ =>
    exact (hid.trans (writes_reportAll i _ _ _ _)).trans
      (writes_record (by rintro _ ⟨⟩; rfl) _)

end Site

/-! ## Turns of workers -/

theorem Post.writes_work (p : Post) (b : Batch) (s : Site σ) :
    Site.Writes p.engine s (p.work b s).2 := by
  rw [work]
  split
  · exact .refl p.engine s
  · split
    · exact .refl p.engine s
    · next e he =>
      have hbegin := Site.writes_beginIteration p.engine s e b
      split
      · next d t heq => rw [heq] at hbegin; exact hbegin
      · next result t heq => rw [heq] at hbegin; exact hbegin

/-- What a worker writes names the engine of its post, if what it works on comes from there. -/
theorem Turn.writes {p : Post} {s t : Site σ} {before after : Hands}
    (h : Turn p s before after t) (hbefore : ∀ d, before = .working d → d.engine = p.engine) :
    Site.Writes p.engine s t := by
  cases h with
  | stay hquiet hbusy => exact hquiet.writes p.engine
  | begin hquiet hfresh => exact hquiet.writes p.engine
  | take hpoll hquiet => exact hquiet.writes p.engine
  | drop hpoll hfault hquiet => exact hquiet.writes p.engine
  | giveUp hpoll hquiet => exact hquiet.writes p.engine
  | @start c b channel d t hpoll hwork =>
    have hwrites := p.writes_work b { s with channel }
    rw [hwork] at hwrites
    exact hwrites
  | @pass c b channel h t u result hpoll hwork hquiet hfresh =>
    have hwrites := p.writes_work b { s with channel }
    rw [hwork] at hwrites
    exact hwrites.trans (hquiet.writes p.engine)
  | @finish d h t u result hends hend hquiet hfresh =>
    have hwrites := s.writes_endIteration d
    rw [hend, hbefore d rfl] at hwrites
    exact hwrites.trans (hquiet.writes p.engine)

end TaskRelay
