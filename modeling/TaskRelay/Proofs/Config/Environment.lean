import Mathlib.Data.List.TakeWhile
import TaskRelay.Proofs.Config.Targets

/-!
# What variables do to a configuration

Taking up one variable after the other comes to `Config.overridden`, up to the first value that is not
of the right kind (`Config.override_eq`).
-/

namespace TaskRelay

/-! ## Taking up one variable -/

namespace Target

/-- The override of a target, by its place among all. -/
def override : Target → Override
  | .environment => Override.general[0]
  | .logFilter => Override.general[1]
  | .logJson => Override.general[2]
  | .maxMessages => Override.general[3]
  | .window => Override.general[4]
  | .pipeline name .maxRetries => (Override.ofPipeline name).get (0 : Fin 3)
  | .pipeline name .delay => (Override.ofPipeline name).get (1 : Fin 3)
  | .pipeline name .topic => (Override.ofPipeline name).get (2 : Fin 3)

theorem key_override (t : Target) : t.override.key = t.key := by
  cases t with
  | pipeline name setting => cases setting <;> rfl
  | _ => rfl

variable {α : Type} {env : Environment} {taken taken' : Target → Bool} {t : Target}

theorem valueIn_congr (h : taken t = taken' t ∨ env.value? t.key = none) (read : String → Option α)
    (old : α) : t.valueIn env taken read old = t.valueIn env taken' read old := by
  rcases h with h | h
  · simp [valueIn, h]
  · simp [valueIn, h]

theorem valueIn_valueIn (t : Target) (env : Environment) (taken : Target → Bool)
    (read : String → Option α) (old : α) :
    t.valueIn env taken read (t.valueIn env taken read old) = t.valueIn env taken read old := by
  unfold valueIn
  split
  · cases (env.value? t.key).bind read <;> rfl
  · rfl

/-- The targets, and one more. -/
def orAlso (taken : Target → Bool) (t : Target) : Target → Bool :=
  fun s => taken s || s = t

theorem valueIn_orAlso_self {v : String} (hv : env.value? t.key = some v) {read : String → Option α}
    {a : α} (ha : read v = some a) (old : α) : t.valueIn env (orAlso taken t) read old = a := by
  simp [valueIn, orAlso, hv, ha]

@[simp] theorem valueIn_orAlso_of_ne {s : Target} (h : s ≠ t) (read : String → Option α) (old : α) :
    s.valueIn env (orAlso taken t) read old = s.valueIn env taken read old :=
  valueIn_congr (.inl (by simp [orAlso, h])) read old

end Target

/-- What a value does to a pipeline, if it is of the right kind. -/
def PipelineSetting.change? (v : String) : PipelineSetting → Option (PipelineConfig → PipelineConfig)
  | .maxRetries =>
    (Override.word32? v).map fun maxRetries p => { p with retry := { p.retry with maxRetries } }
  | .delay => (Override.word64? v).map fun delay p => { p with retry := { p.retry with delay } }
  | .topic => some fun p => { p with topic := v }

theorem Target.apply_override_pipeline (name : String) (setting : PipelineSetting) (v : String)
    (c : Config) :
    (Target.pipeline name setting).override.apply v c =
      (setting.change? v).map fun f => { c with pipelines := c.pipelines.modify name f } := by
  cases setting with
  | maxRetries | delay =>
    simp [Target.override, Override.ofPipeline, PipelineSetting.change?, Function.comp_def]
  | topic => rfl

theorem Override.all_eq (c : Config) : Override.all c = c.targets.map Target.override := by
  rw [Override.all, Config.targets, List.map_append, List.map_flatMap]
  rfl

section overridden

variable {env : Environment} {taken taken' : Target → Bool} {t : Target}

theorem PipelineConfig.overridden_congr {name : String} (p : PipelineConfig)
    (h : ∀ setting, taken (.pipeline name setting) = taken' (.pipeline name setting) ∨
      env.value? (Target.pipeline name setting).key = none) :
    p.overridden env taken name = p.overridden env taken' name := by
  simp only [overridden, Target.valueIn_congr (h _)]

/-- Only targets with a variable in the environment count. -/
theorem Config.overridden_congr (c : Config)
    (h : ∀ t ∈ c.targets, taken t = taken' t ∨ env.value? t.key = none) :
    c.overridden env taken = c.overridden env taken' := by
  have hpipelines : c.pipelines.overridden env taken = c.pipelines.overridden env taken' := by
    refine Pipelines.ext (List.map_congr_left fun e he => ?_)
    rw [PipelineConfig.overridden_congr e.2]
    intro setting
    refine h _ (List.mem_append_right _ (List.mem_flatMap.2 ⟨e, he, ?_⟩))
    cases setting <;> simp
  have hgeneral : ∀ t ∈ [Target.environment, .logFilter, .logJson, .maxMessages, .window],
      taken t = taken' t ∨ env.value? t.key = none :=
    fun t ht => h t (List.mem_append_left _ ht)
  simp only [List.forall_mem_cons, List.not_mem_nil, false_imp_iff, implies_true, and_true]
    at hgeneral
  obtain ⟨henv, hfilter, hjson, hmax, hwindow⟩ := hgeneral
  simp only [overridden, Target.valueIn_congr henv, Target.valueIn_congr hfilter,
    Target.valueIn_congr hjson, Target.valueIn_congr hmax, Target.valueIn_congr hwindow, hpipelines]

theorem PipelineSetting.exists_change? {name : String} {setting : PipelineSetting} {v : String}
    (hv : env.value? (Target.pipeline name setting).key = some v)
    (h : (Target.pipeline name setting).accepts v = true) :
    ∃ f, setting.change? v = some f ∧ ∀ taken (p : PipelineConfig),
      f (p.overridden env taken name) =
        p.overridden env (Target.orAlso taken (.pipeline name setting)) name := by
  cases setting with
  | maxRetries | delay =>
    simp only [Target.accepts, Option.isSome_iff_exists] at h
    obtain ⟨n, hread⟩ := h
    rw [change?, hread]
    refine ⟨_, rfl, fun taken p => ?_⟩
    simp [PipelineConfig.overridden, Target.valueIn_orAlso_self hv hread]
  | topic =>
    refine ⟨_, rfl, fun taken p => ?_⟩
    simp [PipelineConfig.overridden, Target.valueIn_orAlso_self hv]

/-- Changing one pipeline takes up its variable if that is what the change does to the pipeline. -/
theorem Pipelines.modify_overridden {name : String} {setting : PipelineSetting}
    {f : PipelineConfig → PipelineConfig} (ps : Pipelines)
    (hf : ∀ p : PipelineConfig, f (p.overridden env taken name) =
      p.overridden env (Target.orAlso taken (.pipeline name setting)) name) :
    (ps.overridden env taken).modify name f =
      ps.overridden env (Target.orAlso taken (.pipeline name setting)) := by
  refine Pipelines.ext ?_
  simp only [modify, overridden, List.map_map]
  refine List.map_congr_left fun e _ => ?_
  by_cases hname : e.1 = name
  · subst hname
    simp [hf]
  · simp only [Function.comp_apply, hname, if_false, Prod.mk.injEq, true_and]
    refine PipelineConfig.overridden_congr e.2 fun s => .inl ?_
    simp [Target.orAlso, hname]

@[simp] theorem Pipelines.overridden_orAlso (ps : Pipelines)
    (h : ∀ name setting, Target.pipeline name setting ≠ t) :
    ps.overridden env (Target.orAlso taken t) = ps.overridden env taken := by
  refine Pipelines.ext (List.map_congr_left fun e _ => ?_)
  rw [PipelineConfig.overridden_congr e.2 fun setting => .inl ?_]
  simp [Target.orAlso, h]

end overridden

namespace Config

variable {env : Environment} {taken : Target → Bool} {t : Target}

theorem overridden_orAlso_of_none (c : Config) (h : env.value? t.key = none) :
    c.overridden env (Target.orAlso taken t) = c.overridden env taken := by
  refine overridden_congr c fun s _ => ?_
  by_cases hs : s = t
  · exact .inr (hs ▸ h)
  · exact .inl (by simp [Target.orAlso, hs])

/-- Taking up the variable of a target gives it its new value and leaves all others as they were. -/
theorem apply_override_overridden (c : Config) {v : String} (hv : env.value? t.key = some v)
    (h : t.accepts v = true) :
    t.override.apply v (c.overridden env taken) =
      some (c.overridden env (Target.orAlso taken t)) := by
  cases t with
  | environment | logFilter =>
    simp [Target.override, Override.general, overridden, Target.valueIn_orAlso_self hv]
  | logJson | maxMessages | window =>
    simp only [Target.accepts, Option.isSome_iff_exists] at h
    obtain ⟨value, hread⟩ := h
    simp [Target.override, Override.general, overridden, hread, Target.valueIn_orAlso_self hv hread]
  | pipeline name setting =>
    obtain ⟨f, hchange, hf⟩ := PipelineSetting.exists_change? hv h
    rw [Target.apply_override_pipeline, hchange, Option.map_some]
    simp [overridden, c.pipelines.modify_overridden (hf taken)]

theorem apply_override_eq_none (c : Config) {v : String} (h : t.accepts v = false) :
    t.override.apply v c = none := by
  cases t with
  | environment | logFilter => cases h
  | logJson | maxMessages | window =>
    simp only [Target.accepts, Option.isSome_eq_false_iff, Option.isNone_iff_eq_none] at h
    simp [Target.override, Override.general, h]
  | pipeline name setting =>
    cases setting with
    | topic => cases h
    | maxRetries | delay =>
      simp only [Target.accepts, Option.isSome_eq_false_iff, Option.isNone_iff_eq_none] at h
      simp [Target.apply_override_pipeline, PipelineSetting.change?, h]

/-! ## Taking up all variables -/

/-- The error for the first value of the wrong kind, if there is one. -/
def misfit? (env : Environment) (targets : List Target) : Option ConfigError := do
  let t ← targets.find? (!·.fits env)
  let v ← env.value? t.key
  return .invalidVariable t.key v

theorem misfit?_cons_of_fits {targets : List Target} (h : t.fits env = true) :
    misfit? env (t :: targets) = misfit? env targets := by
  simp [misfit?, h]

theorem overridden_takeWhile_cons {targets : List Target} (h : t.fits env = true) (c : Config)
    (taken : Target → Bool) :
    c.overridden env (fun s => Target.orAlso taken t s || s ∈ targets.takeWhile (·.fits env)) =
      c.overridden env fun s => taken s || s ∈ (t :: targets).takeWhile (·.fits env) := by
  congr 1
  funext s
  simp [Target.orAlso, h, Bool.or_assoc]

theorem run_override (env : Environment) (c : Config) (targets : List Target)
    (taken : Target → Bool) :
    Override.run env (targets.map Target.override) (c.overridden env taken) =
      (misfit? env targets,
        c.overridden env fun t => taken t || t ∈ targets.takeWhile (·.fits env)) := by
  induction targets generalizing taken with
  | nil => simp [Override.run, misfit?]
  | cons t targets ih =>
    rw [List.map_cons, Override.run, Target.key_override]
    cases hv : env.value? t.key with
    | none =>
      have hfits : t.fits env = true := by simp [Target.fits, hv]
      simp only
      rw [← overridden_orAlso_of_none c hv, ih, overridden_takeWhile_cons hfits,
        misfit?_cons_of_fits hfits]
    | some v =>
      simp only
      cases haccepts : t.accepts v with
      | false =>
        have hfits : t.fits env = false := by simp [Target.fits, hv, haccepts]
        rw [apply_override_eq_none _ haccepts]
        simp [misfit?, hfits, hv]
      | true =>
        have hfits : t.fits env = true := by simp [Target.fits, hv, haccepts]
        rw [apply_override_overridden c hv haccepts]
        simp only
        rw [ih, overridden_takeWhile_cons hfits, misfit?_cons_of_fits hfits]

theorem misfit?_eq_none_iff {targets : List Target} :
    misfit? env targets = none ↔ ∀ t ∈ targets, t.fits env = true := by
  constructor
  · intro h t ht
    refine Classical.byContradiction fun hfits => ?_
    have hsome : (targets.find? (!·.fits env)).isSome = true :=
      List.find?_isSome.2 ⟨t, ht, by simpa using hfits⟩
    obtain ⟨u, hu⟩ := Option.isSome_iff_exists.1 hsome
    have hmisfit := List.find?_some hu
    cases hv : env.value? u.key with
    | none => simp [Target.fits, hv] at hmisfit
    | some v => simp [misfit?, hu, hv] at h
  · intro h
    have hnone : targets.find? (!·.fits env) = none :=
      List.find?_eq_none.2 fun t ht => by simp [h t ht]
    simp [misfit?, hnone]

/-- The error is for the first target whose value is of the wrong kind. -/
theorem exists_of_misfit? {targets : List Target} {e : ConfigError}
    (h : misfit? env targets = some e) :
    ∃ before t after v, targets = before ++ t :: after ∧ (∀ s ∈ before, s.fits env = true) ∧
      env.value? t.key = some v ∧ t.accepts v = false ∧ e = .invalidVariable t.key v ∧
      targets.takeWhile (·.fits env) = before := by
  simp only [misfit?, Option.bind_eq_bind, Option.bind_eq_some_iff, Option.pure_def,
    Option.some.injEq] at h
  obtain ⟨t, ht, v, hv, rfl⟩ := h
  obtain ⟨hmisfit, before, after, rfl, hbefore⟩ := List.find?_eq_some_iff_append.1 ht
  have hfits : ∀ s ∈ before, s.fits env = true := fun s hs => by simpa using hbefore s hs
  refine ⟨before, t, after, v, rfl, hfits, hv, ?_, rfl, ?_⟩
  · simpa [Target.fits, hv] using hmisfit
  · rw [List.takeWhile_append_of_pos hfits, List.takeWhile_cons_of_neg (by simpa using hmisfit),
      List.append_nil]

theorem overridden_none (c : Config) (env : Environment) :
    (c.overridden env fun _ => false) = c := by
  have hpipelines : (c.pipelines.overridden env fun _ => false) = c.pipelines := by
    refine Pipelines.ext ?_
    simp [Pipelines.overridden, PipelineConfig.overridden, Target.valueIn]
  simp [overridden, hpipelines, Target.valueIn]

/-- **Overriding** takes up the variables of all targets before the first one with a value of the wrong
kind, and ends with the error for that. -/
theorem override_eq (c : Config) (env : Environment) :
    c.override env =
      (misfit? env c.targets, c.overridden env fun t => t ∈ c.targets.takeWhile (·.fits env)) := by
  have hrun := run_override env c c.targets fun _ => false
  rw [overridden_none] at hrun
  rw [override, Override.all_eq, hrun]
  simp

theorem targets_overridden (c : Config) (env : Environment) (taken : Target → Bool) :
    (c.overridden env taken).targets = c.targets := by
  simp [targets, overridden, Pipelines.overridden, List.flatMap_map]

/-- Taking up the same variables once more changes nothing. -/
theorem overridden_overridden (c : Config) (env : Environment) (taken : Target → Bool) :
    (c.overridden env taken).overridden env taken = c.overridden env taken := by
  have hpipelines : (c.pipelines.overridden env taken).overridden env taken =
      c.pipelines.overridden env taken := by
    refine Pipelines.ext ?_
    simp [Pipelines.overridden, PipelineConfig.overridden, Target.valueIn_valueIn]
  simp only [overridden, Target.valueIn_valueIn, hpipelines]

theorem override_override (c : Config) (env : Environment) :
    (c.override env).2.override env = c.override env := by
  simp only [override_eq, targets_overridden, overridden_overridden]

/-- The environment counts for the values of its variables only. -/
theorem override_congr {env' : Environment} (h : ∀ key, env'.value? key = env.value? key)
    (c : Config) : c.override env' = c.override env := by
  have hrun : ∀ overrides, Override.run env' overrides c = Override.run env overrides c := by
    intro overrides
    induction overrides generalizing c with
    | nil => rfl
    | cons o overrides ih =>
      rw [Override.run, Override.run, h]
      cases env.value? o.key with
      | none => exact ih c
      | some v =>
        simp only
        cases o.apply v c with
        | none => rfl
        | some next => exact ih next
  exact hrun _

/-- All values of the variables of the targets are of the right kind. -/
theorem fits_iff {t : Target} :
    t.fits env = true ↔ ∀ v, env.value? t.key = some v → t.accepts v = true := by
  simp [Target.fits, Option.all_eq_true]

/-- If no value is of the wrong kind, all targets are overridden. -/
theorem override_of_fits (c : Config) (h : (c.override env).1 = none) :
    (c.override env).2 = c.overridden env fun _ => true := by
  rw [override_eq] at h ⊢
  have hfits := misfit?_eq_none_iff.1 h
  refine overridden_congr c fun t ht => .inl ?_
  simp [List.takeWhile_eq_self_iff.2 hfits, ht]

/-- Neighbouring pairs for different variables may change places. -/
theorem override_swap (c : Config) (before after : Environment) {a b : String × String}
    (hne : a.1 ≠ b.1) :
    c.override (before ++ b :: a :: after) = c.override (before ++ a :: b :: after) := by
  refine override_congr (fun key => ?_) c
  simp only [Environment.value?_append, Environment.value?_cons, Option.or_assoc]
  by_cases ha : a.1 = key
  · simp [← ha, hne.symm]
  · simp [ha]

theorem exists_shared_key_iff {p q : String} :
    (∃ s s', (Target.pipeline p s).key = (Target.pipeline q s').key) ↔
      Override.pipelineName p = Override.pipelineName q := by
  constructor
  · rintro ⟨s, s', hkey⟩
    rcases Target.key_eq_iff.1 hkey with heq | ⟨p', q', setting, hp, hq, hname⟩
    · cases heq
      rfl
    · cases hp
      cases hq
      exact hname
  · intro hname
    exact ⟨.topic, .topic, Target.pipelineKey_inj.2 hname⟩

/-- **Configurations are overridden by the environment.**  Of a variable the last value counts.
Overriding succeeds exactly if all values are of the right kind; then each setting is as its own
variable says, or as it was without one, and nothing else has changed.  Otherwise the error is for the
first value in the order of the targets that is of the wrong kind, and the targets before it have been
overridden and no others.  Two pipelines share a variable exactly if their names become equal, and no
other targets share one.  Pairs with distinct keys may come in any order, and may come twice. -/
theorem overridden_by_environment (c : Config) (env : Environment) :
    (∀ key, env.value? key = ((env.filter (·.1 = key)).getLast?).map Prod.snd) ∧
    ((c.override env).1 = none ↔
      ∀ t ∈ c.targets, ∀ v, env.value? t.key = some v → t.accepts v = true) ∧
    ((c.override env).1 = none → (c.override env).2 = c.overridden env fun _ => true) ∧
    (∀ e, (c.override env).1 = some e → ∃ before t after v, c.targets = before ++ t :: after ∧
      (∀ s ∈ before, ∀ v, env.value? s.key = some v → s.accepts v = true) ∧
      env.value? t.key = some v ∧ t.accepts v = false ∧ e = .invalidVariable t.key v ∧
      (c.override env).2 = c.overridden env fun s => s ∈ before) ∧
    (∀ p q, (∃ s s', (Target.pipeline p s).key = (Target.pipeline q s').key) ↔
      Override.pipelineName p = Override.pipelineName q) ∧
    (∀ t u : Target, t.key = u.key ↔ t = u ∨ ∃ p q setting, t = .pipeline p setting ∧
      u = .pipeline q setting ∧ Override.pipelineName p = Override.pipelineName q) ∧
    (∀ before after a b, env = before ++ a :: b :: after → a.1 ≠ b.1 →
      c.override (before ++ b :: a :: after) = c.override env) ∧
    (∀ env', env.Perm env' → (env.map Prod.fst).Nodup → c.override env' = c.override env) ∧
    (c.override env).2.override env = c.override env := by
  refine ⟨env.value?_eq_getLast?, ?_, c.override_of_fits, ?_, fun p q => exists_shared_key_iff,
    fun t u => Target.key_eq_iff, ?_, ?_, c.override_override env⟩
  · rw [override_eq, misfit?_eq_none_iff]
    simp only [fits_iff]
  · intro e he
    rw [override_eq] at he ⊢
    obtain ⟨before, t, after, v, htargets, hbefore, hv, haccepts, herror, htaken⟩ :=
      exists_of_misfit? he
    refine ⟨before, t, after, v, htargets, fun s hs => fits_iff.1 (hbefore s hs), hv, haccepts,
      herror, ?_⟩
    rw [htaken]
  · rintro before after a b rfl hne
    exact c.override_swap before after hne
  · intro env' hperm hdistinct
    exact override_congr (Environment.value?_perm hperm hdistinct) c

/-- Two pipelines whose names become equal. -/
def twins : Config where
  pipelines := .ofList [
    ("re-index", { topic := "left", domain := "INDEX", action := "index.left" }),
    ("RE_INDEX", { topic := "right", domain := "INDEX", action := "index.right" })]

def twinsEnvironment : Environment :=
  [("GEOFLOW_RE_INDEX_TOPIC", "both"), ("GEOFLOW_RE_INDEX_DELAY_MS", "7"),
    ("GEOFLOW_AGGREGATOR_WINDOW_MS", " 5 "), ("GEOFLOW_RE_INDEX_DELAY_MS", "soon")]

/-- The last value for the delay of both pipelines is no number.  The window comes before it and has
been overridden, and the topics come after it and have not. -/
theorem overridden_by_environment_twins :
    (twins.override twinsEnvironment).1 =
      some (.invalidVariable "GEOFLOW_RE_INDEX_DELAY_MS" "soon") ∧
    (twins.override twinsEnvironment).2.collection.window = 5 ∧
    (twins.override twinsEnvironment).2.pipelines = twins.pipelines ∧
    ∃ before t after v, twins.targets = before ++ t :: after ∧
      (∀ s ∈ before, ∀ v, twinsEnvironment.value? s.key = some v → s.accepts v = true) ∧
      twinsEnvironment.value? t.key = some v ∧ t.accepts v = false ∧
      ConfigError.invalidVariable "GEOFLOW_RE_INDEX_DELAY_MS" "soon" = .invalidVariable t.key v ∧
      (twins.override twinsEnvironment).2 = twins.overridden twinsEnvironment fun s => s ∈ before := by
  have herror : (twins.override twinsEnvironment).1 =
      some (.invalidVariable "GEOFLOW_RE_INDEX_DELAY_MS" "soon") := by
    decide +kernel
  obtain ⟨-, -, -, hfails, -⟩ := overridden_by_environment twins twinsEnvironment
  exact ⟨herror, by decide +kernel, by decide +kernel, hfails _ herror⟩

end Config

end TaskRelay
