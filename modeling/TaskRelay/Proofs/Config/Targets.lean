import TaskRelay.Config.Environment

/-!
# Settings with a variable

Each setting that can be overridden is a `Target` with the variable for it.  `Config.overridden` tells,
setting by setting, how a configuration is with the values of the environment: the value of its own
variable where there is one, and the old value otherwise.

The names of the variables for pipelines are made of the names of the pipelines.  Different targets
share a variable only if they are the same setting of pipelines whose names become equal
(`Target.key_eq_iff`).
-/

namespace TaskRelay

/-! ## Values of variables -/

namespace Environment

theorem value?_append (env more : Environment) (key : String) :
    (env ++ more : Environment).value? key = (more.value? key).or (env.value? key) := by
  simp [value?, List.lookup_append]

theorem value?_singleton (e : String × String) (key : String) :
    value? [e] key = if e.1 = key then some e.2 else none := by
  obtain ⟨k, v⟩ := e
  rw [value?, List.reverse_singleton, List.lookup_cons]
  by_cases h : k = key
  · simp [h]
  · simp [h, beq_eq_false_iff_ne.2 (Ne.symm h)]

theorem value?_cons (e : String × String) (env : Environment) (key : String) :
    value? (e :: env) key = (env.value? key).or (if e.1 = key then some e.2 else none) := by
  rw [← List.singleton_append, value?_append, value?_singleton]

theorem value?_eq_getLast? (env : Environment) (key : String) :
    env.value? key = ((env.filter (·.1 = key)).getLast?).map Prod.snd := by
  induction env with
  | nil => rfl
  | cons e env ih =>
    rw [value?_cons, ih]
    by_cases h : e.1 = key
    · cases hl : (env.filter (·.1 = key)).getLast? <;> simp [h, List.getLast?_cons, hl]
    · simp [h]

theorem value?_perm {env env' : Environment} (h : env.Perm env')
    (hdistinct : (env.map Prod.fst).Nodup) (key : String) : env'.value? key = env.value? key := by
  induction h with
  | nil => rfl
  | cons e _ ih =>
    rw [value?_cons, value?_cons, ih (List.nodup_cons.1 hdistinct).2]
  | swap a b env =>
    have hne : a.1 ≠ b.1 := by
      intro heq
      simp [heq] at hdistinct
    simp only [value?_cons, Option.or_assoc]
    by_cases ha : a.1 = key
    · simp [← ha, hne.symm]
    · simp [ha]
  | trans hfirst _ ih ih' =>
    rw [ih' ((hfirst.map Prod.fst).nodup_iff.1 hdistinct), ih hdistinct]

end Environment

/-! ## Targets -/

inductive PipelineSetting where
  | maxRetries
  | delay
  | topic
deriving DecidableEq, Repr

def PipelineSetting.suffix : PipelineSetting → String
  | .maxRetries => "_MAX_RETRIES"
  | .delay => "_DELAY_MS"
  | .topic => "_TOPIC"

/-- A setting that a variable overrides. -/
inductive Target where
  | environment
  | logFilter
  | logJson
  | maxMessages
  | window
  | pipeline (name : String) (setting : PipelineSetting)
deriving DecidableEq, Repr

namespace Target

def key : Target → String
  | .environment => "GEOFLOW_ENV"
  | .logFilter => "GEOFLOW_LOG"
  | .logJson => "GEOFLOW_LOG_JSON"
  | .maxMessages => "GEOFLOW_AGGREGATOR_MAX_MESSAGES"
  | .window => "GEOFLOW_AGGREGATOR_WINDOW_MS"
  | .pipeline name setting => Override.pipelineKey name setting.suffix

/-- Whether the value is of the kind that the setting needs. -/
def accepts : Target → String → Bool
  | .environment, _ | .logFilter, _ | .pipeline _ .topic, _ => true
  | .logJson, v => (Override.flag? v).isSome
  | .maxMessages, v | .window, v | .pipeline _ .delay, v => (Override.word64? v).isSome
  | .pipeline _ .maxRetries, v => (Override.word32? v).isSome

/-- The setting is not overridden, or with a value of the right kind. -/
def fits (env : Environment) (t : Target) : Bool :=
  (env.value? t.key).all t.accepts

/-- The value of a setting that was `old`, when the variables of the targets in `taken` have been
taken up. -/
def valueIn {α : Type} (t : Target) (env : Environment) (taken : Target → Bool)
    (read : String → Option α) (old : α) : α :=
  if taken t then ((env.value? t.key).bind read).getD old else old

end Target

section overridden

variable (env : Environment) (taken : Target → Bool)

def PipelineConfig.overridden (name : String) (p : PipelineConfig) : PipelineConfig :=
  let target := Target.pipeline name
  { p with
    topic := (target .topic).valueIn env taken some p.topic
    retry :=
      { maxRetries := (target .maxRetries).valueIn env taken Override.word32? p.retry.maxRetries
        delay := (target .delay).valueIn env taken Override.word64? p.retry.delay } }

def Pipelines.overridden (p : Pipelines) : Pipelines :=
  ⟨p.entries.map fun e => (e.1, e.2.overridden env taken e.1), Keyed.rising_map p.rising⟩

/-- The configuration with the values of the environment for the targets in `taken`. -/
def Config.overridden (c : Config) : Config :=
  { c with
    environment := Target.environment.valueIn env taken some c.environment
    logging :=
      { filter := Target.logFilter.valueIn env taken (fun v => some (some v)) c.logging.filter
        json := Target.logJson.valueIn env taken Override.flag? c.logging.json }
    collection :=
      { c.collection with
        maxMessages :=
          Target.maxMessages.valueIn env taken Override.word64? c.collection.maxMessages
        window := Target.window.valueIn env taken Override.word64? c.collection.window }
    pipelines := c.pipelines.overridden env taken }

end overridden

/-- All targets in the order in which their variables are taken up. -/
def Config.targets (c : Config) : List Target :=
  [.environment, .logFilter, .logJson, .maxMessages, .window] ++
    c.pipelines.entries.flatMap fun (name, _) =>
      [.pipeline name .maxRetries, .pipeline name .delay, .pipeline name .topic]

/-! ## Names of variables -/

namespace Target

/-- The last four characters of the variable, the last one first. -/
def ending : Target → List Char
  | .environment => ['V', 'N', 'E', '_']
  | .logFilter => ['G', 'O', 'L', '_']
  | .logJson => ['N', 'O', 'S', 'J']
  | .maxMessages => ['S', 'E', 'G', 'A']
  | .window => ['S', 'M', '_', 'W']
  | .pipeline _ .maxRetries => ['S', 'E', 'I', 'R']
  | .pipeline _ .delay => ['S', 'M', '_', 'Y']
  | .pipeline _ .topic => ['C', 'I', 'P', 'O']

theorem take_reverse_key (t : Target) : t.key.toList.reverse.take 4 = t.ending := by
  cases t with
  | pipeline name setting =>
    cases setting <;>
      simp [key, Override.pipelineKey, PipelineSetting.suffix, ending]
  | _ => decide +kernel

theorem pipelineKey_inj {p q suffix : String} :
    Override.pipelineKey p suffix = Override.pipelineKey q suffix ↔
      Override.pipelineName p = Override.pipelineName q := by
  unfold Override.pipelineKey
  constructor
  · intro h
    have hlist := congrArg String.toList h
    simp only [String.toList_append, List.append_cancel_right_eq, List.append_cancel_left_eq] at hlist
    exact String.toList_inj.1 hlist
  · intro h
    rw [h]

/-- **Different targets share a variable** exactly if they are the same setting of two pipelines whose
names become equal. -/
theorem key_eq_iff {t u : Target} :
    t.key = u.key ↔ t = u ∨ ∃ p q setting, t = .pipeline p setting ∧ u = .pipeline q setting ∧
      Override.pipelineName p = Override.pipelineName q := by
  constructor
  · intro h
    have hending : t.ending = u.ending := by
      rw [← take_reverse_key, ← take_reverse_key, h]
    cases t with
    | pipeline p s =>
      cases u with
      | pipeline q s' =>
        have hsetting : s = s' := by
          revert hending
          cases s <;> cases s' <;> simp [ending]
        subst hsetting
        exact .inr ⟨p, q, s, rfl, rfl, pipelineKey_inj.1 h⟩
      | _ => cases s <;> cases hending
    | _ =>
      revert hending
      cases u with
      | pipeline q s' => cases s' <;> simp [ending]
      | _ => simp [ending]
  · rintro (rfl | ⟨p, q, setting, rfl, rfl, hname⟩)
    · rfl
    · exact pipelineKey_inj.2 hname

example : (Target.pipeline "re-index" .topic).key = (Target.pipeline "RE_INDEX" .topic).key := by
  decide +kernel

end Target

end TaskRelay
