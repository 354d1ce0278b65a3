import Nighthawk.AdaptiveLoad.Session
import Nighthawk.Lib.Fallible

/-!
# What the check of a session spec covers

The check loads every plugin that the session loads later, and looks up every metric's plugin. So
in a session whose spec passed it, no plugin fails to load and no metric lacks its plugin.
-/

namespace Nighthawk.AdaptiveLoad

open Options Results
open Runs (exec exec_inv)

variable {env : Env}

/-! ## The check -/

theorem attempt_ok {α : Type} {what : Str} {x : Except Failure α} {loaded : Option α}
    (h : attempt what x = .ok (loaded, [])) : ∃ a, x = .ok a ∧ loaded = some a := by
  match x with
  | .ok a =>
    injection h with h
    exact ⟨a, rfl, (Prod.mk.inj h).1.symm⟩
  | .error (.status s) =>
    injection h with h
    cases (Prod.mk.inj h).2
  | .error (.crash c) => cases h

theorem checkMetricsPlugins_ok {configs : List TypedExtensionConfig} {before after : PluginMap}
    (h : checkMetricsPlugins env configs before = .ok (after, [])) :
    (∀ config ∈ configs, ∃ plugin, loadMetricsPlugin env config = .ok plugin) ∧
      ∀ name, (after name).isSome → (before name).isSome ∨ ∃ config ∈ configs, config.name = name := by
  induction configs generalizing before with
  | nil =>
    injection h with h
    injection h with h
    exact ⟨by simp, fun name hname => .inl (h ▸ hname)⟩
  | cons config configs ih =>
    unfold checkMetricsPlugins at h
    obtain ⟨⟨loaded, error⟩, hattempt, h⟩ := Fallible.bind_eq_ok.mp h
    obtain ⟨⟨plugins, errors⟩, hrest, h⟩ := Fallible.bind_eq_ok.mp h
    injection h with h
    injection h with hplugins herrors
    obtain ⟨rfl, rfl⟩ := List.append_eq_nil_iff.mp herrors
    subst hplugins
    obtain ⟨plugin, hload, rfl⟩ := attempt_ok hattempt
    obtain ⟨hall, hnames⟩ := ih hrest
    refine ⟨List.forall_mem_cons.mpr ⟨⟨plugin, hload⟩, hall⟩, ?_⟩
    intro name hname
    rcases hnames name hname with hbefore | ⟨other, hmem, hother⟩
    · by_cases heq : name = config.name
      · exact .inr ⟨config, by simp, heq.symm⟩
      · rw [Option.isSome_some, if_pos rfl, Function.update_of_ne heq] at hbefore
        exact .inl hbefore
    · exact .inr ⟨other, List.mem_cons_of_mem _ hmem, hother⟩

theorem checkScoringFunctions_ok {thresholds : List MetricSpecWithThreshold}
    (h : checkScoringFunctions env thresholds = .ok []) :
    ∀ t ∈ thresholds, ∃ scoring, loadScoringFunctionPlugin env t.threshold.scoringFunctionConfig =
      .ok scoring := by
  induction thresholds with
  | nil => simp
  | cons t thresholds ih =>
    unfold checkScoringFunctions at h
    obtain ⟨⟨loaded, error⟩, hattempt, h⟩ := Fallible.bind_eq_ok.mp h
    obtain ⟨errors, hrest, h⟩ := Fallible.bind_eq_ok.mp h
    injection h with h
    obtain ⟨rfl, rfl⟩ := List.append_eq_nil_iff.mp h
    obtain ⟨scoring, hload, -⟩ := attempt_ok hattempt
    exact List.forall_mem_cons.mpr ⟨⟨scoring, hload⟩, ih hrest⟩

theorem checkMetricSpec_eq_nil {plugins : PluginMap} {names : List Str} {m : MetricSpec}
    (h : checkMetricSpec plugins names m = []) : (plugins m.metricsPluginName).isSome := by
  unfold checkMetricSpec at h
  split at h
  · rename_i plugin hplugin
    rw [hplugin]
    rfl
  · cases h

theorem reportErrors_ok {errors : List Str} (h : reportErrors errors = .ok ()) : errors = [] := by
  unfold reportErrors at h
  split at h
  · assumption
  · cases h

/-- What an accepted spec is known to have. -/
structure Checked (env : Env) (spec : AdaptiveLoadSessionSpec) : Prop where
  metricsPlugins : ∀ config ∈ spec.metricsPluginConfigs, ∃ plugin, loadMetricsPlugin env config = .ok plugin
  stepController : ∃ controller, loadStepControllerPlugin env spec.controllerConfig spec.template =
    .ok controller
  scoringFunctions : ∀ t ∈ spec.metricThresholds,
    ∃ scoring, loadScoringFunctionPlugin env t.threshold.scoringFunctionConfig = .ok scoring
  metrics : ∀ pair ∈ extractMetricSpecs spec, pair.1.metricsPluginName = builtin ∨
    ∃ config ∈ spec.metricsPluginConfigs, config.name = pair.1.metricsPluginName

theorem checked_of_checkSessionSpec {spec : AdaptiveLoadSessionSpec}
    (h : checkSessionSpec env spec = .ok ()) :
    Checked env spec := by
  unfold checkSessionSpec at h
  obtain ⟨⟨plugins, pluginErrors⟩, hplugins, h⟩ := Fallible.bind_eq_ok.mp h
  obtain ⟨⟨loaded, controllerErrors⟩, hcontroller, h⟩ := Fallible.bind_eq_ok.mp h
  obtain ⟨scoringErrors, hscoring, h⟩ := Fallible.bind_eq_ok.mp h
  have herrors := reportErrors_ok h
  simp only [List.append_eq_nil_iff] at herrors
  obtain ⟨⟨⟨⟨-, rfl⟩, rfl⟩, rfl⟩, hmetrics⟩ := herrors
  obtain ⟨hload, hnames⟩ := checkMetricsPlugins_ok hplugins
  obtain ⟨controller, hcontroller, -⟩ := attempt_ok hcontroller
  refine ⟨hload, ⟨controller, hcontroller⟩, checkScoringFunctions_ok hscoring, ?_⟩
  intro pair hpair
  have hsome := checkMetricSpec_eq_nil (List.flatMap_eq_nil_iff.mp hmetrics pair hpair)
  rcases hnames _ hsome with hbefore | hconfig
  · by_cases heq : pair.1.metricsPluginName = builtin
    · exact .inl heq
    · rw [Function.update_of_ne heq] at hbefore
      cases hbefore
  · exact .inr hconfig

/-! ## Before the first benchmark -/

theorem loadMetricsPlugins_ok {configs : List TypedExtensionConfig}
    (h : ∀ config ∈ configs, ∃ plugin, loadMetricsPlugin env config = .ok plugin) (before : PluginMap) :
    ∃ after, loadMetricsPlugins env configs before = .ok after ∧
      (∀ name, (before name).isSome → (after name).isSome) ∧
        ∀ config ∈ configs, (after config.name).isSome := by
  induction configs generalizing before with
  | nil => exact ⟨before, rfl, fun _ h => h, by simp⟩
  | cons config configs ih =>
    obtain ⟨⟨plugin, hload⟩, hrest⟩ := List.forall_mem_cons.mp h
    obtain ⟨after, hafter, hkeeps, hall⟩ := ih hrest (Function.update before config.name (some plugin))
    have hset : (after config.name).isSome := hkeeps _ (by rw [Function.update_self]; rfl)
    refine ⟨after, ?_, ?_, List.forall_mem_cons.mpr ⟨hset, hall⟩⟩
    · unfold loadMetricsPlugins
      rw [hload]
      exact hafter
    · intro name hname
      by_cases heq : name = config.name
      · rw [heq]
        exact hset
      · apply hkeeps
        rw [Function.update_of_ne heq]
        exact hname

/-- What a session has when it makes a benchmark. -/
structure Prepared (env : Env) (r : Running) : Prop where
  scoringFunctions : ∀ t ∈ r.spec.metricThresholds,
    ∃ scoring, loadScoringFunctionPlugin env t.threshold.scoringFunctionConfig = .ok scoring
  metrics : ∀ pair ∈ extractMetricSpecs r.spec,
    pair.1.metricsPluginName = builtin ∨ (r.plugins pair.1.metricsPluginName).isSome

theorem prepare_ok {spec : AdaptiveLoadSessionSpec}
    (h : checkSessionSpec env (setSessionSpecDefaults spec) = .ok ()) :
    ∃ plugins controller,
      loadStepControllerPlugin env (setSessionSpecDefaults spec).controllerConfig
        (setSessionSpecDefaults spec).template = .ok controller ∧
      prepare env spec = .ok ⟨setSessionSpecDefaults spec, plugins, controller, []⟩ ∧
      Prepared env ⟨setSessionSpecDefaults spec, plugins, controller, []⟩ := by
  have hchecked := checked_of_checkSessionSpec h
  obtain ⟨controller, hcontroller⟩ := hchecked.stepController
  obtain ⟨plugins, hplugins, -, hcovered⟩ := loadMetricsPlugins_ok hchecked.metricsPlugins fun _ => none
  refine ⟨plugins, controller, hcontroller, ?_, hchecked.scoringFunctions, ?_⟩
  · simp only [prepare, h, hplugins, loadStepControllerPluginFromSpec, hcontroller]
    rfl
  · intro pair hpair
    rcases hchecked.metrics pair hpair with hbuiltin | ⟨config, hmem, hname⟩
    · exact .inl hbuiltin
    · exact .inr (hname ▸ hcovered config hmem)

/-! ## A benchmark -/

/-- A call that ends in no crash but the permitted ones. -/
def CrashesOnly {α : Type} (permitted : Crash → Prop) (x : Except Failure α) : Prop :=
  ∀ c, x = .error (.crash c) → permitted c

theorem crashesOnly_bind {α β : Type} {permitted : Crash → Prop} {x : Except Failure α}
    {f : α → Except Failure β}
    (hx : CrashesOnly permitted x) (hf : ∀ a, x = .ok a → CrashesOnly permitted (f a)) :
    CrashesOnly permitted (x >>= f) := by
  intro c hc
  match x with
  | .error e =>
    have he : e = .crash c := Except.error.inj hc
    exact hx c (by rw [he])
  | .ok a => exact hf a rfl c hc

theorem crashesOnly_status {α : Type} {permitted : Crash → Prop} (x : Except Status α) :
    CrashesOnly permitted (x.mapError .status) := by
  intro c hc
  cases x <;> cases hc

theorem crashesOnly_pure {α : Type} {permitted : Crash → Prop} (a : α) :
    CrashesOnly permitted (pure a : Except Failure α) := by
  intro c hc
  cases hc

theorem evaluateMetric_safe {benchmark : Nat} {metric : MetricSpec} {plugin : MetricsPlugin}
    {threshold : Option ThresholdSpec} {period : ReportingPeriod} {permitted : Crash → Prop}
    (h : ∀ t, threshold = some t →
      ∃ scoring, loadScoringFunctionPlugin env t.scoringFunctionConfig = .ok scoring) :
    CrashesOnly permitted (evaluateMetric env benchmark metric plugin threshold period) := by
  intro c hc
  unfold evaluateMetric at hc
  split at hc
  · cases hc
  · split at hc
    · cases hc
    · rename_i t
      obtain ⟨scoring, hload⟩ := h t rfl
      rw [hload] at hc
      cases hc

theorem evaluateMetrics_safe {evaluate : MetricSpec × Option ThresholdSpec → Except Failure MetricEvaluation}
    {pairs : List (MetricSpec × Option ThresholdSpec)} {permitted : Crash → Prop}
    (h : ∀ pair ∈ pairs, CrashesOnly permitted (evaluate pair)) :
    CrashesOnly permitted (evaluateMetrics evaluate pairs) := by
  induction pairs with
  | nil =>
    intro c hc
    cases hc
  | cons pair pairs ih =>
    obtain ⟨hpair, hrest⟩ := List.forall_mem_cons.mp h
    unfold evaluateMetrics
    split
    · exact crashesOnly_bind (ih hrest) fun _ _ => crashesOnly_pure _
    · rename_i c hc
      intro d hd
      cases hd
      exact hpair c hc
    · exact crashesOnly_bind (ih hrest) fun _ _ => crashesOnly_pure _

theorem analyzeNighthawkBenchmark_safe {r : Running} (h : Prepared env r) (benchmark : Nat)
    (response : ExecutionResponse) {permitted : Crash → Prop} :
    CrashesOnly permitted (analyzeNighthawkBenchmark env benchmark response r.spec r.plugins) := by
  unfold analyzeNighthawkBenchmark
  dsimp only
  split
  · intro c hc
    cases hc
  · refine crashesOnly_bind (crashesOnly_status _) ?_
    intro period _
    refine crashesOnly_bind ?_ ?_
    · apply evaluateMetrics_safe
      intro pair hpair
      have hsome : ∃ plugin, Function.update r.plugins builtin
          (some (nighthawkStatsEmulatedMetricsPlugin (response.output.getD {}))) pair.1.metricsPluginName =
            some plugin := by
        rcases h.metrics pair hpair with hbuiltin | hcustom
        · exact ⟨_, by rw [hbuiltin, Function.update_self]⟩
        · by_cases heq : pair.1.metricsPluginName = builtin
          · exact ⟨_, by rw [heq, Function.update_self]⟩
          · rw [Function.update_of_ne heq]
            exact Option.isSome_iff_exists.mp hcustom
      obtain ⟨plugin, hplugin⟩ := hsome
      unfold evaluateThrough
      rw [hplugin]
      apply evaluateMetric_safe
      intro t ht
      -- Only the thresholds of the spec come with a scoring function.
      rcases List.mem_append.mp hpair with hmem | hmem
      · obtain ⟨threshold, hthreshold, rfl⟩ := List.mem_map.mp hmem
        cases ht
        exact h.scoringFunctions threshold hthreshold
      · obtain ⟨metric, -, rfl⟩ := List.mem_map.mp hmem
        cases ht
    · rintro ⟨evaluations, errors⟩ _ c hc
      dsimp only at hc
      split at hc <;> cases hc

theorem performNighthawkBenchmark_safe (call : ServiceCall) :
    CrashesOnly (· = .secondResponse) (performNighthawkBenchmark call) := by
  intro c hc
  unfold performNighthawkBenchmark at hc
  split at hc
  · cases hc
  · split at hc
    · cases hc
    · split at hc
      · cases hc
      · cases hc
        rfl
      · obtain ⟨write, writesDone, responses, finish⟩ := call
        cases finish <;> cases hc

theorem performAndAnalyze_safe {r : Running} (h : Prepared env r) (duration : Duration) (answer : Answer) :
    CrashesOnly (· = .secondResponse) (performAndAnalyzeNighthawkBenchmark env r duration answer) := by
  unfold performAndAnalyzeNighthawkBenchmark
  refine crashesOnly_bind (crashesOnly_status _) fun options _ => ?_
  refine crashesOnly_bind (performNighthawkBenchmark_safe _) fun response _ => ?_
  refine crashesOnly_bind (analyzeNighthawkBenchmark_safe h _ _) fun result _ => ?_
  exact crashesOnly_pure _

/-! ## The session -/

/-- What holds along a session whose spec was accepted. -/
def Session.Safe (env : Env) : Session → Prop
  | .adjusting r => Prepared env r
  | .testing r => Prepared env r
  | .returned _ => True
  | .crashed c => c = .secondResponse

theorem safe_failed {α : Type} {x : Except Failure α} {e : Failure} (hx : CrashesOnly (· = .secondResponse) x)
    (he : x = .error e) : (Session.failed e).Safe env := by
  cases e with
  | status s => trivial
  | crash c => exact hx c he

theorem safe_afterAdjusting {r : Running} (h : Prepared env r) (elapsed : ℤ) :
    (afterAdjusting env r elapsed).Safe env := by
  unfold afterAdjusting
  dsimp only
  split
  · trivial
  · split
    · trivial
    · split
      · exact h
      · exact h

theorem safe_adjustingStage {r : Running} (h : Prepared env r) (answer : Answer) :
    (adjustingStage env r answer).Safe env := by
  unfold adjustingStage
  split
  · rename_i result controller _
    refine safe_afterAdjusting ?_ _
    exact ⟨h.scoringFunctions, h.metrics⟩
  · rename_i e he
    exact safe_failed (performAndAnalyze_safe h _ _) he

theorem safe_testingStage {r : Running} (h : Prepared env r) (answer : Answer) :
    (testingStage env r answer).Safe env := by
  unfold testingStage
  split
  · trivial
  · rename_i e he
    exact safe_failed (performAndAnalyze_safe h _ _) he

theorem step_safe {s t : Session} {answer : Answer} (hs : s.Safe env) (h : s.step env answer = some t) :
    t.Safe env := by
  cases s with
  | adjusting r =>
    cases h
    exact safe_adjustingStage hs answer
  | testing r =>
    cases h
    exact safe_testingStage hs answer
  | returned _ => cases h
  | crashed _ => cases h

/-- The assertions that leave it to the check to rule them out. The other one is about the service. -/
def Crash.shouldHaveBeenCaught : Crash → Bool
  | .metricsPlugin _ => true
  | .stepController _ => true
  | .inputVariableSetter _ => true
  | .scoringFunction _ => true
  | .missingPlugin _ => true
  | .secondResponse => false

/-- In a session on an accepted spec every plugin loads and every metric has its plugin. -/
theorem accepted_spec_never_asserts (env : Env) (spec : AdaptiveLoadSessionSpec)
    (hcheck : checkSessionSpec env (setSessionSpecDefaults spec) = .ok ())
    (answers : List Answer) (s : Session)
    (hrun : exec (Session.step env) (performAdaptiveLoadSession env spec) answers = some s) :
    ∀ c, s = .crashed c → c.shouldHaveBeenCaught = false := by
  have hstart : (performAdaptiveLoadSession env spec).Safe env := by
    obtain ⟨plugins, controller, -, hprepare, hprepared⟩ := prepare_ok hcheck
    unfold performAdaptiveLoadSession
    rw [hprepare]
    exact hprepared
  have hend : s.Safe env := exec_inv (fun _ _ _ => step_safe) hstart hrun
  intro c hc
  rw [hc] at hend
  have hsecond : c = .secondResponse := hend
  rw [hsecond]
  rfl

/-- Only the built-in plugins. The threshold is a success rate of one, and the search begins at load 1
with steps of half a percent. -/
def builtinEnv : Env where
  inputVariableSetters _ := none
  scoringFunctions _ := none
  metricsPlugins _ := none
  stepControllers _ := none
  unpackRequestsPerSecond _ := .ok ()
  unpackBinaryScoring _ := .ok { lowerThreshold := some (.num 1) }
  unpackLinearScoring _ := .ok {}
  unpackExponentialSearch _ := .ok { initialValue := .num 1, exponentialFactor := .num (201 / 200) }
  importedRules _ := true
  validationError _ := []
  doubleText _ := []
  secondsText _ := []

def successRateSpec : AdaptiveLoadSessionSpec where
  metricThresholds :=
    [⟨some ⟨"success-rate".toList, []⟩, some ⟨some ⟨"nighthawk.binary_scoring".toList, []⟩, none⟩⟩]
  stepControllerConfig := some ⟨"nighthawk.exponential_search".toList, []⟩

theorem successRateSpec_checked :
    checkSessionSpec builtinEnv (setSessionSpecDefaults successRateSpec) = .ok () := by
  rfl

/-- A service that responds twice. -/
def respondsTwice : Answer where
  call _ := { responses := [{}, {}] }

theorem accepted_spec_never_asserts_builtin :
    exec (Session.step builtinEnv) (performAdaptiveLoadSession builtinEnv successRateSpec) [respondsTwice] =
        some (.crashed .secondResponse) ∧
      Crash.shouldHaveBeenCaught .secondResponse = false := by
  have hrun : exec (Session.step builtinEnv) (performAdaptiveLoadSession builtinEnv successRateSpec)
      [respondsTwice] = some (.crashed .secondResponse) := rfl
  exact ⟨hrun, accepted_spec_never_asserts builtinEnv successRateSpec successRateSpec_checked _ _ hrun _ rfl⟩

end Nighthawk.AdaptiveLoad
