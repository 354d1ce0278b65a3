import Nighthawk.AdaptiveLoad.Metrics
import Nighthawk.Lib.Runs

/-!
# The adaptive load session

The defaults and the check of a session spec, and the session itself. A step of the session is one
benchmark. What is outside the controller answers it.
-/

namespace Nighthawk.AdaptiveLoad

open Options Results

/-! ## The session spec -/

def MetricSpec.withDefaults (m : MetricSpec) : MetricSpec :=
  if m.metricsPluginName = [] then { m with metricsPluginName := builtin } else m

def MetricSpecWithThreshold.withDefaults (t : MetricSpecWithThreshold) : MetricSpecWithThreshold where
  metricSpec :=
    if t.metric.metricsPluginName = [] then
      some { t.metric with metricsPluginName := builtin } else t.metricSpec
  thresholdSpec :=
    if t.threshold.weight = none then some { t.threshold with weight := some (.num 1) } else t.thresholdSpec

def setSessionSpecDefaults (spec : AdaptiveLoadSessionSpec) : AdaptiveLoadSessionSpec :=
  { spec with
    nighthawkTrafficTemplate :=
      if spec.template.openLoop = none then some { spec.template with openLoop := some true }
      else spec.nighthawkTrafficTemplate
    measuringPeriod := some (spec.measuringPeriod.getD ⟨10, 0⟩)
    convergenceDeadline := some (spec.convergenceDeadline.getD ⟨300, 0⟩)
    testingStageDuration := some (spec.testingStageDuration.getD ⟨30, 0⟩)
    metricThresholds := spec.metricThresholds.map MetricSpecWithThreshold.withDefaults
    informationalMetricSpecs := spec.informationalMetricSpecs.map MetricSpec.withDefaults }

/-- What was loaded, and the error when it failed with a status. -/
def attempt {α : Type} (what : Str) : Except Failure α → Except Failure (Option α × List Str)
  | .ok a => .ok (some a, [])
  | .error (.status s) => .ok (none, ["Failed to load ".toList ++ what ++ ": ".toList ++ s.message])
  | .error (.crash c) => .error (.crash c)

def checkMetricsPlugins (env : Env) :
    List TypedExtensionConfig → PluginMap → Except Failure (PluginMap × List Str)
  | [], plugins => .ok (plugins, [])
  | config :: configs, plugins => do
    let (plugin, error) ← attempt "MetricsPlugin".toList (loadMetricsPlugin env config)
    let (plugins, errors) ← checkMetricsPlugins env configs
      (if plugin.isSome then Function.update plugins config.name plugin else plugins)
    pure (plugins, error ++ errors)

def checkScoringFunctions (env : Env) : List MetricSpecWithThreshold → Except Failure (List Str)
  | [] => .ok []
  | t :: thresholds => do
    let (_, error) ← attempt "ScoringFunction plugin".toList
      (loadScoringFunctionPlugin env t.threshold.scoringFunctionConfig)
    let errors ← checkScoringFunctions env thresholds
    pure (error ++ errors)

def checkMetricSpec (plugins : PluginMap) (pluginNames : List Str) (m : MetricSpec) : List Str :=
  match plugins m.metricsPluginName with
  | some plugin =>
    if m.metricName ∈ plugin.getAllSupportedMetricNames then []
    else ["Metric named '".toList ++ m.metricName ++
      "' not implemented by plugin '".toList ++ m.metricsPluginName ++
      "'. Metrics implemented: ".toList ++ joined ", ".toList plugin.getAllSupportedMetricNames ++ ['.']]
  | none =>
    ["MetricSpec referred to nonexistent metrics_plugin_name '".toList ++ m.metricsPluginName ++
      ("'. You must declare the plugin in metrics_plugin_configs or use plugin " ++
        "'nighthawk.builtin'. Available plugins: ").toList ++ joined ", ".toList pluginNames ++ ['.']]

def hasDuration (options : CommandLineOptions) : Bool :=
  match options.durationOptions with
  | some (.duration _) => true
  | _ => false

/-- The end of the check. -/
def reportErrors (errors : List Str) : Except Failure Unit :=
  if errors = [] then .ok () else .error (.status ⟨.invalidArgument, joined ['\n'] errors⟩)

def checkSessionSpec (env : Env) (spec : AdaptiveLoadSessionSpec) : Except Failure Unit := do
  let durationErrors :=
    if hasDuration spec.template then
      [("nighthawk_traffic_template should not have |duration| set. Set |measuring_period| " ++
        "and |testing_stage_duration| in the AdaptiveLoadSessionSpec proto instead.").toList]
    else []
  let ruleErrors :=
    if spec.valid && env.importedRules spec then []
    else ["the AdaptiveLoadSessionSpec doesn't validate: ".toList ++ env.validationError spec]
  let (plugins, pluginErrors) ← checkMetricsPlugins env spec.metricsPluginConfigs
    (Function.update (fun _ => none) builtin (some (nighthawkStatsEmulatedMetricsPlugin {})))
  let (_, controllerErrors) ← attempt "StepController plugin".toList
    (loadStepControllerPlugin env spec.controllerConfig spec.template)
  let scoringErrors ← checkScoringFunctions env spec.metricThresholds
  let pluginNames := builtin :: spec.metricsPluginConfigs.map TypedExtensionConfig.name
  let metricErrors := (extractMetricSpecs spec).flatMap fun pair => checkMetricSpec plugins pluginNames pair.1
  reportErrors (durationErrors ++ ruleErrors ++ pluginErrors ++ controllerErrors ++
    scoringErrors ++ metricErrors)

/-! ## One benchmark -/

/-- What a call of the service does: whether the request is written, the messages that are read, and
the status at the end. -/
structure ServiceCall where
  write : Bool := true
  writesDone : Bool := true
  responses : List ExecutionResponse
  finish : Except Status Unit := .ok ()

def performNighthawkBenchmark (call : ServiceCall) : Except Failure ExecutionResponse :=
  if !call.write then
    .error (.status ⟨.unavailable, "Failed to write request to the Nighthawk Service gRPC channel.".toList⟩)
  else if !call.writesDone then
    .error (.status ⟨.internal, "WritesDone() failed on the Nighthawk Service gRPC channel.".toList⟩)
  else
    match call.responses with
    | [] => .error (.status ⟨.internal, "Nighthawk Service did not send a gRPC response.".toList⟩)
    | _ :: _ :: _ => .error (.crash .secondResponse)
    | [response] => (call.finish.mapError .status).map fun _ => response

/-- What happens outside the controller during one benchmark. `elapsed` is what the clock shows
after it and after the cool-down, in nanoseconds since the adjusting stage began. -/
structure Answer where
  call : CommandLineOptions → ServiceCall
  startTime : Timestamp := ⟨0, 0⟩
  endTime : Timestamp := ⟨0, 0⟩
  elapsed : ℤ := 0

structure Running where
  spec : AdaptiveLoadSessionSpec
  plugins : PluginMap
  controller : StepController
  results : List BenchmarkResult := []

/-- The options that the service is asked for. -/
def Running.commandLineOptions (r : Running) (duration : Duration) : Except Status CommandLineOptions :=
  r.controller.getCurrentCommandLineOptions.map fun options =>
    { options with durationOptions := some (.duration duration) }

def performAndAnalyzeNighthawkBenchmark (env : Env) (r : Running) (duration : Duration) (answer : Answer) :
    Except Failure (BenchmarkResult × StepController) := do
  let options ← (r.commandLineOptions duration).mapError .status
  let response ← performNighthawkBenchmark (answer.call options)
  let result ← analyzeNighthawkBenchmark env r.results.length response r.spec r.plugins
  let result := { result with startTime := some answer.startTime, endTime := some answer.endTime }
  pure (result, r.controller.updateAndRecompute result)

/-! ## The session -/

inductive Session where
  | adjusting (r : Running)
  | testing (r : Running)
  | returned (result : Except Status AdaptiveLoadSessionOutput)
  | crashed (c : Crash)

def Session.failed : Failure → Session
  | .status s => .returned (.error s)
  | .crash c => .crashed c

def loadMetricsPlugins (env : Env) : List TypedExtensionConfig → PluginMap → Except Crash PluginMap
  | [], plugins => .ok plugins
  | config :: configs, plugins => do
    let plugin ← releaseAssert .metricsPlugin (loadMetricsPlugin env config)
    loadMetricsPlugins env configs (Function.update plugins config.name (some plugin))

def loadStepControllerPluginFromSpec (env : Env) (spec : AdaptiveLoadSessionSpec) :
    Except Crash StepController :=
  releaseAssert .stepController (loadStepControllerPlugin env spec.controllerConfig spec.template)

/-- What comes before the first benchmark. -/
def prepare (env : Env) (inputSpec : AdaptiveLoadSessionSpec) : Except Failure Running := do
  let spec := setSessionSpecDefaults inputSpec
  checkSessionSpec env spec
  let plugins ← (loadMetricsPlugins env spec.metricsPluginConfigs fun _ => none).mapError .crash
  let controller ← (loadStepControllerPluginFromSpec env spec).mapError .crash
  pure { spec, plugins, controller }

def performAdaptiveLoadSession (env : Env) (inputSpec : AdaptiveLoadSessionSpec) : Session :=
  match prepare env inputSpec with
  | .ok r => .adjusting r
  | .error e => .failed e

/-- The end of the adjusting loop. -/
def afterAdjusting (env : Env) (r : Running) (elapsed : ℤ) : Session :=
  let timeLimit := durationToNanoseconds (r.spec.convergenceDeadline.getD {})
  if timeLimit < elapsed then
    .returned (.error ⟨.deadlineExceeded,
      "Failed to converge before deadline of ".toList ++ env.secondsText timeLimit ++ " seconds.".toList⟩)
  else
    match r.controller.isDoomed with
    | some doomReason => .returned (.error ⟨.aborted,
        "Step controller determined that it can never converge: ".toList ++ doomReason⟩)
    | none => if r.controller.isConverged then .testing r else .adjusting r

/-- One turn of the adjusting loop. -/
def adjustingStage (env : Env) (r : Running) (answer : Answer) : Session :=
  match performAndAnalyzeNighthawkBenchmark env r (r.spec.measuringPeriod.getD {}) answer with
  | .ok (result, controller) =>
      afterAdjusting env { r with controller, results := r.results ++ [result] } answer.elapsed
  | .error e => .failed e

def testingStage (env : Env) (r : Running) (answer : Answer) : Session :=
  match performAndAnalyzeNighthawkBenchmark env r (r.spec.testingStageDuration.getD {}) answer with
  | .ok (result, _) => .returned (.ok ⟨r.results, some result, r.spec.metricThresholds⟩)
  | .error e => .failed e

/-- A session that has ended makes no benchmark. -/
def Session.step (env : Env) : Session → Answer → Option Session
  | .adjusting r, answer => some (adjustingStage env r answer)
  | .testing r, answer => some (testingStage env r answer)
  | .returned _, _ => none
  | .crashed _, _ => none

end Nighthawk.AdaptiveLoad
