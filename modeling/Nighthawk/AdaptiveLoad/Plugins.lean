import Nighthawk.AdaptiveLoad.Proto
import Nighthawk.Absl.Status
import Mathlib.Algebra.Order.Group.Unbundled.Abs
import Mathlib.Algebra.Order.Ring.Unbundled.Rat

/-!
# The plugins of the adaptive load controller

Input variable setters, scoring functions, metrics plugins and step controllers, and how they are
loaded by name. A plugin of another author is known only by what it answers. The same
configuration always validates and loads the same way.
-/

namespace Nighthawk.AdaptiveLoad

open Options Results

/-! ## Failures -/

/-- The assertions that end the process. The text is the message of the status that failed. -/
inductive Crash where
  | metricsPlugin (message : Str)
  | stepController (message : Str)
  | inputVariableSetter (message : Str)
  | scoringFunction (message : Str)
  | missingPlugin (name : Str)
  | secondResponse
  deriving DecidableEq

/-- How a call ends that does not return a value. -/
inductive Failure where
  | status (s : Status)
  | crash (c : Crash)
  deriving DecidableEq

/-- How a call of a factory ends that does not return a value. -/
inductive Raised where
  | failure (f : Failure)
  | exception (what : Str)
  deriving DecidableEq

/-- `THROW_IF_NOT_OK`. -/
def throwIfNotOk {α : Type} : Except Status α → Except Raised α := Except.mapError (.exception ·.message)

/-- `RELEASE_ASSERT` on a status. -/
def releaseAssert {α : Type} (crash : Str → Crash) : Except Failure α → Except Crash α :=
  Except.mapError fun
    | .status s => crash s.message
    | .crash c => c

/-! ## Loading -/

structure Factory (α : Type) where
  validateConfig : Message → Except Raised Unit
  create : Message → Except Raised α

def getAndCheckFactoryByName {α : Type} (registry : Str → Option (Factory α)) (name : Str) :
    Except Raised (Factory α) :=
  if name = [] then .error (.exception "Provided name for static registration lookup was empty.".toList)
  else
    match registry name with
    | some factory => .ok factory
    | none => .error (.exception
        ("Didn't find a registered implementation for name: '".toList ++ name ++ ['\'']))

/-- What the loaders do with an exception. -/
def caught (name : Str) : Raised → Failure
  | .failure f => f
  | .exception what => .status
      ⟨.invalidArgument, "Could not load plugin: ".toList ++ name ++ ": ".toList ++ what⟩

/-- The body of each `Load…Plugin`. -/
def loadPlugin {α : Type} (registry : Str → Option (Factory α)) (config : TypedExtensionConfig) :
    Except Failure α :=
  Except.mapError (caught config.name) do
    let factory ← getAndCheckFactoryByName registry config.name
    factory.validateConfig config.typedConfig
    factory.create config.typedConfig

/-! ## The interfaces -/

structure InputVariableSetter where
  setInputVariable : CommandLineOptions → Double → Except Status CommandLineOptions

structure ScoringFunction where
  evaluateMetric : Double → Double

structure ReportingPeriod where
  startTime : Timestamp
  duration : Duration
  deriving DecidableEq

/-- The number counts the benchmarks: a plugin may answer differently after each. -/
structure MetricsPlugin where
  getMetricByName : Nat → Str → Except Status Double
  getMetricByNameWithReportingPeriod : Nat → Str → ReportingPeriod → Except Status Double :=
    fun _ _ _ => .error ⟨.unimplemented, "GetMetricByNameWithReportingPeriod not implemented.".toList⟩
  getAllSupportedMetricNames : List Str

/-- A controller of another author answers from the results that it was given. -/
structure CustomStepController where
  getCurrentCommandLineOptions : List BenchmarkResult → Except Status CommandLineOptions
  isConverged : List BenchmarkResult → Bool
  isDoomed : List BenchmarkResult → Option Str

structure ExponentialSearchStepController where
  commandLineOptionsTemplate : CommandLineOptions
  inputVariableSetter : InputVariableSetter
  exponentialFactor : Double
  isRangeFindingPhase : Bool := true
  previousLoadValue : Double := .nan
  currentLoadValue : Double
  bottomLoadValue : Double := .nan
  topLoadValue : Double := .nan
  doomReason : Str := []

inductive StepController where
  | exponentialSearch (controller : ExponentialSearchStepController)
  | custom (controller : CustomStepController) (results : List BenchmarkResult)

/-- The plugins that are registered under names of their own, what unpacks a configuration, the
rules of imported messages, and the texts that the libraries make. -/
structure Env where
  inputVariableSetters : Str → Option (Factory InputVariableSetter)
  scoringFunctions : Str → Option (Factory ScoringFunction)
  metricsPlugins : Str → Option (Factory MetricsPlugin)
  stepControllers : Str → Option (CommandLineOptions → Factory StepController)
  unpackRequestsPerSecond : Message → Except Status Unit
  unpackBinaryScoring : Message → Except Status BinaryScoringFunctionConfig
  unpackLinearScoring : Message → Except Status LinearScoringFunctionConfig
  unpackExponentialSearch : Message → Except Status ExponentialSearchStepControllerConfig
  importedRules : AdaptiveLoadSessionSpec → Bool
  validationError : AdaptiveLoadSessionSpec → Str
  doubleText : Double → Str
  secondsText : ℤ → Str

/-! ## Input variable setters -/

/-- The cast cuts the fraction off. -/
def toUInt32 : Double → UInt32
  | .nan => 0
  | .num x => UInt32.ofNat x.floor.toNat

def requestsPerSecondInputVariableSetter (env : Env) : InputVariableSetter where
  setInputVariable options inputValue :=
    if inputValue < .num 0 ∨ .num 4294967295 < inputValue then
      .error ⟨.internal, "Input value out of range for uint32 requests_per_second: ".toList ++
        env.doubleText inputValue⟩
    else .ok { options with requestsPerSecond := some (toUInt32 inputValue) }

def requestsPerSecondInputVariableSetterConfigFactory (env : Env) : Factory InputVariableSetter where
  validateConfig _ := .ok ()
  create message := do
    throwIfNotOk (env.unpackRequestsPerSecond message)
    pure (requestsPerSecondInputVariableSetter env)

def loadInputVariableSetterPlugin (env : Env) : TypedExtensionConfig → Except Failure InputVariableSetter :=
  loadPlugin fun name =>
    if name = "nighthawk.rps".toList then some (requestsPerSecondInputVariableSetterConfigFactory env)
    else env.inputVariableSetters name

/-! ## Scoring functions -/

/-- An absent threshold is infinite. -/
def binaryScoringFunction (config : BinaryScoringFunctionConfig) : ScoringFunction where
  evaluateMetric value :=
    let belowUpper := match config.upperThreshold with
      | some upper => decide (value ≤ upper)
      | none => !value.isNan
    let aboveLower := match config.lowerThreshold with
      | some lower => decide (lower ≤ value)
      | none => !value.isNan
    if belowUpper && aboveLower then .num 1 else .num (-1)

def linearScoringFunction (config : LinearScoringFunctionConfig) : ScoringFunction where
  evaluateMetric value := config.scalingConstant * (config.threshold - value)

/-- The factories of the two scoring functions. -/
def scoringFunctionConfigFactory {α : Type} (unpack : Message → Except Status α)
    (make : α → ScoringFunction) :
    Factory ScoringFunction where
  validateConfig _ := .ok ()
  create message := do
    let config ← throwIfNotOk (unpack message)
    pure (make config)

def binaryScoringFunctionConfigFactory (env : Env) : Factory ScoringFunction :=
  scoringFunctionConfigFactory env.unpackBinaryScoring binaryScoringFunction

def linearScoringFunctionConfigFactory (env : Env) : Factory ScoringFunction :=
  scoringFunctionConfigFactory env.unpackLinearScoring linearScoringFunction

def loadScoringFunctionPlugin (env : Env) : TypedExtensionConfig → Except Failure ScoringFunction :=
  loadPlugin fun name =>
    if name = "nighthawk.binary_scoring".toList then some (binaryScoringFunctionConfigFactory env)
    else if name = "nighthawk.linear_scoring".toList then some (linearScoringFunctionConfigFactory env)
    else env.scoringFunctions name

/-- The built-in metrics plugin is not registered. -/
def loadMetricsPlugin (env : Env) : TypedExtensionConfig → Except Failure MetricsPlugin :=
  loadPlugin env.metricsPlugins

/-! ## Step controllers -/

def totalScore (result : BenchmarkResult) : Double :=
  if result.metricEvaluations.any fun e => .num 0 < e.weight && e.thresholdScore < .num 0 then
    .num (-1) else .num 1

def doomedAtInitialLoad : Str :=
  ("ExponentialSearchStepController cannot continue if the metrics values already exceed " ++
    "metric thresholds with the initial load. Check the initial load value in the " ++
    "ExponentialSearchStepControllerConfig, requested metrics, and thresholds.").toList

namespace ExponentialSearchStepController

/-- The setter is nested in the controller's configuration. -/
def loadSetter (env : Env) (config : ExponentialSearchStepControllerConfig) :
    Except Crash InputVariableSetter :=
  match config.inputVariableSetter with
  | some setterConfig => releaseAssert .inputVariableSetter (loadInputVariableSetterPlugin env setterConfig)
  | none => .ok (requestsPerSecondInputVariableSetter env)

/-- The constructor. -/
def new (env : Env) (config : ExponentialSearchStepControllerConfig) (template : CommandLineOptions) :
    Except Crash ExponentialSearchStepController := do
  let setter ← loadSetter env config
  pure {
    commandLineOptionsTemplate := template
    inputVariableSetter := setter
    exponentialFactor := if .num 0 < config.exponentialFactor then config.exponentialFactor else .num 2
    currentLoadValue := config.initialValue }

def getCurrentCommandLineOptions (c : ExponentialSearchStepController) : Except Status CommandLineOptions :=
  c.inputVariableSetter.setInputVariable c.commandLineOptionsTemplate c.currentLoadValue

def isConverged (c : ExponentialSearchStepController) : Bool :=
  c.doomReason = [] && !c.isRangeFindingPhase &&
    (c.currentLoadValue / c.previousLoadValue - .num 1).map (|·|) < .num (1 / 100)

def isDoomed (c : ExponentialSearchStepController) : Option Str :=
  if c.doomReason = [] then none else some c.doomReason

def iterateRangeFindingPhase (c : ExponentialSearchStepController) (score : Double) :
    ExponentialSearchStepController :=
  if .num 0 < score then
    { c with
      previousLoadValue := c.currentLoadValue
      currentLoadValue := c.currentLoadValue * c.exponentialFactor }
  else if c.previousLoadValue.isNan then { c with doomReason := doomedAtInitialLoad }
  else
    { c with
      isRangeFindingPhase := false
      bottomLoadValue := c.previousLoadValue
      topLoadValue := c.currentLoadValue
      previousLoadValue := c.currentLoadValue
      currentLoadValue := (c.previousLoadValue + c.currentLoadValue) / .num 2 }

def iterateBinarySearchPhase (c : ExponentialSearchStepController) (score : Double) :
    ExponentialSearchStepController :=
  let bottom := if .num 0 < score then c.currentLoadValue else c.bottomLoadValue
  let top := if .num 0 < score then c.topLoadValue else c.currentLoadValue
  { c with
    bottomLoadValue := bottom
    topLoadValue := top
    previousLoadValue := c.currentLoadValue
    currentLoadValue := (bottom + top) / .num 2 }

def updateAndRecompute (c : ExponentialSearchStepController) (result : BenchmarkResult) :
    ExponentialSearchStepController :=
  if c.isRangeFindingPhase then c.iterateRangeFindingPhase (totalScore result)
  else c.iterateBinarySearchPhase (totalScore result)

end ExponentialSearchStepController

def exponentialSearchStepControllerConfigFactory (env : Env) (template : CommandLineOptions) :
    Factory StepController where
  validateConfig message := do
    let config ← (env.unpackExponentialSearch message).mapError (.failure <| .status ·)
    match config.inputVariableSetter with
    | some setterConfig =>
      let _ ← (loadInputVariableSetterPlugin env setterConfig).mapError .failure
    | none => pure ()
  create message := do
    let config ← throwIfNotOk (env.unpackExponentialSearch message)
    let controller ← (ExponentialSearchStepController.new env config template).mapError (.failure <| .crash ·)
    pure (.exponentialSearch controller)

def loadStepControllerPlugin (env : Env) (config : TypedExtensionConfig) (template : CommandLineOptions) :
    Except Failure StepController :=
  loadPlugin (fun name =>
    if name = "nighthawk.exponential_search".toList then
      some (exponentialSearchStepControllerConfigFactory env template)
    else (env.stepControllers name).map (· template)) config

namespace StepController

def getCurrentCommandLineOptions : StepController → Except Status CommandLineOptions
  | exponentialSearch c => c.getCurrentCommandLineOptions
  | custom c results => c.getCurrentCommandLineOptions results

def isConverged : StepController → Bool
  | exponentialSearch c => c.isConverged
  | custom c results => c.isConverged results

def isDoomed : StepController → Option Str
  | exponentialSearch c => c.isDoomed
  | custom c results => c.isDoomed results

def updateAndRecompute : StepController → BenchmarkResult → StepController
  | exponentialSearch c, result => exponentialSearch (c.updateAndRecompute result)
  | custom c results, result => custom c (results ++ [result])

end StepController

end Nighthawk.AdaptiveLoad
