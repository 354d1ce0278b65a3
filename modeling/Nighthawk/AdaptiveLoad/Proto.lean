import Nighthawk.Results.Proto

/-!
# The messages of the adaptive load controller

The messages of `api/adaptive_load`. A wrapped value and a submessage are `none` when they are
absent.
-/

namespace Nighthawk.AdaptiveLoad

open Options Results

structure MetricSpec where
  metricName : Str := []
  metricsPluginName : Str := []
  deriving DecidableEq

structure ThresholdSpec where
  scoringFunction : Option TypedExtensionConfig := none
  weight : Option Double := none
  deriving DecidableEq

structure MetricSpecWithThreshold where
  metricSpec : Option MetricSpec := none
  thresholdSpec : Option ThresholdSpec := none
  deriving DecidableEq

structure AdaptiveLoadSessionSpec where
  metricsPluginConfigs : List TypedExtensionConfig := []
  metricThresholds : List MetricSpecWithThreshold := []
  informationalMetricSpecs : List MetricSpec := []
  nighthawkTrafficTemplate : Option CommandLineOptions := none
  measuringPeriod : Option Duration := none
  convergenceDeadline : Option Duration := none
  testingStageDuration : Option Duration := none
  benchmarkCooldownDuration : Option Duration := none
  stepControllerConfig : Option TypedExtensionConfig := none
  deriving DecidableEq

structure MetricEvaluation where
  metricId : Str
  metricValue : Double := .num 0
  thresholdScore : Double := .num 0
  weight : Double := .num 0
  deriving DecidableEq

structure BenchmarkResult where
  nighthawkServiceOutput : Option Output := none
  metricEvaluations : List MetricEvaluation := []
  startTime : Option Timestamp := none
  endTime : Option Timestamp := none
  deriving DecidableEq

structure AdaptiveLoadSessionOutput where
  adjustingStageResults : List BenchmarkResult := []
  testingStageResult : Option BenchmarkResult := none
  metricThresholds : List MetricSpecWithThreshold := []
  deriving DecidableEq

structure ExponentialSearchStepControllerConfig where
  inputVariableSetter : Option TypedExtensionConfig := none
  initialValue : Double := .num 0
  exponentialFactor : Double := .num 0
  deriving DecidableEq

structure BinaryScoringFunctionConfig where
  lowerThreshold : Option Double := none
  upperThreshold : Option Double := none
  deriving DecidableEq

structure LinearScoringFunctionConfig where
  threshold : Double := .num 0
  scalingConstant : Double := .num 0
  deriving DecidableEq

/-! ## The accessors, which give a default for what is absent -/

def noConfig : TypedExtensionConfig := ⟨[], []⟩

def ThresholdSpec.scoringFunctionConfig (t : ThresholdSpec) : TypedExtensionConfig :=
  t.scoringFunction.getD noConfig

def MetricSpecWithThreshold.metric (t : MetricSpecWithThreshold) : MetricSpec := t.metricSpec.getD {}

def MetricSpecWithThreshold.threshold (t : MetricSpecWithThreshold) : ThresholdSpec := t.thresholdSpec.getD {}

def AdaptiveLoadSessionSpec.template (s : AdaptiveLoadSessionSpec) : CommandLineOptions :=
  s.nighthawkTrafficTemplate.getD {}

def AdaptiveLoadSessionSpec.controllerConfig (s : AdaptiveLoadSessionSpec) : TypedExtensionConfig :=
  s.stepControllerConfig.getD noConfig

/-! ## Validation rules -/

def isPositive (d : Option Duration) : Bool := d.all fun d => 0 < d.seconds * 1000000000 + d.nanos

def MetricSpec.valid (m : MetricSpec) : Bool := m.metricName ≠ []

def ThresholdSpec.valid (t : ThresholdSpec) : Bool :=
  t.scoringFunction.isSome && t.weight.all fun w => .num 0 < w

def MetricSpecWithThreshold.valid (t : MetricSpecWithThreshold) : Bool :=
  t.metricSpec.any MetricSpec.valid && t.thresholdSpec.any ThresholdSpec.valid

/-- The rules of these files. -/
def AdaptiveLoadSessionSpec.valid (s : AdaptiveLoadSessionSpec) : Bool :=
  s.metricThresholds ≠ [] && s.metricThresholds.all MetricSpecWithThreshold.valid &&
    s.informationalMetricSpecs.all MetricSpec.valid &&
      s.nighthawkTrafficTemplate.any CommandLineOptions.valid &&
    isPositive s.measuringPeriod && isPositive s.convergenceDeadline && isPositive s.testingStageDuration &&
    isPositive s.benchmarkCooldownDuration && s.stepControllerConfig.isSome

end Nighthawk.AdaptiveLoad
