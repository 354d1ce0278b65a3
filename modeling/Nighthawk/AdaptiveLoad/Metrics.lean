import Nighthawk.AdaptiveLoad.Plugins
import Nighthawk.Options.Code
import Mathlib.Logic.Function.Basic

/-!
# Metrics of a benchmark

The built-in metrics plugin, and the evaluation of a benchmark's metrics against their thresholds.
-/

namespace Nighthawk.AdaptiveLoad

open Options Results

/-! ## The built-in plugin -/

def builtin : Str := "nighthawk.builtin".toList

/-- The first element that has the name. -/
def getNamed {α : Type} (name : α → Str) (notFound : Str) (wanted : Str) (l : List α) : Except Status α :=
  match l.find? fun x => name x = wanted with
  | some x => .ok x
  | none => .error ⟨.internal, notFound⟩

def getResult (output : Output) (name : Str) : Except Status Result :=
  getNamed Result.name ("Result '".toList ++ name ++
    "' not found in Nighthawk output.".toList) name output.results

/-- The counter is cut to 32 bits. -/
def getCounter (result : Result) (name : Str) : Except Status UInt32 :=
  (getNamed Counter.name ("Counter '".toList ++ name ++ "' not found in Result proto.".toList) name
    result.counters).map (·.value.toUInt32)

def getStatistic (result : Result) (id : Str) : Except Status Results.Statistic :=
  getNamed Results.Statistic.id
    ("Statistic '".toList ++ id ++ "' not found in Result proto.".toList) id result.statistics

/-- A counter that is missing is NaN and an error. -/
def counterOrNan (result : Result) (name : Str) : Double × List Str :=
  match getCounter result name with
  | .ok value => (.num value.toNat, [])
  | .error s => (.nan, [s.message])

abbrev Metrics := List (Str × Double)

/-- The metrics, and the errors. -/
def extractCounters (output : Output) : Metrics × List Str :=
  match getResult output "global".toList with
  | .error s => ([], [s.message])
  | .ok globalResult =>
    let actualDurationSeconds := (globalResult.executionDuration.getD {}).seconds
    let numberOfWorkers := if output.results.length = 1 then 1 else output.results.length - 1
    let requestsPerSecond := ((output.options.getD {}).requestsPerSecond).getD 0
    -- The product of an unsigned 32-bit and a signed 64-bit number is a signed 64-bit number.
    let totalSpecified : ℤ := int64 (requestsPerSecond.toNat * actualDurationSeconds * numberOfWorkers)
    let (totalSent, sentErrors) := counterOrNan globalResult "upstream_rq_total".toList
    let (total2xx, errors2xx) := counterOrNan globalResult "benchmark.http_2xx".toList
    let (rps, durationErrors) :=
      if 0 < actualDurationSeconds then
        ([("attempted-rps".toList, .num totalSpecified / .num actualDurationSeconds),
          ("achieved-rps".toList, totalSent / .num actualDurationSeconds)], [])
      else ([], ["Nighthawk returned a benchmark result with zero actual duration.".toList])
    let sendRate := if 0 < totalSpecified then totalSent / .num totalSpecified else .num 0
    let successRate := if .num 0 < totalSent then total2xx / totalSent else .num 0
    (rps ++ [("send-rate".toList, sendRate), ("success-rate".toList, successRate)],
      sentErrors ++ errors2xx ++ durationErrors)

def nanoseconds (d : Duration) : Double := .num (durationToNanoseconds d)

def extractStatistics (output : Output) : Metrics × List Str :=
  let statistic := do
    let globalResult ← getResult output "global".toList
    getStatistic globalResult "benchmark_http_client.request_to_response".toList
  match statistic with
  | .error s => ([], [s.message])
  | .ok statistic =>
    let mean := nanoseconds (durationOf statistic.mean)
    let pstdev := nanoseconds (durationOf statistic.pstdev)
    ([("latency-ns-min".toList, nanoseconds (durationOf statistic.min)),
      ("latency-ns-mean".toList, mean),
      ("latency-ns-max".toList, nanoseconds (durationOf statistic.max)),
      ("latency-ns-mean-plus-1stdev".toList, mean + pstdev),
      ("latency-ns-mean-plus-2stdev".toList, mean + .num 2 * pstdev),
      ("latency-ns-mean-plus-3stdev".toList, mean + .num 3 * pstdev),
      ("latency-ns-pstdev".toList, pstdev)], [])

def joined (separator : Str) (texts : List Str) : Str := separator.intercalate texts

def nighthawkStatsEmulatedMetricsPlugin (output : Output) : MetricsPlugin where
  getMetricByName _ name :=
    let (counters, counterErrors) := extractCounters output
    let (statistics, statisticErrors) := extractStatistics output
    if counterErrors ++ statisticErrors ≠ [] then
      .error ⟨.internal, joined ['\n'] (counterErrors ++ statisticErrors)⟩
    else
      match (counters ++ statistics).lookup name with
      | some value => .ok value
      | none =>
        .error ⟨.internal, "Metric '".toList ++ name ++ "' was not computed by the 'builtin' plugin.".toList⟩
  getAllSupportedMetricNames :=
    ["achieved-rps", "attempted-rps", "latency-ns-max", "latency-ns-mean", "latency-ns-mean-plus-1stdev",
      "latency-ns-mean-plus-2stdev", "latency-ns-mean-plus-3stdev", "latency-ns-min", "latency-ns-pstdev",
      "send-rate", "success-rate"].map String.toList

/-! ## The reporting period -/

namespace Timestamp

/-- The sum has nanoseconds in their range. -/
def addDuration (t : Timestamp) (d : Duration) : Timestamp :=
  ⟨t.seconds + d.seconds + (t.nanos + d.nanos) / nanosPerSecond, (t.nanos + d.nanos) % nanosPerSecond⟩

/-- The seconds and the nanoseconds of the difference have the same sign. -/
def subtract (t u : Timestamp) : Duration :=
  let count := (t.seconds - u.seconds) * nanosPerSecond + (t.nanos - u.nanos)
  ⟨count.tdiv nanosPerSecond, count.tmod nanosPerSecond⟩

def before (t u : Timestamp) : Bool :=
  if t.seconds = u.seconds then t.nanos < u.nanos else t.seconds < u.seconds

end Timestamp

def Result.start (r : Result) : Timestamp := r.executionStart.getD ⟨0, 0⟩

def Result.finish (r : Result) : Timestamp :=
  Timestamp.addDuration (Result.start r) (r.executionDuration.getD {})

def getReportingPeriod (output : Output) : Except Status ReportingPeriod :=
  match output.results with
  | [] => .error ⟨.invalidArgument, "output.results cannot be empty.".toList⟩
  | first :: _ =>
    let maxStartTime := output.results.foldl
      (fun t r => if Timestamp.before t (Result.start r) then Result.start r else t) (Result.start first)
    let minEndTime := output.results.foldl
      (fun t r => if Timestamp.before (Result.finish r) t then Result.finish r else t) (Result.finish first)
    if Timestamp.before maxStartTime minEndTime then
      .ok ⟨maxStartTime, Timestamp.subtract minEndTime maxStartTime⟩
    else .error ⟨.invalidArgument,
      ("Reported execution times in output.results indicate that there is no time " ++
      "where all workers were active.").toList⟩

/-! ## The evaluator -/

def getMetric (plugin : MetricsPlugin) (benchmark : Nat) (name : Str) (period : ReportingPeriod) :
    Except Status Double :=
  match plugin.getMetricByNameWithReportingPeriod benchmark name period with
  | .error s => if s.code = .unimplemented then plugin.getMetricByName benchmark name else .error s
  | .ok value => .ok value

/-- Without a threshold the metric is informational. -/
def evaluateMetric (env : Env) (benchmark : Nat) (metric : MetricSpec) (plugin : MetricsPlugin)
    (threshold : Option ThresholdSpec) (period : ReportingPeriod) : Except Failure MetricEvaluation :=
  match getMetric plugin benchmark metric.metricName period with
  | .error s =>
    .error (.status ⟨s.code, "Error calling MetricsPlugin '".toList ++ metric.metricsPluginName ++
      ": ".toList ++ s.message⟩)
  | .ok value =>
    let metricId := metric.metricsPluginName ++ '/' :: metric.metricName
    match threshold with
    | none => .ok { metricId, metricValue := value, weight := .num 0 }
    | some t => do
      let scoring ← (releaseAssert .scoringFunction
        (loadScoringFunctionPlugin env t.scoringFunctionConfig)).mapError .crash
      pure {
        metricId
        metricValue := value
        thresholdScore := scoring.evaluateMetric value
        weight := t.weight.getD (.num 0) }

def extractMetricSpecs (spec : AdaptiveLoadSessionSpec) : List (MetricSpec × Option ThresholdSpec) :=
  (spec.metricThresholds.map fun t => (t.metric, some t.threshold)) ++
    spec.informationalMetricSpecs.map fun m => (m, none)

abbrev PluginMap := Str → Option MetricsPlugin

/-- A name that is not in the map is looked up as a null pointer. -/
def evaluateThrough (env : Env) (benchmark : Nat) (plugins : PluginMap) (period : ReportingPeriod)
    (pair : MetricSpec × Option ThresholdSpec) : Except Failure MetricEvaluation :=
  match plugins pair.1.metricsPluginName with
  | some plugin => evaluateMetric env benchmark pair.1 plugin pair.2 period
  | none => .error (.crash (.missingPlugin pair.1.metricsPluginName))

/-- The evaluations, and the errors. -/
def evaluateMetrics (evaluate : MetricSpec × Option ThresholdSpec → Except Failure MetricEvaluation) :
    List (MetricSpec × Option ThresholdSpec) → Except Failure (List MetricEvaluation × List Str)
  | [] => .ok ([], [])
  | pair :: pairs =>
    match evaluate pair with
    | .error (.status s) => do
      let (evaluations, errors) ← evaluateMetrics evaluate pairs
      let error := "Error evaluating metric: ".toList ++ Text.decimal s.code.number ++
        ": ".toList ++ s.message
      pure (evaluations, error :: errors)
    | .error (.crash c) => .error (.crash c)
    | .ok evaluation => do
      let (evaluations, errors) ← evaluateMetrics evaluate pairs
      pure (evaluation :: evaluations, errors)

def analyzeNighthawkBenchmark (env : Env) (benchmark : Nat) (response : ExecutionResponse)
    (spec : AdaptiveLoadSessionSpec) (customPlugins : PluginMap) : Except Failure BenchmarkResult :=
  let errorDetail := response.errorDetail.getD {}
  let output := response.output.getD {}
  if errorDetail.code ≠ 0 then .error (.status ⟨.ofNumber errorDetail.code, errorDetail.message⟩)
  else
    let plugins := Function.update customPlugins builtin (some (nighthawkStatsEmulatedMetricsPlugin output))
    do
      let period ← (getReportingPeriod output).mapError .status
      let (evaluations, errors) ←
        evaluateMetrics (evaluateThrough env benchmark plugins period) (extractMetricSpecs spec)
      if errors ≠ [] then .error (.status ⟨.internal, joined ['\n'] errors⟩)
      else pure { nighthawkServiceOutput := some output, metricEvaluations := evaluations }

end Nighthawk.AdaptiveLoad
