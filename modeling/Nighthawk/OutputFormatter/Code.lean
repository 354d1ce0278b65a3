import Nighthawk.Lib.Exposition
import Nighthawk.Lib.SortedMap
import Nighthawk.Options.Code
import Nighthawk.Results.Proto

/-!
# Output formatters

From `output_formatter_impl.cc`: the percentiles that all formatters report, the durations of the
console and CSV formatters, the histogram of the Fortio formatter, and the Prometheus formatter.
-/

namespace Nighthawk.OutputFormatter

open Options Results

/-! ## Reported percentiles -/

/-- The values that the literals `.0, .5, .75, .8, .9, .95, .99, .999, 1.` have as doubles. -/
def targetPercentiles : List Double :=
  [.num 0, .num (1 / 2), .num (3 / 4), .num (3602879701896397 / 4503599627370496),
    .num (8106479329266893 / 9007199254740992), .num (4278419646001971 / 4503599627370496),
    .num (4458563631096791 / 4503599627370496), .num (8998192055486251 / 9007199254740992), .num 1]

/-- The entries of the remaining callbacks: one turn of the outer loop for each target. -/
def iteratePercentilesFrom (percentiles : List Percentile) (lastPercentile : Double) :
    List Double → List Percentile
  | [] => []
  | p :: targets =>
    match percentiles.find? fun e => p ≤ e.percentile ∧ lastPercentile < e.percentile with
    | some e => e :: iteratePercentilesFrom percentiles e.percentile targets
    | none => iteratePercentilesFrom percentiles lastPercentile targets

/-- The entries that the callback gets, in order. -/
def iteratePercentiles (statistic : Results.Statistic) : List Percentile :=
  iteratePercentilesFrom statistic.percentiles (.num (-1)) targetPercentiles

/-! ## Durations -/

/-- `TimeUtil::DurationToMicroseconds`. -/
def durationToMicroseconds (d : Duration) : ℤ := int64 (d.seconds * 1000000 + d.nanos.tdiv 1000)

/-- The format `{}s {:03}ms {:03}us`. -/
def secondsText (s ms us : ℤ) : Str :=
  Text.padded 0 s ++ "s ".toList ++ Text.padded 3 ms ++ "ms ".toList ++ Text.padded 3 us ++ "us".toList

/-- The remainders and quotients are those of C++. -/
def splitMicroseconds (microseconds : ℤ) : Str :=
  secondsText ((microseconds.tmod 1000000000).tdiv 1000000) ((microseconds.tmod 1000000).tdiv 1000)
    (microseconds.tmod 1000)

namespace Console

def formatProtoDuration (duration : Duration) : Str := splitMicroseconds (durationToMicroseconds duration)

end Console

namespace Csv

def formatProtoDuration (duration : Duration) : Str := splitMicroseconds (durationToMicroseconds duration)

end Csv

/-- `has_x() ? ofDuration(x()) : ofRaw(raw_x())`, where `raw_x()` is zero if neither member is set. -/
def memberValue {α β : Type} (ofDuration : Duration → β) (ofRaw : α → β) (zero : α) :
    Option (DurationOrRaw α) → β
  | some (.duration d) => ofDuration d
  | some (.raw value) => ofRaw value
  | none => ofRaw zero

def toDouble (n : UInt64) : Double := .num n.toNat

/-! ## Fortio -/

namespace Fortio

structure DataEntry where
  start : Double
  endValue : Double
  percent : Double
  count : UInt64
  deriving DecidableEq

structure HistogramPercentile where
  percentile : Double
  value : Double
  deriving DecidableEq

structure DurationHistogram where
  count : UInt64
  max : Double
  min : Double
  sum : Double
  avg : Double
  stddev : Double
  data : List DataEntry
  percentiles : List HistogramPercentile
  deriving DecidableEq

def durationToSeconds (duration : Duration) : Double := .num (durationToNanoseconds duration / 1000000000)

def percentileValue (p : Percentile) : Double := memberValue durationToSeconds id (.num 0) p.durationType

/-- The loop over the entries. Only before the first of them there is no previous end. -/
def dataEntries (prevFortioCount : UInt64) (prevFortioEnd : Option Double) : List Percentile → List DataEntry
  | [] => []
  | p :: rest =>
    let value := percentileValue p
    { start := prevFortioEnd.getD value
      endValue := value
      percent := p.percentile * .num 100
      count := p.count - prevFortioCount } :: dataEntries p.count (some value) rest

def renderFortioDurationHistogram (nhStat : Results.Statistic) : DurationHistogram :=
  let avg := memberValue durationToSeconds id (.num 0) nhStat.mean
  { count := nhStat.count
    avg
    min := memberValue durationToSeconds toDouble 0 nhStat.min
    sum := toDouble nhStat.count * avg
    max := memberValue durationToSeconds toDouble 0 nhStat.max
    stddev := memberValue durationToSeconds id (.num 0) nhStat.pstdev
    data := dataEntries 0 none nhStat.percentiles
    percentiles := ((iteratePercentiles nhStat).filter fun p => .num 0 < p.percentile ∧
      p.percentile < .num 1).map
      fun p => ⟨(p.percentile * .num 1000).map (fun x => x.floor) / .num 10, percentileValue p⟩ }

end Fortio

/-! ## Prometheus -/

namespace Prometheus

open Exposition (Kind)

/-- The default format of a double: the shortest text that is read as this number. -/
structure DoubleFormat where
  text : Double → Str
  injective : Function.Injective text
  plain : ∀ x, ∀ c ∈ text x, c ≠ '\n' ∧ c ≠ '\x7d' ∧ c ≠ '"'

/-- The cast of a double to `int64_t`, with what x86-64 gives for a number that does not fit. -/
def castInt64 : Double → ℤ
  | .nan => -2 ^ 63
  | .num x =>
    let n := x.num.tdiv x.den
    if -2 ^ 63 ≤ n ∧ n < 2 ^ 63 then n else -2 ^ 63

/-- The arguments of one call of `populateMetric`. -/
structure Metric where
  name : Str
  type : Kind
  labels : Str
  value : Str
  suffix : Str := []

/-- The streams of the type definitions, which `std::map` keeps sorted. -/
def populateMetric (metricsOutput : List (Str × Str)) (m : Metric) : List (Str × Str) :=
  SortedMap.extend (m.name ++ ' ' :: m.type.text)
    (m.name ++ m.suffix ++ '\x7b' :: (m.labels ++ '\x7d' :: ' ' :: m.value) ++ ['\n']) metricsOutput

def metricName (name : Str) : Str := "nighthawk_".toList ++ name.map fun c => if c = '.' then '_' else c

def scopeLabel (scope : Str) : Str := "scope=\"".toList ++ scope ++ "\"".toList

def quantileLabel (format : DoubleFormat) (scope : Str) (percentile : Double) : Str :=
  scopeLabel scope ++ ",quantile=\"".toList ++ format.text percentile ++ "\"".toList

def microsecondsText (d : Duration) : Str := Text.padded 0 (durationToMicroseconds d)

/-- The calls of `populateMetric` for a statistic. There are none without an id. -/
def statisticMetrics (format : DoubleFormat) (scope : Str) (statistic : Results.Statistic) : List Metric :=
  if statistic.id = [] then []
  else
    let name := metricName statistic.id
    let labels := scopeLabel scope
    let unsignedText (value : UInt64) : Str := Text.decimal value.toNat
    let mean := memberValue (fun d => .num (durationToMicroseconds d)) id (.num 0) statistic.mean
    let count := unsignedText statistic.count
    let sum := format.text (mean * toDouble statistic.count)
    [{ name := name ++ "_min".toList, type := .counter, labels,
        value := memberValue microsecondsText unsignedText 0 statistic.min },
      { name := name ++ "_max".toList, type := .counter, labels,
        value := memberValue microsecondsText unsignedText 0 statistic.max },
      { name := name ++ "_mean".toList, type := .counter, labels, value := format.text mean },
      { name := name ++ "_pstdev".toList, type := .counter, labels,
        value := memberValue microsecondsText format.text (.num 0) statistic.pstdev }] ++
    ((iteratePercentiles statistic).map fun p =>
      { name, type := .summary, labels := quantileLabel format scope p.percentile,
        value := memberValue microsecondsText (fun raw => Text.padded 0 (castInt64 raw)) (.num 0) p.durationType }) ++
    -- Without percentiles, the count and the sum are counters of their own.
    if statistic.percentiles = [] then
      [{ name := name ++ "_count".toList, type := .counter, labels, value := count },
        { name := name ++ "_sum".toList, type := .counter, labels, value := sum }]
    else
      [{ name, type := .summary, labels, value := count, suffix := "_count".toList },
        { name, type := .summary, labels, value := sum, suffix := "_sum".toList }]

def counterMetric (scope : Str) (counter : Counter) : Metric :=
  { name := metricName counter.name, type := .counter, labels := scopeLabel scope,
    value := Text.decimal counter.value.toNat }

def resultMetrics (format : DoubleFormat) (result : Result) : List Metric :=
  result.statistics.flatMap (statisticMetrics format result.name) ++
    result.counters.map (counterMetric result.name)

def formatProto (format : DoubleFormat) (output : Output) : Str :=
  let metricsOutput := (output.results.flatMap (resultMetrics format)).foldl populateMetric []
  metricsOutput.flatMap fun entry => "# TYPE ".toList ++ entry.1 ++ ['\n'] ++ entry.2

end Prometheus

end Nighthawk.OutputFormatter
