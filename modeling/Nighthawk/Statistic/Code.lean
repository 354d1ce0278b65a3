import Mathlib.Data.Rat.Init
import Mathlib.Algebra.Field.Rat
import Nighthawk.Lib.Nan
import Nighthawk.Lib.Text

/-!
# Statistics and their merge

The statistics that keep moments of their samples, and the merge of the workers' statistics. Doubles
are exact rationals with NaN. Samples are 64-bit, and counts are unbounded.
-/

namespace Nighthawk

abbrev Double := Nan ℚ

/-- What the merge of worker statistics uses of a statistic. -/
class Statistic (σ : Type) where
  id : σ → Str
  setId : σ → Str → σ
  createNewInstanceOfSameType : σ → σ
  combine : σ → σ → σ

structure StreamingStatistic where
  id : Str := []
  min : UInt64 := 18446744073709551615
  max : UInt64 := 0
  count : Nat := 0
  mean_ : Double := .num 0
  accumulatedVariance : Double := .num 0
  deriving DecidableEq

namespace StreamingStatistic

def addValue (s : StreamingStatistic) (value : UInt64) : StreamingStatistic :=
  let count := s.count + 1
  let delta := .num (value.toNat : ℚ) - s.mean_
  let deltaN := delta / .num (count : ℚ)
  { s with
    min := Min.min s.min value
    max := Max.max s.max value
    count := count
    mean_ := s.mean_ + deltaN
    accumulatedVariance := s.accumulatedVariance + delta * deltaN * (.num (count : ℚ) - .num 1) }

def mean (s : StreamingStatistic) : Double := if s.count = 0 then .nan else s.mean_

def pvariance (s : StreamingStatistic) : Double :=
  if s.count = 0 then .nan else s.accumulatedVariance / .num (s.count : ℚ)

/-- The mean that `combine` works with. -/
def meanOrZero (s : StreamingStatistic) : Double := if s.mean.isNan then .num 0 else s.mean

def combine (a b : StreamingStatistic) : StreamingStatistic where
  min := Min.min a.min b.min
  max := Max.max a.max b.max
  count := a.count + b.count
  mean_ := (.num (a.count : ℚ) * a.meanOrZero + .num (b.count : ℚ) * b.meanOrZero) /
    .num ((a.count + b.count : ℕ) : ℚ)
  accumulatedVariance :=
    a.accumulatedVariance + b.accumulatedVariance +
      (a.meanOrZero - b.meanOrZero) * (a.meanOrZero - b.meanOrZero) * .num (a.count : ℚ) *
        .num (b.count : ℚ) / .num ((a.count + b.count : ℕ) : ℚ)

instance : Statistic StreamingStatistic where
  id := StreamingStatistic.id
  setId s id := { s with id := id }
  createNewInstanceOfSameType _ := {}
  combine := combine

end StreamingStatistic

structure SimpleStatistic where
  id : Str := []
  min : UInt64 := 18446744073709551615
  max : UInt64 := 0
  count : Nat := 0
  sumX : Double := .num 0
  sumX2 : Double := .num 0
  deriving DecidableEq

namespace SimpleStatistic

def addValue (s : SimpleStatistic) (value : UInt64) : SimpleStatistic :=
  { s with
    min := Min.min s.min value
    max := Max.max s.max value
    count := s.count + 1
    sumX := s.sumX + .num (value.toNat : ℚ)
    sumX2 := s.sumX2 + .num 1 * .num (value.toNat : ℚ) * .num (value.toNat : ℚ) }

def mean (s : SimpleStatistic) : Double := if s.count = 0 then .nan else s.sumX / .num (s.count : ℚ)

def pvariance (s : SimpleStatistic) : Double :=
  if s.count = 0 then .nan else s.sumX2 / .num (s.count : ℚ) - s.mean * s.mean

def combine (a b : SimpleStatistic) : SimpleStatistic where
  min := Min.min a.min b.min
  max := Max.max a.max b.max
  count := a.count + b.count
  sumX := a.sumX + b.sumX
  sumX2 := a.sumX2 + b.sumX2

instance : Statistic SimpleStatistic where
  id := SimpleStatistic.id
  setId s id := { s with id := id }
  createNewInstanceOfSameType _ := {}
  combine := combine

end SimpleStatistic

/-- Keeps the samples as well, as signed numbers. -/
structure InMemoryStatistic where
  id : Str := []
  min : UInt64 := 18446744073709551615
  max : UInt64 := 0
  count : Nat := 0
  samples : List Int64 := []
  streamingStats : StreamingStatistic := {}
  deriving DecidableEq

namespace InMemoryStatistic

def addValue (s : InMemoryStatistic) (sampleValue : UInt64) : InMemoryStatistic :=
  { s with
    min := Min.min s.min sampleValue
    max := Max.max s.max sampleValue
    count := s.count + 1
    samples := s.samples ++ [sampleValue.toInt64]
    streamingStats := s.streamingStats.addValue sampleValue }

def mean (s : InMemoryStatistic) : Double := s.streamingStats.mean

def pvariance (s : InMemoryStatistic) : Double := s.streamingStats.pvariance

def combine (a b : InMemoryStatistic) : InMemoryStatistic where
  min := Min.min a.min b.min
  max := Max.max a.max b.max
  samples := a.samples ++ b.samples
  streamingStats := a.streamingStats.combine b.streamingStats
  count := (a.samples ++ b.samples).length

instance : Statistic InMemoryStatistic where
  id := InMemoryStatistic.id
  setId s id := { s with id := id }
  createNewInstanceOfSameType _ := {}
  combine := combine

end InMemoryStatistic

/-! ## The merge -/

section

variable {σ : Type} [Statistic σ]

/-- A worker's statistics, in the order of their ids. -/
abbrev StatisticPtrMap (σ : Type) := List (Str × σ)

/-- Merges one worker into `merged`, or `none` when it has a statistic past its end. -/
def mergeWorker : List σ → StatisticPtrMap σ → Option (List σ)
  | merged, [] => some merged
  | [], _ :: _ => none
  | m :: merged, (_, wx) :: rest =>
    (mergeWorker merged rest).map (Statistic.setId (Statistic.combine m wx) (Statistic.id m) :: ·)

def mergeWorkerStatistics (workers : List (StatisticPtrMap σ)) : Option (List σ) :=
  let w0 := workers.headD []
  let merged := w0.map fun s => Statistic.setId (Statistic.createNewInstanceOfSameType s.2) s.1
  workers.foldlM mergeWorker merged

end

end Nighthawk
