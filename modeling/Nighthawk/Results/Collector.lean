import Nighthawk.Options.Code
import Nighthawk.Results.Proto

/-!
# Collecting the output

`OutputCollectorImpl`, and how `ProcessImpl::runInternal` adds the results of its workers once they
have completed. Times are counts of nanoseconds.
-/

namespace Nighthawk.Results

open Options

/-- What a worker is asked for. The statistics and counters are as they go into the message. -/
structure WorkerResult where
  statistics : List Statistic := []
  threadLocalCounterValues : List Counter := []
  executionDuration : ℤ
  firstAcquisitionTime : Option ℤ
  userDefinedOutputResults : List UserDefinedOutput := []
  deriving DecidableEq

def addResult (output : Output) (name : Str) (statistics : List Statistic) (counters : List Counter)
    (executionDuration : ℤ) (firstAcquisitionTime : Option ℤ)
    (userDefinedOutputs : List UserDefinedOutput) : Output :=
  { output with results := output.results ++
      [{ name, statistics, counters, userDefinedOutputs
         executionDuration := some (nanosecondsToDuration executionDuration)
         executionStart := firstAcquisitionTime.map nanosecondsToTimestamp }] }

/-- The variables of the loop over the workers. -/
structure Collected where
  i : ℕ := 0
  totalExecutionDuration : ℤ := 0
  firstAcquisitionTime : Option ℤ := none
  output : Output
  deriving DecidableEq

def earliest : Option ℤ → Option ℤ → Option ℤ
  | first, none => first
  | none, some time => some time
  | some first, some time => some (min first time)

def collectWorker (workers : ℕ) (c : Collected) (w : WorkerResult) : Collected where
  i := c.i + 1
  totalExecutionDuration := c.totalExecutionDuration + w.executionDuration
  firstAcquisitionTime := earliest c.firstAcquisitionTime w.firstAcquisitionTime
  output :=
    -- The global result of a single worker is its own.
    if workers > 1 then
      addResult c.output ("worker_".toList ++ Text.decimal c.i) w.statistics w.threadLocalCounterValues
        w.executionDuration w.firstAcquisitionTime w.userDefinedOutputResults
    else c.output

/-- What is made of all workers together. -/
structure GlobalResult where
  statistics : List Statistic := []
  counters : List Counter := []
  userDefinedOutputs : List UserDefinedOutput := []
  deriving DecidableEq

/-- `ProcessImpl::runInternal` from the loop over the workers on, with what it returns. -/
def runInternal (workers : List WorkerResult) (globalResult : GlobalResult) (output : Output) :
    Bool × Output :=
  let c := workers.foldl (collectWorker workers.length) { output }
  let output :=
    if workers.length > 0 then
      addResult c.output "global".toList globalResult.statistics globalResult.counters
        (c.totalExecutionDuration / workers.length) c.firstAcquisitionTime globalResult.userDefinedOutputs
    else c.output
  (globalResult.counters.all fun counter => counter.name ≠ "sequencer.failed_terminations".toList, output)

end Nighthawk.Results
