import Nighthawk.Options.Proto
import Nighthawk.Statistic.Code

/-!
# The output message

The messages of `api/client/output.proto`, and the response of `api/client/service.proto`. A
submessage is `none` when it is absent.
-/

namespace Nighthawk.Results

open Options

structure Counter where
  name : Str
  value : UInt64
  deriving DecidableEq

/-- A value of a statistic is a duration, or a number without a unit. -/
inductive DurationOrRaw (α : Type) where
  | duration (value : Duration)
  | raw (value : α)
  deriving DecidableEq

/-- The accessor of the duration, which is zero when the other member is set. -/
def durationOf {α : Type} : Option (DurationOrRaw α) → Duration
  | some (.duration d) => d
  | _ => {}

structure Percentile where
  durationType : Option (DurationOrRaw Double) := none
  percentile : Double
  count : UInt64
  deriving DecidableEq

structure Statistic where
  count : UInt64 := 0
  id : Str
  mean : Option (DurationOrRaw Double) := none
  pstdev : Option (DurationOrRaw Double) := none
  percentiles : List Percentile := []
  min : Option (DurationOrRaw UInt64) := none
  max : Option (DurationOrRaw UInt64) := none
  deriving DecidableEq

inductive OneofOutputType where
  | typedOutput (value : Message)
  | errorMessage (value : Str)
  deriving DecidableEq

structure UserDefinedOutput where
  pluginName : Str
  outputType : Option OneofOutputType := none
  deriving DecidableEq

structure Result where
  name : Str := []
  statistics : List Statistic := []
  counters : List Counter := []
  executionDuration : Option Duration := none
  executionStart : Option Timestamp := none
  userDefinedOutputs : List UserDefinedOutput := []
  deriving DecidableEq

structure Output where
  timestamp : Option Timestamp := none
  options : Option CommandLineOptions := none
  results : List Result := []
  version : Option Message := none
  deriving DecidableEq

/-- `google::rpc::Status`. -/
structure RpcStatus where
  code : ℤ := 0
  message : Str := []
  details : List Message := []
  deriving DecidableEq

structure ExecutionResponse where
  output : Option Output := none
  errorDetail : Option RpcStatus := none
  executionId : Str := []
  deriving DecidableEq

end Nighthawk.Results
