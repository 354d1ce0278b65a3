import Nighthawk.Absl.Status
import Nighthawk.Lib.Rpc
import Nighthawk.Results.Proto

/-!
# The distributor

A distributor passes a request on to several services, one after the other, and answers with what
they answered. The codes of gRPC and of `absl` have the same numbers, so there is one type of status.
-/

namespace Nighthawk.Distributor

open Options Results

/-! ## Messages -/

structure Address where
  address : Str
  portValue : ℕ
  deriving DecidableEq

/-- The oneof of an `ExecutionRequest`. -/
inductive ExecutionRequest where
  | startRequest (options : Option CommandLineOptions)
  | updateRequest
  | cancellationRequest
  | notSet
  deriving DecidableEq

structure DistributedRequest where
  executionRequest : Option ExecutionRequest := none
  services : List Address := []
  deriving DecidableEq

inductive DistributedResponseType where
  | error (status : RpcStatus)
  | executionResponse (response : ExecutionResponse)
  deriving DecidableEq

structure DistributedServiceResponse where
  responseType : DistributedResponseType
  service : Address
  deriving DecidableEq

structure DistributedResponse where
  serviceResponse : List DistributedServiceResponse
  deriving DecidableEq

/-! ## The client of a load generator service -/

/-- `PerformNighthawkBenchmark`. -/
def performNighthawkBenchmark (x : Rpc.Exchange ExecutionResponse Status) :
    Option (Except Status ExecutionResponse) :=
  Rpc.single
    ⟨.unavailable, "Failed to write request to the Nighthawk Service gRPC channel.".toList⟩
    ⟨.internal, "WritesDone() failed on the Nighthawk Service gRPC channel.".toList⟩
    ⟨.internal, "Nighthawk Service did not send a gRPC response.".toList⟩ x

/-! ## The service -/

/-- `MessageUtil::validate`, which gives the text of its exception. One of its rules is that there
are services. -/
structure Validator where
  validate : DistributedRequest → Option Str
  services_ne : ∀ request, validate request = none → request.services ≠ []

/-- The accessors give an empty message when the field is absent. -/
def optionsOf (request : DistributedRequest) : Option CommandLineOptions :=
  match request.executionRequest with
  | some (.startRequest options) => options
  | _ => none

def validateRequest (v : Validator) (request : DistributedRequest) : Except Status Unit :=
  match v.validate request with
  | some what => .error ⟨.invalidArgument, what⟩
  | none =>
    if request.executionRequest.isSome then
      if (optionsOf request).isNone then
        .error ⟨.invalidArgument,
          "DistributedRequest.ExecutionRequest.StartRequest MUST have CommandLineOptions.".toList⟩
      else .ok ()
    else .error ⟨.invalidArgument, "DistributedRequest.ExecutionRequest MUST be specified.".toList⟩

/-- The call to a service as the distributor sees it. The calls of a stream are numbered. -/
abbrev Backend := ℕ → Address → CommandLineOptions → Rpc.Exchange ExecutionResponse Status

/-- `RELEASE_ASSERT` in the client ends the distributor, which is `none`. -/
def handleExecutionRequest (backend : Backend) (call : ℕ) (service : Address) (request : DistributedRequest) :
    Option (Except Status ExecutionResponse) :=
  performNighthawkBenchmark (backend call service ((optionsOf request).getD {}))

/-- The entry of one service. -/
def serviceResponse (service : Address) : Except Status ExecutionResponse → DistributedServiceResponse
  | .ok response => ⟨.executionResponse response, service⟩
  | .error status =>
    ⟨.error { code := status.code.number, message := "Distributed Execution Request failed: ".toList ++ status.message },
      service⟩

/-- The loop of `handleRequest`, from the call `call` on. -/
def handleServices (backend : Backend) (request : DistributedRequest) :
    ℕ → List Address → List DistributedServiceResponse → Bool →
      Option (List DistributedServiceResponse × Bool)
  | _, [], responses, hasErrors => some (responses, hasErrors)
  | call, service :: services, responses, hasErrors =>
    match handleExecutionRequest backend call service request with
    | none => none
    | some (.ok response) =>
      handleServices backend request (call + 1) services
        (responses ++ [serviceResponse service (.ok response)]) hasErrors
    | some (.error status) =>
      handleServices backend request (call + 1) services
        (responses ++ [serviceResponse service (.error status)]) true

def handleRequest (backend : Backend) (call : ℕ) (request : DistributedRequest) :
    Option (Except Status Unit × DistributedResponse) :=
  (handleServices backend request call request.services [] false).map fun (responses, hasErrors) =>
    (if hasErrors then .error ⟨.internal, "One or more execution requests failed".toList⟩
      else .ok (), ⟨responses⟩)

/-- The loop of `DistributedRequestStream`. `writes` tells which writes succeed, from some point on
all of them. -/
def distributedRequestStream (v : Validator) (backend : Backend) :
    ℕ → List Bool → List DistributedRequest → Rpc.Served DistributedResponse Status
  | _, _, [] => ⟨[], some (.ok ())⟩
  | call, writes, request :: requests =>
    match validateRequest v request with
    | .error status => ⟨[], some (.error status)⟩
    | .ok () =>
      match handleRequest backend call request with
      | none => ⟨[], none⟩
      | some (status, response) =>
        if writes.headD true then
          match status with
          | .error status => ⟨[response], some (.error status)⟩
          | .ok () =>
            let rest := distributedRequestStream v backend
              (call + request.services.length) writes.tail requests
            { rest with written := response :: rest.written }
        else ⟨[], some (.error ⟨.internal, "Failed to write DistributedResponse.".toList⟩)⟩

/-! ## The client of the distributor -/

def distributedRequest (x : Rpc.Exchange DistributedResponse Status) :
    Option (Except Status DistributedResponse) :=
  Rpc.single
    ⟨.unavailable, "Failed to write request to the Nighthawk Distributor gRPC channel.".toList⟩
    ⟨.internal, "WritesDone() failed on the Nighthawk Distributor gRPC channel.".toList⟩
    ⟨.internal, "Distributor Service did not send a gRPC response.".toList⟩ x

end Nighthawk.Distributor
