import Nighthawk.Absl.Status
import Nighthawk.Envoy.HeaderMap
import Nighthawk.Options.Proto

/-!
# The test server

`HttpTestServerDecoderFilter` answers each request itself, as the configuration that the server
was started with and the configuration header of the request say.
-/

namespace Nighthawk.Server

open Options (Duration)

/-! ## Response options

The message of `api/server/response_options.proto`. -/

structure HeaderValue where
  key : Str := []
  value : Str := []
  deriving DecidableEq, Repr

/-- The option of Envoy's v2 API. -/
structure V2HeaderValueOption where
  header : Option HeaderValue := none
  append : Option Bool := none
  deriving DecidableEq, Repr

/-- The option of Envoy's v3 API. -/
structure HeaderValueOption where
  header : Option HeaderValue := none
  append : Option Bool := none
  deriving DecidableEq, Repr

structure ConcurrencyBasedLinearDelay where
  minimalDelay : Option Duration := none
  concurrencyDelayFactor : Option Duration := none
  deriving DecidableEq, Repr

inductive OneofDelayOptions where
  | staticDelay (value : Duration)
  | concurrencyBasedLinearDelay (value : ConcurrencyBasedLinearDelay)
  deriving DecidableEq, Repr

structure ResponseOptions where
  responseHeaders : List V2HeaderValueOption := []
  v3ResponseHeaders : List HeaderValueOption := []
  responseBodySize : UInt32 := 0
  echoRequestHeaders : Bool := false
  oneofDelayOptions : Option OneofDelayOptions := none
  emitPreviousRequestDeltaInResponseHeader : Str := []
  deriving DecidableEq, Repr

/-! ## Merging

`MergeFrom` of the messages: a scalar that is not its type's default replaces the other, a
submessage is merged and a list is appended. -/

def mergeScalar {α : Type} [DecidableEq α] (default into other : α) : α :=
  if other = default then into else other

def mergeMessage {α : Type} (merge : α → α → α) : Option α → Option α → Option α
  | some into, some other => some (merge into other)
  | none, other => other
  | into, none => into

def mergeDuration (into other : Duration) : Duration where
  seconds := mergeScalar 0 into.seconds other.seconds
  nanos := mergeScalar 0 into.nanos other.nanos

def ConcurrencyBasedLinearDelay.mergeFrom (into other : ConcurrencyBasedLinearDelay) :
    ConcurrencyBasedLinearDelay where
  minimalDelay := mergeMessage mergeDuration into.minimalDelay other.minimalDelay
  concurrencyDelayFactor :=
    mergeMessage mergeDuration into.concurrencyDelayFactor other.concurrencyDelayFactor

/-- Only two messages of the same kind are merged. -/
def OneofDelayOptions.mergeFrom : OneofDelayOptions → OneofDelayOptions → OneofDelayOptions
  | staticDelay into, staticDelay other => staticDelay (mergeDuration into other)
  | concurrencyBasedLinearDelay into, concurrencyBasedLinearDelay other =>
    concurrencyBasedLinearDelay (into.mergeFrom other)
  | _, other => other

def ResponseOptions.mergeFrom (into other : ResponseOptions) : ResponseOptions where
  responseHeaders := into.responseHeaders ++ other.responseHeaders
  v3ResponseHeaders := into.v3ResponseHeaders ++ other.v3ResponseHeaders
  responseBodySize := mergeScalar 0 into.responseBodySize other.responseBodySize
  echoRequestHeaders := mergeScalar false into.echoRequestHeaders other.echoRequestHeaders
  oneofDelayOptions := mergeMessage OneofDelayOptions.mergeFrom into.oneofDelayOptions other.oneofDelayOptions
  emitPreviousRequestDeltaInResponseHeader :=
    mergeScalar [] into.emitPreviousRequestDeltaInResponseHeader
      other.emitPreviousRequestDeltaInResponseHeader

/-- What the filter uses of Envoy. -/
structure Envoy where
  /-- `MessageUtil::loadFromJson`, or what the exception says. -/
  loadFromJson : Str → Except Str ResponseOptions
  /-- `MessageUtil::validate`, or what the exception says. -/
  validate : ResponseOptions → Except Str Unit
  /-- A header map written to a stream. -/
  dump : HeaderMap → Str
  /-- The headers of a local reply with this status and body, before the callback changes them. -/
  localReplyHeaders : ℕ → Str → HeaderMap

variable (E : Envoy)

/-! ## Configuration -/

def mergeJsonConfig (json : Str) (config : ResponseOptions) : Except Str ResponseOptions :=
  Except.mapError ("Error merging json config: ".toList ++ ·) do
    let jsonConfig ← E.loadFromJson json
    let config := config.mergeFrom jsonConfig
    E.validate config
    return config

def upgradeDeprecatedEnvoyV2HeaderValueOptionToV3 (option : V2HeaderValueOption) : HeaderValueOption where
  header := option.header.map fun header => ⟨header.key, header.value⟩
  append := option.append

/-- The assertion of `validateResponseOptions`. -/
def ResponseOptions.Valid (options : ResponseOptions) : Prop :=
  ¬ (options.responseHeaders.length > 0 ∧ options.v3ResponseHeaders.length > 0)

instance (options : ResponseOptions) : Decidable options.Valid := inferInstanceAs (Decidable (¬ _))

def applyHeader (headers : HeaderMap) (option : HeaderValueOption) : HeaderMap :=
  let header := option.header.getD {}
  let key := Text.toLower header.key
  let headers := if option.append.getD false then headers else headers.remove key
  headers.addCopy key header.value

/-- `none` when the assertion fails. -/
def applyConfigToResponseHeaders (headers : HeaderMap) (options : ResponseOptions) : Option HeaderMap :=
  if options.Valid then
    let upgraded := options.responseHeaders.map upgradeDeprecatedEnvoyV2HeaderValueOptionToV3
    some ((options.v3ResponseHeaders ++ upgraded).foldl applyHeader headers)
  else none

/-- `TestServerConfig` of the well known header names. -/
def testServerConfig : Str := "x-nighthawk-test-server-config".toList

def computeEffectiveConfiguration (baseFilterConfig : ResponseOptions) (requestHeaders : HeaderMap) :
    Except Status ResponseOptions :=
  match requestHeaders.get testServerConfig with
  | [] => .ok baseFilterConfig
  | [json] => (mergeJsonConfig E json baseFilterConfig).mapError (Status.mk .invalidArgument)
  | _ :: _ :: _ =>
    .error ⟨.invalidArgument,
      "Received multiple configuration headers in the request, expected only one.".toList⟩

/-! ## The filter -/

structure LocalReply where
  code : ℕ
  body : Str
  headers : HeaderMap
  deriving DecidableEq, Repr

inductive FilterStatus where
  | stopIteration | stopIterationNoBuffer | continueIteration
  deriving DecidableEq, Repr

/-- `replies` are the local replies that were sent. Until the headers come, the effective
configuration is the error of an empty `absl::StatusOr`. -/
structure HttpTestServerDecoderFilter where
  config : ResponseOptions
  effectiveConfig : Except Status ResponseOptions := .error ⟨.unknown, []⟩
  requestHeadersDump : Option Str := none
  replies : List LocalReply := []

namespace HttpTestServerDecoderFilter

variable (f : HttpTestServerDecoderFilter)

/-- `modifyHeaders` may fail an assertion. -/
def sendLocalReply (code : ℕ) (body : Str) (modifyHeaders : HeaderMap → Option HeaderMap) :
    Option HttpTestServerDecoderFilter :=
  (modifyHeaders (E.localReplyHeaders code body)).map fun headers =>
    { f with replies := f.replies ++ [⟨code, body, headers⟩] }

def filterName : Str := "test-server".toList

/-- `answer` is what follows when no error was sent. -/
def validateOrSendError (answer : ResponseOptions → Option HttpTestServerDecoderFilter) :
    Option HttpTestServerDecoderFilter :=
  match f.effectiveConfig with
  | .error status =>
    f.sendLocalReply E 500 (filterName ++ " didn't understand the request: ".toList ++ status.message) some
  | .ok options => answer options

def sendReply (options : ResponseOptions) : Option HttpTestServerDecoderFilter :=
  let responseBody := List.replicate options.responseBodySize.toNat 'a' ++ f.requestHeadersDump.getD []
  f.sendLocalReply E 200 responseBody fun headers => applyConfigToResponseHeaders headers options

def headersDump (headers : HeaderMap) : Str := "\nRequest Headers:\n".toList ++ E.dump headers

def decodeHeaders (headers : HeaderMap) (endStream : Bool) :
    Option (FilterStatus × HttpTestServerDecoderFilter) :=
  let f := { f with effectiveConfig := computeEffectiveConfiguration E f.config headers }
  let next :=
    if endStream then
      f.validateOrSendError E fun options =>
        let f := if options.echoRequestHeaders then
          { f with requestHeadersDump := some (headersDump E headers) } else f
        f.sendReply E options
    else some f
  next.map (.stopIteration, ·)

def decodeData (_ : Str) (endStream : Bool) : Option (FilterStatus × HttpTestServerDecoderFilter) :=
  let next := if endStream then f.validateOrSendError E (f.sendReply E) else some f
  next.map (.stopIterationNoBuffer, ·)

def decodeTrailers (_ : HeaderMap) : Option (FilterStatus × HttpTestServerDecoderFilter) :=
  some (.continueIteration, f)

end HttpTestServerDecoderFilter

inductive Call where
  | decodeHeaders (headers : HeaderMap) (endStream : Bool)
  | decodeData (data : Str) (endStream : Bool)
  | decodeTrailers (trailers : HeaderMap)
  deriving DecidableEq, Repr

def step (f : HttpTestServerDecoderFilter) : Call → Option HttpTestServerDecoderFilter
  | .decodeHeaders headers endStream => (f.decodeHeaders E headers endStream).map Prod.snd
  | .decodeData data endStream => (f.decodeData E data endStream).map Prod.snd
  | .decodeTrailers trailers => (f.decodeTrailers trailers).map Prod.snd

end Nighthawk.Server
