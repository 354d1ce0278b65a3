import Mathlib.Data.Char
import Mathlib.Data.List.Lex
import Nighthawk.BenchmarkClient.Code
import Nighthawk.Lib.SortedMap
import Nighthawk.Options.Proto
import Nighthawk.Uri.Code

/-!
# The options

`OptionsImpl` with its two constructors, its validation and its conversion back to a message.
What they get from other libraries comes from an `Env`.
-/

namespace Nighthawk.Options

/-- What a constructor throws. `rejected` is a `MalformedArgvException` with the text of the
library exception that it replaces. -/
inductive Failure where
  | malformedArgv (what : String)
  | rejected
  | noAvailablePort
  | undefinedBehavior
  deriving DecidableEq, Repr

/-- The messages that come as JSON on the command line. -/
inductive MessageKind where
  | http3ProtocolOptions | upstreamTlsContext | bindConfig | transportSocket | statsSink
  deriving DecidableEq, Repr

/-- `availablePort` is `none` when `GetAvailablePort` throws. `mergeThroughEmptyOptional` is what
a call of `MergeFrom` through an empty `std::optional` leaves in it, or `none` when it does not
return. `importedRules` are the rules of the messages in other files. -/
structure Env where
  availablePort : Bool → Enum AddressFamilyOptions → Option UInt16
  mergeThroughEmptyOptional : Message → Option (Option Message)
  importedRules : CommandLineOptions → Bool
  loadFromJson : MessageKind → Str → Option Message
  loadTypedExtensionConfig : Str → Option TypedExtensionConfig
  durationFromString : Str → Option Duration

def largestAcceptableUint32OptionValue : UInt32 := 4294967295 - 30000

def largestAcceptableConcurrentStreamsValue : UInt32 := 2147483647

/-- The members, with their initial values. -/
structure OptionsImpl where
  requestsPerSecond : UInt32 := 5
  connections : UInt32 := 100
  duration : UInt32 := 5
  timeout : UInt32 := 30
  uri : Option Str := none
  h2 : Bool := false
  protocolOption : Enum ProtocolOptions := .named .http1
  http3ProtocolOptions : Option Message := none
  concurrency : Str := []
  tunnelProtocolOption : Enum ProtocolOptions := .named .http1
  tunnelUri : Str := []
  encapPort : UInt32 := 0
  tunnelTlsContext : Option Message := none
  verbosity : Enum VerbosityOptions := .named .warn
  outputFormat : Enum OutputFormatOptions := .named .json
  prefetchConnections : Bool := false
  burstSize : UInt32 := 0
  addressFamily : Enum AddressFamilyOptions := .named .auto
  requestMethod : Enum RequestMethod := .named .get
  requestHeaders : List Str := []
  requestBodySize : UInt32 := 0
  tlsContext : Message := []
  upstreamBindConfig : Option Message := none
  transportSocket : Option Message := none
  requestSourcePluginConfig : Option TypedExtensionConfig := none
  rateLimiterPluginConfig : Option TypedExtensionConfig := none
  maxPendingRequests : UInt32 := 0
  maxActiveRequests : UInt32 := 100
  maxRequestsPerConnection : UInt32 := largestAcceptableUint32OptionValue
  maxConcurrentStreams : UInt32 := largestAcceptableConcurrentStreamsValue
  sequencerIdleStrategy : Enum SequencerIdleStrategyOptions := .named .spin
  requestSource : Str := []
  trace : Str := []
  experimentalH1ConnectionReuseStrategy : Enum H1ConnectionReuseStrategyOptions := .named .mru
  terminationPredicates : List (Str × UInt64) := []
  failurePredicates : List (Str × UInt64) := []
  noDefaultFailurePredicates : Bool := false
  openLoop : Bool := false
  jitterUniform : ℤ := 0
  nighthawkService : Str := []
  h2UseMultipleConnections : Bool := false
  multiTargetEndpoints : List Endpoint := []
  multiTargetPath : Str := []
  multiTargetUseHttps : Bool := false
  labels : List Str := []
  simpleWarmup : Bool := false
  noDuration : Bool := false
  statsSinks : List Message := []
  statsFlushInterval : UInt32 := 5
  statsFlushIntervalDuration : Duration := {}
  latencyResponseHeaderName : Str := []
  scheduledStart : Option ℤ := none
  executionId : Option Str := none
  userDefinedOutputPluginConfigs : List TypedExtensionConfig := []
  deriving DecidableEq, Repr

def defaultFailurePredicates : List (Str × UInt64) :=
  [("benchmark.http_4xx".toList, 0), ("benchmark.http_5xx".toList, 0),
    ("benchmark.pool_connection_failure".toList, 0), ("benchmark.stream_resets".toList, 0),
    ("requestsource.upstream_rq_5xx".toList, 0)]

/-- Each constructor begins with these. -/
def setNonTrivialDefaults : OptionsImpl :=
  { concurrency := ['1'], failurePredicates := defaultFailurePredicates, jitterUniform := 0 }

/-! ## Times -/

/-- A 64-bit signed count. -/
def int64 (v : ℤ) : ℤ := v.bmod (2 ^ 64)

def nanosPerSecond : ℤ := 1000000000

/-- `TimeUtil::DurationToNanoseconds`. -/
def durationToNanoseconds (d : Duration) : ℤ := int64 (d.seconds * nanosPerSecond + d.nanos)

/-- `TimeUtil::NanosecondsToDuration`, of a count that is not negative. -/
def nanosecondsToDuration (count : ℤ) : Duration := ⟨count / nanosPerSecond, count % nanosPerSecond⟩

/-- The system clock counts nanoseconds. The cast to microseconds cuts the rest off. -/
def timestampToSystemTime (t : Timestamp) : ℤ :=
  (int64 (t.nanos + t.seconds * nanosPerSecond)).tdiv 1000 * 1000

/-- `TimeUtil::NanosecondsToTimestamp`. -/
def nanosecondsToTimestamp (count : ℤ) : Timestamp := ⟨count / nanosPerSecond, count % nanosPerSecond⟩

/-! ## From a message -/

/-- `key:value`. -/
def headerString (h : HeaderValueOption) : Str := h.key ++ ':' :: h.value

/-- The members as the constructor sets them, but for the tunnel. -/
def configure (p : CommandLineOptions) : OptionsImpl :=
  let d := setNonTrivialDefaults
  let multiTarget : MultiTarget := match p.uri with
    | some (.multiTarget m) => m
    | _ => {}
  let requestOptions : RequestOptions := match p.request with
    | some (.requestOptions r) => r
    | _ => {}
  let noDefaultFailurePredicates := p.noDefaultFailurePredicates.getD d.noDefaultFailurePredicates
  { requestsPerSecond := p.requestsPerSecond.getD d.requestsPerSecond
    -- A 64-bit number of seconds becomes a 32-bit one.
    duration := match p.durationOptions with
      | some (.duration v) => UInt32.ofInt v.seconds
      | _ => d.duration
    timeout := match p.timeout with
      | some v => UInt32.ofInt v.seconds
      | none => d.timeout
    uri := match p.uri with
      | some (.uri v) => some v
      | _ => d.uri
    multiTargetPath := multiTarget.path.getD d.multiTargetPath
    multiTargetUseHttps := multiTarget.useHttps.getD d.multiTargetUseHttps
    multiTargetEndpoints := multiTarget.endpoints
    h2 := match p.protocol with
      | some (.h2 v) => v
      | _ => d.h2
    protocolOption := match p.protocol with
      | some (.protocol v) => v
      | _ => d.protocolOption
    http3ProtocolOptions := p.http3ProtocolOptions
    concurrency := p.concurrency.getD d.concurrency
    verbosity := p.verbosity.getD d.verbosity
    outputFormat := p.outputFormat.getD d.outputFormat
    prefetchConnections := p.prefetchConnections.getD d.prefetchConnections
    burstSize := p.burstSize.getD d.burstSize
    addressFamily := p.addressFamily.getD d.addressFamily
    requestHeaders := requestOptions.requestHeaders.map headerString
    requestMethod :=
      if requestOptions.requestMethod = .named .methodUnspecified then d.requestMethod
      else requestOptions.requestMethod
    requestBodySize := requestOptions.requestBodySize.getD d.requestBodySize
    requestSource := match p.request with
      | some (.requestSource uri) => uri
      | _ => d.requestSource
    requestSourcePluginConfig := match p.request with
      | some (.requestSourcePluginConfig c) => some c
      | _ => d.requestSourcePluginConfig
    rateLimiterPluginConfig := p.rateLimiterPluginConfig
    maxPendingRequests := p.maxPendingRequests.getD d.maxPendingRequests
    maxActiveRequests := p.maxActiveRequests.getD d.maxActiveRequests
    maxRequestsPerConnection := p.maxRequestsPerConnection.getD d.maxRequestsPerConnection
    maxConcurrentStreams := p.maxConcurrentStreams.getD d.maxConcurrentStreams
    connections := p.connections.getD d.connections
    sequencerIdleStrategy := p.sequencerIdleStrategy.getD d.sequencerIdleStrategy
    trace := p.trace.getD d.trace
    experimentalH1ConnectionReuseStrategy :=
      p.experimentalH1ConnectionReuseStrategy.getD d.experimentalH1ConnectionReuseStrategy
    openLoop := p.openLoop.getD d.openLoop
    tlsContext := p.tlsContext.getD d.tlsContext
    upstreamBindConfig := p.upstreamBindConfig
    transportSocket := p.transportSocket
    noDefaultFailurePredicates := noDefaultFailurePredicates
    failurePredicates :=
      let kept := if noDefaultFailurePredicates ∨ p.failurePredicates ≠ [] then [] else d.failurePredicates
      SortedMap.setAll kept p.failurePredicates
    terminationPredicates := SortedMap.setAll d.terminationPredicates p.terminationPredicates
    jitterUniform := match p.jitterUniform with
      | some v => durationToNanoseconds v
      | none => d.jitterUniform
    statsSinks := p.statsSinks
    statsFlushInterval := match p.statsFlush with
      | some (.statsFlushInterval v) => v
      | _ => d.statsFlushInterval
    statsFlushIntervalDuration := match p.statsFlush with
      | some (.statsFlushIntervalDuration v) => v
      | _ => d.statsFlushIntervalDuration
    nighthawkService := p.nighthawkService.getD d.nighthawkService
    h2UseMultipleConnections := p.experimentalH2UseMultipleConnections.getD d.h2UseMultipleConnections
    simpleWarmup := p.simpleWarmup.getD d.simpleWarmup
    noDuration := match p.durationOptions with
      | some (.noDuration v) => v
      | _ => d.noDuration
    labels := p.labels
    latencyResponseHeaderName := p.latencyResponseHeaderName.getD d.latencyResponseHeaderName
    scheduledStart := p.scheduledStart.map timestampToSystemTime
    executionId := p.executionId
    userDefinedOutputPluginConfigs := p.userDefinedPluginConfigs }

/-- `tunnel_tls_context_` is empty when `MergeFrom` is called through it. -/
def readTunnel (env : Env) (p : CommandLineOptions) (o : OptionsImpl) : Except Failure OptionsImpl :=
  match p.tunnelOptions with
  | none => .ok o
  | some tunnel =>
    match env.availablePort (o.protocolOption = .named .http3) o.addressFamily with
    | none => .error .noAvailablePort
    | some port =>
      match env.mergeThroughEmptyOptional tunnel.tunnelTlsContext with
      | none => .error .undefinedBehavior
      | some context =>
        .ok { o with
          tunnelProtocolOption := tunnel.tunnelProtocol.getD o.tunnelProtocolOption
          tunnelUri := tunnel.tunnelUri
          encapPort := port.toUInt32
          tunnelTlsContext := context }

/-- Throws when the condition holds. -/
def reject (condition : Prop) [Decidable condition] (what : String) : Except Failure Unit :=
  if condition then .error (.malformedArgv what) else .ok ()

def checkRateLimiterPlugin (p : CommandLineOptions) : Except Failure Unit :=
  if p.rateLimiterPluginConfig = none then .ok ()
  else do
    reject (p.burstSize.getD 0 ≠ 0) "burst_size and rate_limiter_plugin_config are mutually exclusive"
    let jitter := p.jitterUniform.getD {}
    reject (jitter.seconds ≠ 0 ∨ jitter.nanos ≠ 0)
      "jitter_uniform and rate_limiter_plugin_config are mutually exclusive"

/-! ## To a message -/

/-- The first colon after the first character ends the key. -/
def splitHeader : Str → Option (Str × Str)
  | [] => none
  | c :: rest => (Text.cut ':' rest).map fun (key, value) => (Text.strip (c :: key), Text.strip value)

def emitHeader (header : Str) : Except Failure HeaderValueOption :=
  match splitHeader header with
  | some (key, value) => .ok ⟨key, value, some false⟩
  | none => .error (.malformedArgv "A ':' is required in a header.")

def emitRequest (o : OptionsImpl) : Except Failure OneofRequestOptions :=
  if o.requestSource ≠ [] then .ok (.requestSource o.requestSource)
  else match o.requestSourcePluginConfig with
    | some c => .ok (.requestSourcePluginConfig c)
    | none => do
      let headers ← o.requestHeaders.mapM emitHeader
      -- The body size is set in the loop over the headers.
      let requestBodySize := if o.requestHeaders = [] then none else some o.requestBodySize
      return .requestOptions { requestMethod := o.requestMethod, requestHeaders := headers, requestBodySize }

def emitEndpoint (e : Endpoint) : Endpoint := ⟨some (e.address.getD []), some (e.port.getD 0)⟩

def uint32ToDuration (seconds : UInt32) : Duration := ⟨seconds.toNat, 0⟩

def emit (o : OptionsImpl) (request : OneofRequestOptions) : CommandLineOptions where
  connections := some o.connections
  durationOptions := some (if o.noDuration then .noDuration true else .duration (uint32ToDuration o.duration))
  requestsPerSecond := some o.requestsPerSecond
  timeout := some (uint32ToDuration o.timeout)
  protocol := some (if o.h2 then .h2 true else .protocol o.protocolOption)
  http3ProtocolOptions := o.http3ProtocolOptions
  uri := some (match o.uri with
    | some v => .uri v
    | none => .multiTarget
      { path := some o.multiTargetPath
        useHttps := some o.multiTargetUseHttps
        endpoints := o.multiTargetEndpoints.map emitEndpoint })
  concurrency := some o.concurrency
  verbosity := some o.verbosity
  outputFormat := some o.outputFormat
  prefetchConnections := some o.prefetchConnections
  burstSize := some o.burstSize
  addressFamily := some o.addressFamily
  request := some request
  rateLimiterPluginConfig := o.rateLimiterPluginConfig
  tlsContext := if o.tlsContext.length > 0 then some o.tlsContext else none
  upstreamBindConfig := o.upstreamBindConfig
  transportSocket := o.transportSocket
  maxPendingRequests := some o.maxPendingRequests
  maxActiveRequests := some o.maxActiveRequests
  maxRequestsPerConnection := some o.maxRequestsPerConnection
  maxConcurrentStreams := some o.maxConcurrentStreams
  sequencerIdleStrategy := some o.sequencerIdleStrategy
  trace := some o.trace
  experimentalH1ConnectionReuseStrategy := some o.experimentalH1ConnectionReuseStrategy
  terminationPredicates := o.terminationPredicates
  failurePredicates := o.failurePredicates
  noDefaultFailurePredicates := some o.noDefaultFailurePredicates
  openLoop := some o.openLoop
  jitterUniform := if o.jitterUniform > 0 then some (nanosecondsToDuration o.jitterUniform) else none
  nighthawkService := some o.nighthawkService
  labels := o.labels
  simpleWarmup := some o.simpleWarmup
  statsSinks := o.statsSinks
  statsFlush := some (
    if o.statsFlushIntervalDuration.seconds > 0 ∨ o.statsFlushIntervalDuration.nanos > 0 then
      .statsFlushIntervalDuration o.statsFlushIntervalDuration
    else .statsFlushInterval o.statsFlushInterval)
  latencyResponseHeaderName := some o.latencyResponseHeaderName
  scheduledStart := o.scheduledStart.map nanosecondsToTimestamp
  executionId := o.executionId
  userDefinedPluginConfigs := o.userDefinedOutputPluginConfigs

/-- `toCommandLineOptionsInternal`. Tunnel options are never set. -/
def toCommandLineOptions (o : OptionsImpl) : Except Failure CommandLineOptions :=
  (emitRequest o).map (emit o)

/-! ## Validation -/

inductive StoiError where
  | invalidArgument
  | outOfRange
  deriving DecidableEq, Repr

/-- `std::stoi`: the number at the start, after white space. -/
def stoi (s : Str) : Except StoiError ℤ :=
  let (sign, rest) : ℤ × Str := match s.dropWhile Text.isSpace with
    | '-' :: rest => (-1, rest)
    | '+' :: rest => (1, rest)
    | rest => (1, rest)
  let digits := rest.takeWhile Char.isDigit
  if digits = [] then .error .invalidArgument
  else
    let value := sign * ((Text.digitsVal digits).getD 0 : ℕ)
    if -2147483648 ≤ value ∧ value ≤ 2147483647 then .ok value else .error .outOfRange

def validateConcurrency (concurrency : Str) : Except Failure Unit :=
  if concurrency = "auto".toList then .ok ()
  else match stoi concurrency with
    | .error .invalidArgument => .error (.malformedArgv "Invalid value for --concurrency")
    | .error .outOfRange => .error (.malformedArgv "Value out of range: --concurrency")
    | .ok parsed => reject (parsed ≤ 0) "Value for --concurrency should be greater then 0."

def validateRequestSource (requestSource : Str) : Except Failure Unit :=
  if requestSource = [] then .ok ()
  else match Uri.UriImpl.create requestSource "grpc".toList with
    | .error _ => .error (.malformedArgv "Invalid replay source URI")
    | .ok uri => reject (uri.scheme ≠ "grpc".toList) "Invalid replay source URI"

/-- The format string of the first error has no place for the URI. -/
def validateTargets (o : OptionsImpl) : Except Failure Unit :=
  match o.uri with
  | some uri =>
    match Uri.UriImpl.create uri "http".toList with
    | .error _ => .error (.malformedArgv "Invalid target URI: ''")
    | .ok _ =>
      reject (o.multiTargetEndpoints ≠ [] ∨ o.multiTargetPath ≠ [] ∨ o.multiTargetUseHttps)
        "URI and --multi-target-* options cannot both be specified."
  | none => do
    reject (o.multiTargetEndpoints = []) "A URI or --multi-target-* options must be specified."
    reject (o.multiTargetPath = []) "--multi-target-path must be specified."

def validateMessage (env : Env) (q : CommandLineOptions) : Except Failure Unit :=
  if q.valid ∧ env.importedRules q then .ok () else .error .rejected

def validate (env : Env) (o : OptionsImpl) : Except Failure Unit := do
  reject o.h2UseMultipleConnections
    "The experimental_h2_use_multiple_connections option is deprecated, set max_concurrent_streams to one instead."
  validateConcurrency o.concurrency
  validateRequestSource o.requestSource
  validateTargets o
  let q ← toCommandLineOptions o
  validateMessage env q

/-- Each constructor ends with the validation. -/
def checked (env : Env) (o : OptionsImpl) : Except Failure OptionsImpl := (validate env o).map fun _ => o

def fromProto (env : Env) (p : CommandLineOptions) : Except Failure OptionsImpl := do
  let o ← readTunnel env p (configure p)
  checkRateLimiterPlugin p
  checked env o

/-! ## Accessors that compute -/

def envoyProtocol (h2 : Bool) (option : Enum ProtocolOptions) : BenchmarkClient.Protocol :=
  if h2 ∨ option = .named .http2 then .http2 else if option = .named .http3 then .http3 else .http11

def OptionsImpl.protocol (o : OptionsImpl) : BenchmarkClient.Protocol := envoyProtocol o.h2 o.protocolOption

def OptionsImpl.tunnelProtocol (o : OptionsImpl) : BenchmarkClient.Protocol :=
  envoyProtocol false o.tunnelProtocolOption

/-! ## From the command line -/

/-- What the parser found. A flag with a fixed list of values holds the one it names. -/
structure Args where
  rps : Option UInt32 := none
  connections : Option UInt32 := none
  duration : Option UInt32 := none
  timeout : Option UInt32 := none
  h2 : Bool := false
  protocol : Option ProtocolOptions := none
  http3ProtocolOptions : Str := []
  tunnelProtocol : Option ProtocolOptions := none
  tunnelUri : Option Str := none
  tunnelTlsContext : Option Str := none
  concurrency : Option Str := none
  verbosity : Option VerbosityOptions := none
  outputFormat : Option OutputFormatOptions := none
  prefetchConnections : Bool := false
  burstSize : Option UInt32 := none
  addressFamily : Option AddressFamilyOptions := none
  requestMethod : Option RequestMethod := none
  requestHeaders : List Str := []
  requestBodySize : Option UInt32 := none
  tlsContext : Str := []
  upstreamBindConfig : Str := []
  transportSocket : Str := []
  maxPendingRequests : Option UInt32 := none
  maxActiveRequests : Option UInt32 := none
  maxRequestsPerConnection : Option UInt32 := none
  maxConcurrentStreams : Option UInt32 := none
  sequencerIdleStrategy : Option SequencerIdleStrategyOptions := none
  trace : Option Str := none
  terminationPredicates : List Str := []
  failurePredicates : List Str := []
  noDefaultFailurePredicates : Bool := false
  experimentalH1ConnectionReuseStrategy : Option H1ConnectionReuseStrategyOptions := none
  openLoop : Bool := false
  jitterUniform : Option Str := none
  nighthawkService : Option Str := none
  h2UseMultipleConnections : Bool := false
  multiTargetEndpoints : List Str := []
  multiTargetPath : Option Str := none
  multiTargetUseHttps : Bool := false
  labels : List Str := []
  uri : Option Str := none
  requestSource : Option Str := none
  requestSourcePluginConfig : Str := []
  rateLimiterPluginConfig : Str := []
  simpleWarmup : Bool := false
  noDuration : Bool := false
  statsSinks : List Str := []
  statsFlushInterval : Option UInt32 := none
  statsFlushIntervalDuration : Option Str := none
  latencyResponseHeaderName : Option Str := none
  userDefinedOutputPluginConfigs : List Str := []

/-- A library call that throws on `none`. -/
def orRejected {α : Type} : Option α → Except Failure α
  | some a => .ok a
  | none => .error .rejected

/-- JSON that may be left out. -/
def loadIfSet {α : Type} (load : Str → Option α) (json : Str) : Except Failure (Option α) :=
  if json = [] then .ok none else (orRejected (load json)).map some

def malformedPredicate (predicate : Str) (problem : String) : Failure :=
  .malformedArgv ("Termination predicate '" ++ String.ofList predicate ++ problem)

/-- `name:threshold`, where blank pieces are skipped. -/
def parsePredicate (predicate : Str) : Except Failure (Str × UInt64) :=
  match (predicate.splitOn ':').filter fun piece => !piece.all Text.isSpace with
  | [name, threshold] =>
    match BenchmarkClient.simpleAtoi64 threshold with
    | some value => .ok (name, value)
    | none => .error (malformedPredicate predicate "' has an out of range threshold.")
  | _ => .error (malformedPredicate predicate "' is badly formatted.")

def parsePredicates (arg : List Str) (predicates : List (Str × UInt64)) :
    Except Failure (List (Str × UInt64)) := do
  let parsed ← arg.mapM parsePredicate
  return SortedMap.setAll (if arg = [] then predicates else []) parsed

def parseEndpoint (hostPort : Str) : Except Failure Endpoint :=
  match Uri.parseHostPort hostPort with
  | some (host, port) => .ok ⟨some host, some (UInt32.ofNat port)⟩
  | none => .error (.malformedArgv
      ("--multi-target-endpoint must be in the format IPv4:port, [IPv6]:port, or DNS:port. Got '" ++
        String.ofList hostPort ++ "'"))

/-- A duration in words that must not be negative. -/
def parseDuration (env : Env) (flag : String) (text : Str) : Except Failure Duration :=
  match env.durationFromString text with
  | none => .error (.malformedArgv ("Invalid value for " ++ flag))
  | some d =>
    if 0 ≤ d.nanos ∧ 0 ≤ d.seconds then .ok d else .error (.malformedArgv (flag ++ " is out of range"))

/-- The caps that catch negative numbers. -/
def rejectLarge (value : UInt32) (flag : String) : Except Failure Unit :=
  reject (value > largestAcceptableUint32OptionValue) ("Invalid value for " ++ flag)

def loadHttp3ProtocolOptions (env : Env) (a : Args) (o : OptionsImpl) : Except Failure (Option Message) := do
  if a.http3ProtocolOptions ≠ [] then
    reject (o.protocolOption ≠ .named .http3)
      "--http3-protocol-options can only be used with --protocol http3"
    reject a.maxConcurrentStreams.isSome
      "--http3-protocol-options and --max-concurrent-streams are mutually exclusive"
  loadIfSet (env.loadFromJson .http3ProtocolOptions) a.http3ProtocolOptions

/-- The flags that are set as they are. -/
def setFlags (a : Args) : OptionsImpl :=
  let d : OptionsImpl :=
    { setNonTrivialDefaults with verbosity := .named .info, outputFormat := .named .human }
  { d with
    requestsPerSecond := a.rps.getD d.requestsPerSecond
    connections := a.connections.getD d.connections
    duration := a.duration.getD d.duration
    timeout := a.timeout.getD d.timeout
    uri := a.uri
    h2 := a.h2
    concurrency := a.concurrency.getD d.concurrency
    protocolOption := (a.protocol.map .named).getD d.protocolOption
    verbosity := (a.verbosity.map .named).getD d.verbosity
    outputFormat := (a.outputFormat.map .named).getD d.outputFormat
    prefetchConnections := a.prefetchConnections
    burstSize := a.burstSize.getD d.burstSize
    addressFamily := (a.addressFamily.map .named).getD d.addressFamily
    requestMethod := (a.requestMethod.map .named).getD d.requestMethod
    requestHeaders := a.requestHeaders
    requestBodySize := a.requestBodySize.getD d.requestBodySize
    maxPendingRequests := a.maxPendingRequests.getD d.maxPendingRequests
    maxActiveRequests := a.maxActiveRequests.getD d.maxActiveRequests
    maxRequestsPerConnection := a.maxRequestsPerConnection.getD d.maxRequestsPerConnection
    maxConcurrentStreams := a.maxConcurrentStreams.getD d.maxConcurrentStreams
    sequencerIdleStrategy := (a.sequencerIdleStrategy.map .named).getD d.sequencerIdleStrategy
    requestSource := a.requestSource.getD d.requestSource
    experimentalH1ConnectionReuseStrategy :=
      (a.experimentalH1ConnectionReuseStrategy.map .named).getD d.experimentalH1ConnectionReuseStrategy
    trace := a.trace.getD d.trace
    noDefaultFailurePredicates := a.noDefaultFailurePredicates
    openLoop := a.openLoop
    nighthawkService := a.nighthawkService.getD d.nighthawkService
    multiTargetUseHttps := a.multiTargetUseHttps
    multiTargetPath := a.multiTargetPath.getD d.multiTargetPath
    labels := a.labels
    simpleWarmup := a.simpleWarmup
    noDuration := a.noDuration
    statsFlushInterval := a.statsFlushInterval.getD d.statsFlushInterval
    latencyResponseHeaderName := a.latencyResponseHeaderName.getD d.latencyResponseHeaderName }

def checkExclusiveFlags (a : Args) : Except Failure Unit := do
  reject a.h2UseMultipleConnections
    "--experimental-h2-use-multiple-connections is deprecated, set --max-concurrent-streams to one instead"
  reject (a.duration.isSome ∧ a.noDuration) "--duration and --no-duration are mutually exclusive"
  reject (a.statsFlushInterval.isSome ∧ a.statsFlushIntervalDuration.isSome)
    "--stats-flush-interval and --stats-flush-interval-duration are mutually exclusive"
  reject ((a.statsFlushInterval.isSome ∨ a.statsFlushIntervalDuration.isSome) ∧ a.statsSinks = [])
    "if --stats-flush-interval or --stats-flush-interval-duration is set, then --stats-sinks must also be set"
  reject (a.h2 ∧ a.protocol.isSome) "--h2 and --protocol are mutually exclusive"

def checkCaps (o : OptionsImpl) : Except Failure Unit := do
  rejectLarge o.requestsPerSecond "--rps"
  rejectLarge o.connections "--connections"
  rejectLarge o.duration "--duration"
  rejectLarge o.timeout "--timeout"
  rejectLarge o.requestBodySize "--request-body-size"
  rejectLarge o.burstSize "--burst-size"
  rejectLarge o.maxPendingRequests "--max-pending-requests"
  rejectLarge o.maxActiveRequests "--max-active-requests"
  rejectLarge o.maxRequestsPerConnection "--max-requests-per-connection"
  reject (o.maxConcurrentStreams > largestAcceptableConcurrentStreamsValue)
    ("Invalid value " ++ toString o.maxConcurrentStreams ++
      " for --max_concurrent_streams, the largest allowed value is 2147483647.")
  rejectLarge o.statsFlushInterval "--stats-flush-interval"

/-- The flags that are parsed further, up to the caps. -/
def parseFlags (env : Env) (a : Args) : Except Failure OptionsImpl := do
  let o := setFlags a
  let http3ProtocolOptions ← loadHttp3ProtocolOptions env a o
  let terminationPredicates ← parsePredicates a.terminationPredicates o.terminationPredicates
  let failurePredicates ←
    parsePredicates a.failurePredicates (if o.noDefaultFailurePredicates then [] else o.failurePredicates)
  let jitter ← a.jitterUniform.mapM (parseDuration env "--jitter-uniform")
  let multiTargetEndpoints ← a.multiTargetEndpoints.mapM parseEndpoint
  let statsSinks ← a.statsSinks.mapM fun json => orRejected (env.loadFromJson .statsSink json)
  let statsFlushIntervalDuration ←
    a.statsFlushIntervalDuration.mapM (parseDuration env "--stats-flush-interval-duration")
  return { o with
    http3ProtocolOptions
    terminationPredicates
    failurePredicates
    jitterUniform := (jitter.map durationToNanoseconds).getD o.jitterUniform
    multiTargetEndpoints
    statsSinks
    statsFlushIntervalDuration := statsFlushIntervalDuration.getD o.statsFlushIntervalDuration }

def loadMessages (env : Env) (a : Args) (o : OptionsImpl) : Except Failure OptionsImpl := do
  reject (a.tlsContext ≠ [] ∧ a.transportSocket ≠ [])
    "--tls-context and --transport-socket cannot both be set."
  let tlsContext ← loadIfSet (env.loadFromJson .upstreamTlsContext) a.tlsContext
  let upstreamBindConfig ← loadIfSet (env.loadFromJson .bindConfig) a.upstreamBindConfig
  let transportSocket ← loadIfSet (env.loadFromJson .transportSocket) a.transportSocket
  reject (a.requestSource.getD [] ≠ [] ∧ a.requestSourcePluginConfig ≠ [])
    "--request-source and --request_source_plugin_config cannot both be set."
  let requestSourcePluginConfig ← loadIfSet env.loadTypedExtensionConfig a.requestSourcePluginConfig
  if a.rateLimiterPluginConfig ≠ [] then
    reject a.burstSize.isSome "--burst-size and --rate-limiter-plugin-config are mutually exclusive"
    reject a.jitterUniform.isSome "--jitter-uniform and --rate-limiter-plugin-config are mutually exclusive"
  let rateLimiterPluginConfig ← loadIfSet env.loadTypedExtensionConfig a.rateLimiterPluginConfig
  let userDefinedOutputPluginConfigs ←
    a.userDefinedOutputPluginConfigs.mapM fun json => orRejected (env.loadTypedExtensionConfig json)
  return { o with
    tlsContext := tlsContext.getD o.tlsContext
    upstreamBindConfig
    transportSocket
    requestSourcePluginConfig
    rateLimiterPluginConfig
    userDefinedOutputPluginConfigs }

def openTunnel (env : Env) (a : Args) (o : OptionsImpl) : Except Failure OptionsImpl :=
  match a.tunnelProtocol with
  | some protocol =>
    match a.tunnelUri with
    | none => .error (.malformedArgv "--tunnel-protocol requires --tunnel-uri")
    | some uri =>
      match env.availablePort (o.protocolOption = .named .http3) o.addressFamily with
      | none => .error .noAvailablePort
      | some port =>
        .ok { o with tunnelProtocolOption := .named protocol, tunnelUri := uri, encapPort := port.toUInt32 }
  | none => do
    reject (a.tunnelUri.isSome ∨ a.tunnelTlsContext.isSome) "tunnel flags require --tunnel-protocol"
    return o

def loadTunnelTlsContext (env : Env) (a : Args) (o : OptionsImpl) : Except Failure OptionsImpl := do
  let tunnelTlsContext ← loadIfSet (env.loadFromJson .upstreamTlsContext) (a.tunnelTlsContext.getD [])
  reject (tunnelTlsContext = none ∧ o.tunnelProtocolOption = .named .http3)
    "--tunnel-tls-context is required to use --tunnel-protocol http3"
  if a.tunnelProtocol.isSome then
    reject (o.tunnelProtocolOption = .named .http3 ∧ o.protocolOption = .named .http3)
      "--protocol HTTP3 over --tunnel-protocol HTTP3 is not supported"
    reject (o.tunnelProtocolOption = .named .http1 ∧ o.protocolOption = .named .http3)
      "--protocol HTTP3 over --tunnel-protocol HTTP1 is not supported"
  return { o with tunnelTlsContext }

def fromArgs (env : Env) (a : Args) : Except Failure OptionsImpl := do
  checkExclusiveFlags a
  let o ← parseFlags env a
  checkCaps o
  let o ← loadMessages env a o
  let o ← openTunnel env a o
  let o ← loadTunnelTlsContext env a o
  checked env o

/-- A value that one of the constructors returned. -/
def Accepted (env : Env) (o : OptionsImpl) : Prop :=
  (∃ p, fromProto env p = .ok o) ∨ ∃ a, fromArgs env a = .ok o

/-- An environment with a free port, in which header names must not be empty. -/
def plainEnv : Env where
  availablePort _ _ := some 10000
  mergeThroughEmptyOptional m := some (some m)
  importedRules q := match q.request with
    | some (.requestOptions r) => r.requestHeaders.all fun h => h.key ≠ []
    | _ => true
  loadFromJson _ json := some json
  loadTypedExtensionConfig _ := none
  durationFromString _ := none

end Nighthawk.Options
