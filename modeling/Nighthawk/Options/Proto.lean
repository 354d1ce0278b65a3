import Nighthawk.Lib.Text
import Mathlib.Data.Int.Notation

/-!
# The options message

The messages of `api/client/options.proto` that `OptionsImpl` reads and writes. A wrapped value
and a submessage are `none` when they are absent. Messages that are defined elsewhere and only
passed on are their wire form.
-/

namespace Nighthawk.Options

abbrev Message := Str

/-- Enumerations are open: a message may hold a number that has no name. -/
inductive Enum (α : Type) where
  | named (value : α)
  | unnamed (number : ℤ)
  deriving DecidableEq, Repr

structure Duration where
  seconds : ℤ := 0
  nanos : ℤ := 0
  deriving DecidableEq, Repr

structure Timestamp where
  seconds : ℤ
  nanos : ℤ
  deriving DecidableEq, Repr

structure TypedExtensionConfig where
  name : Str
  typedConfig : Message
  deriving DecidableEq, Repr

inductive RequestMethod where
  | methodUnspecified | get | head | post | put | delete | connect | options | trace | patch
  deriving DecidableEq, Repr

inductive AddressFamilyOptions where
  | auto | v4 | v6
  deriving DecidableEq, Repr

inductive VerbosityOptions where
  | default | info | trace | debug | warn | error | critical
  deriving DecidableEq, Repr

inductive OutputFormatOptions where
  | default | json | human | yaml | dotted | fortio | experimentalFortioPedantic | csv | prometheus
  deriving DecidableEq, Repr

inductive SequencerIdleStrategyOptions where
  | default | spin | poll | sleep
  deriving DecidableEq, Repr

inductive H1ConnectionReuseStrategyOptions where
  | default | mru | lru
  deriving DecidableEq, Repr

inductive ProtocolOptions where
  | http1 | http2 | http3
  deriving DecidableEq, Repr

structure HeaderValueOption where
  key : Str
  value : Str
  append : Option Bool := none
  deriving DecidableEq, Repr

structure RequestOptions where
  requestMethod : Enum RequestMethod := .named .methodUnspecified
  requestHeaders : List HeaderValueOption := []
  requestBodySize : Option UInt32 := none
  jsonBody : Str := []
  deriving DecidableEq, Repr

structure Endpoint where
  address : Option Str
  port : Option UInt32
  deriving DecidableEq, Repr

structure MultiTarget where
  useHttps : Option Bool := none
  endpoints : List Endpoint := []
  path : Option Str := none
  deriving DecidableEq, Repr

structure TunnelOptions where
  tunnelUri : Str := []
  tunnelProtocol : Option (Enum ProtocolOptions) := none
  tunnelTlsContext : Message := []
  deriving DecidableEq, Repr

inductive OneofDurationOptions where
  | duration (value : Duration)
  | noDuration (value : Bool)
  deriving DecidableEq, Repr

inductive OneofProtocol where
  | h2 (value : Bool)
  | protocol (value : Enum ProtocolOptions)
  deriving DecidableEq, Repr

inductive OneofRequestOptions where
  | requestOptions (value : RequestOptions)
  | requestSource (uri : Str)
  | requestSourcePluginConfig (value : TypedExtensionConfig)
  deriving DecidableEq, Repr

/-- The headers of `request_options()`, which is empty when another member is set. -/
def OneofRequestOptions.headers : OneofRequestOptions → List HeaderValueOption
  | .requestOptions r => r.requestHeaders
  | _ => []

inductive OneofUri where
  | uri (value : Str)
  | multiTarget (value : MultiTarget)
  deriving DecidableEq, Repr

inductive OneofStatsFlushInterval where
  | statsFlushInterval (value : UInt32)
  | statsFlushIntervalDuration (value : Duration)
  deriving DecidableEq, Repr

structure CommandLineOptions where
  requestsPerSecond : Option UInt32 := none
  connections : Option UInt32 := none
  durationOptions : Option OneofDurationOptions := none
  timeout : Option Duration := none
  protocol : Option OneofProtocol := none
  tunnelOptions : Option TunnelOptions := none
  http3ProtocolOptions : Option Message := none
  concurrency : Option Str := none
  verbosity : Option (Enum VerbosityOptions) := none
  outputFormat : Option (Enum OutputFormatOptions) := none
  prefetchConnections : Option Bool := none
  burstSize : Option UInt32 := none
  addressFamily : Option (Enum AddressFamilyOptions) := none
  request : Option OneofRequestOptions := none
  tlsContext : Option Message := none
  maxPendingRequests : Option UInt32 := none
  maxActiveRequests : Option UInt32 := none
  maxRequestsPerConnection : Option UInt32 := none
  sequencerIdleStrategy : Option (Enum SequencerIdleStrategyOptions) := none
  uri : Option OneofUri := none
  trace : Option Str := none
  experimentalH1ConnectionReuseStrategy : Option (Enum H1ConnectionReuseStrategyOptions) := none
  terminationPredicates : List (Str × UInt64) := []
  failurePredicates : List (Str × UInt64) := []
  noDefaultFailurePredicates : Option Bool := none
  openLoop : Option Bool := none
  jitterUniform : Option Duration := none
  nighthawkService : Option Str := none
  experimentalH2UseMultipleConnections : Option Bool := none
  maxConcurrentStreams : Option UInt32 := none
  labels : List Str := []
  upstreamBindConfig : Option Message := none
  transportSocket : Option Message := none
  simpleWarmup : Option Bool := none
  statsSinks : List Message := []
  statsFlush : Option OneofStatsFlushInterval := none
  latencyResponseHeaderName : Option Str := none
  scheduledStart : Option Timestamp := none
  executionId : Option Str := none
  userDefinedPluginConfigs : List TypedExtensionConfig := []
  rateLimiterPluginConfig : Option TypedExtensionConfig := none
  deriving DecidableEq, Repr

/-! ## Validation rules -/

/-- A rule of a wrapped number, which holds when the number is absent. -/
def within (low high : UInt32) (value : Option UInt32) : Bool := value.all fun v => low ≤ v && v ≤ high

def Duration.nonNegative (d : Duration) : Bool := 0 ≤ d.seconds * 1000000000 + d.nanos

def uint32Max : UInt32 := 4294967295

def OneofDurationOptions.valid : OneofDurationOptions → Bool
  | .duration d => d.nonNegative
  | .noDuration _ => true

def OneofRequestOptions.valid : OneofRequestOptions → Bool
  | .requestOptions r => within 0 4194304 r.requestBodySize
  | _ => true

def OneofUri.valid : OneofUri → Bool
  | .uri _ => true
  | .multiTarget m => m.endpoints.all fun e => within 1 65535 e.port

def OneofStatsFlushInterval.valid : OneofStatsFlushInterval → Bool
  | .statsFlushInterval v => within 1 300 (some v)
  | .statsFlushIntervalDuration d => d.nonNegative

/-- The rules of this file. -/
def CommandLineOptions.valid (q : CommandLineOptions) : Bool :=
  within 1 1000000 q.requestsPerSecond && within 1 1000000 q.connections &&
    q.durationOptions.all OneofDurationOptions.valid && q.timeout.all Duration.nonNegative &&
    within 0 1000000 q.burstSize && q.request.all OneofRequestOptions.valid &&
    within 1 uint32Max q.maxActiveRequests && within 1 uint32Max q.maxRequestsPerConnection &&
    q.uri.all OneofUri.valid && q.jitterUniform.all Duration.nonNegative &&
    within 1 2147483647 q.maxConcurrentStreams && q.statsFlush.all OneofStatsFlushInterval.valid

end Nighthawk.Options
