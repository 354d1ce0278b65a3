import Mathlib.Algebra.Group.Int.Defs
import Mathlib.Algebra.Group.Nat.Defs
import Nighthawk.Envoy.HeaderMap

/-!
# The benchmark client and its stream decoders

`tryStartRequest` makes one `StreamDecoder` for each request. The connection pool and the
codec then call the decoder, and the decoder reports to the client. Tracing is left out:
it changes neither the client nor what the decoder reports.
-/

namespace Nighthawk.BenchmarkClient

inductive Protocol where
  | http10 | http11 | http2 | http3
  deriving DecidableEq, Repr

inductive PoolFailureReason where
  | overflow | localConnectionFailure | remoteConnectionFailure | timeout
  deriving DecidableEq, Repr

inductive StreamResetReason where
  | localConnectionFailure | remoteConnectionFailure | connectionTimeout | connectionTermination
  | localReset | localRefusedStreamReset | http1PrematureUpstreamHalfClose | overflow
  | connectError | remoteReset | remoteRefusedStreamReset | remoteResetNoError
  | protocolError | overloadManager
  deriving DecidableEq, Repr

inductive CoreResponseFlag where
  | upstreamConnectionFailure | upstreamConnectionTermination | localReset | upstreamOverflow
  | upstreamRemoteReset | upstreamProtocolError | overloadManager
  deriving DecidableEq, Repr

/-- `status` is what Envoy's `getResponseStatus` reads from the headers. -/
structure ResponseHeaderMap where
  status : UInt64
  byteSize : UInt64
  entries : HeaderMap
  deriving DecidableEq, Repr

/-- What the decoder passes on when a stream ends before any response headers. -/
def ResponseHeaderMap.empty : ResponseHeaderMap := ⟨0, 0, []⟩

structure Request where
  header : HeaderMap
  body : Str
  deriving DecidableEq, Repr

/-! ## The client -/

/-- The six branches on a status code, in `onComplete` and in `exportLatency`. -/
inductive StatusClass where
  | http1xx | http2xx | http3xx | http4xx | http5xx | httpXxx
  deriving DecidableEq, Repr

def statusClass (status : Int) : StatusClass :=
  if status > 99 ∧ status ≤ 199 then .http1xx
  else if status > 199 ∧ status ≤ 299 then .http2xx
  else if status > 299 ∧ status ≤ 399 then .http3xx
  else if status > 399 ∧ status ≤ 499 then .http4xx
  else if status > 499 ∧ status ≤ 599 then .http5xx
  else .httpXxx

/-- The counter `http_<class>` is `http` at that class. -/
structure BenchmarkClientCounters where
  streamResets : Nat := 0
  http : StatusClass → Nat := fun _ => 0
  poolOverflow : Nat := 0
  poolConnectionFailure : Nat := 0
  userDefinedPluginHandleHeadersFailure : Nat := 0
  userDefinedPluginHandleDataFailure : Nat := 0

/-- The samples each statistic was given. `latency` at a class is `latency_<class>_statistic`. -/
structure BenchmarkClientStatistic where
  connect : List UInt64 := []
  response : List UInt64 := []
  responseHeaderSize : List UInt64 := []
  responseBodySize : List UInt64 := []
  latency : StatusClass → List UInt64 := fun _ => []
  originLatency : List UInt64 := []

inductive PluginCall where
  | handleResponseHeaders (plugin : Nat) (headers : ResponseHeaderMap)
  | handleResponseData (plugin : Nat) (data : Str)
  deriving DecidableEq, Repr

/-- The members that are set up before the first request. `pluginOk` is the status a plugin
answers a call with, given the calls before it. -/
structure Config where
  protocol : Protocol
  connectionLimit : UInt32 := 1
  maxPendingRequests : UInt32 := 1
  maxActiveRequests : UInt32 := 4294967295
  provideResourceBackpressure : Bool
  latencyResponseHeaderName : Str := []
  userDefinedOutputPlugins : Nat := 0
  pluginOk : List PluginCall → PluginCall → Bool := fun _ _ => true

structure BenchmarkClientHttpImpl where
  requestsCompleted : UInt64 := 0
  requestsInitiated : UInt64 := 0
  measureLatencies : Bool := false
  counters : BenchmarkClientCounters := {}
  statistic : BenchmarkClientStatistic := {}
  pluginCalls : List PluginCall := []

namespace BenchmarkClientHttpImpl

def countStatus (s : BenchmarkClientHttpImpl) (k : StatusClass) : BenchmarkClientHttpImpl :=
  { s with counters := { s.counters with http := Function.update s.counters.http k (s.counters.http k + 1) } }

/-- One call of the loops over the plugins. -/
def handleResponseHeadersOne (c : Config) (headers : ResponseHeaderMap) (s : BenchmarkClientHttpImpl)
    (plugin : Nat) : BenchmarkClientHttpImpl :=
  let call := PluginCall.handleResponseHeaders plugin headers
  let ok := c.pluginOk s.pluginCalls call
  let s := { s with pluginCalls := s.pluginCalls ++ [call] }
  if ok then s
  else { s with counters := { s.counters with
    userDefinedPluginHandleHeadersFailure := s.counters.userDefinedPluginHandleHeadersFailure + 1 } }

def handleResponseDataOne (c : Config) (data : Str) (s : BenchmarkClientHttpImpl) (plugin : Nat) :
    BenchmarkClientHttpImpl :=
  let call := PluginCall.handleResponseData plugin data
  let ok := c.pluginOk s.pluginCalls call
  let s := { s with pluginCalls := s.pluginCalls ++ [call] }
  if ok then s
  else { s with counters := { s.counters with
    userDefinedPluginHandleDataFailure := s.counters.userDefinedPluginHandleDataFailure + 1 } }

def handleResponseData (c : Config) (s : BenchmarkClientHttpImpl) (data : Str) : BenchmarkClientHttpImpl :=
  (List.range c.userDefinedOutputPlugins).foldl (handleResponseDataOne c data) s

def onComplete (c : Config) (s : BenchmarkClientHttpImpl) (success : Bool) (headers : ResponseHeaderMap) :
    BenchmarkClientHttpImpl :=
  let s := { s with requestsCompleted := s.requestsCompleted + 1 }
  let s :=
    if !success then { s with counters := { s.counters with streamResets := s.counters.streamResets + 1 } }
    -- The source reads the `uint64_t` status as an `int64_t` here.
    else s.countStatus (statusClass headers.status.toInt64.toInt)
  (List.range c.userDefinedOutputPlugins).foldl (handleResponseHeadersOne c headers) s

def onPoolFailure (s : BenchmarkClientHttpImpl) : PoolFailureReason → BenchmarkClientHttpImpl
  | .overflow => { s with counters := { s.counters with poolOverflow := s.counters.poolOverflow + 1 } }
  | .localConnectionFailure | .remoteConnectionFailure =>
    { s with counters := { s.counters with poolConnectionFailure := s.counters.poolConnectionFailure + 1 } }
  | .timeout => s

def exportLatency (s : BenchmarkClientHttpImpl) (responseCode : UInt32) (latencyNs : UInt64) :
    BenchmarkClientHttpImpl :=
  let k := statusClass responseCode.toNat
  { s with statistic := { s.statistic with
    latency := Function.update s.statistic.latency k (s.statistic.latency k ++ [latencyNs]) } }

end BenchmarkClientHttpImpl

/-! ## The stream decoder -/

structure StreamInfo where
  responseCode : Option UInt32 := none
  bytesSent : UInt64 := 0
  bytesReceived : UInt64 := 0
  responseFlag : Option CoreResponseFlag := none
  deriving DecidableEq, Repr

/-- Times are nanoseconds of the monotonic clock. -/
structure StreamDecoder where
  requestHeaders : HeaderMap
  requestBody : Str
  connectStart : Int
  measureLatencies : Bool
  requestBodySize : UInt32
  latencyResponseHeaderName : Str := []
  responseHeaders : Option ResponseHeaderMap := none
  requestStart : Int := 0
  complete : Bool := false
  streamInfo : StreamInfo := {}
  deriving DecidableEq, Repr

/-- A duration given to `addValue`, which takes a `uint64_t`. -/
def toSample (ns : Int) : UInt64 := UInt64.ofInt ns

/-- `absl::SimpleAtoi` into a `uint64_t`. -/
def simpleAtoi64 (s : Str) : Option UInt64 := (Text.parseUnsigned (2 ^ 64 - 1) s).map UInt64.ofNat

/-- `absl::SimpleAtoi` into an `int64_t`. -/
def simpleAtoiInt64 (s : Str) : Option Int := Text.parseSigned (-2 ^ 63) (2 ^ 63 - 1) s

/-- What a call did to its decoder. When it ended, the caller's callback was called with
`complete` and `success`, and the decoder was handed to deferred deletion. -/
inductive Progress where
  | ongoing (d : StreamDecoder)
  | ended (complete success : Bool)
  deriving DecidableEq, Repr

namespace StreamDecoder

def streamResetReasonToResponseFlag : StreamResetReason → CoreResponseFlag
  | .localConnectionFailure | .remoteConnectionFailure | .connectionTimeout => .upstreamConnectionFailure
  | .connectionTermination => .upstreamConnectionTermination
  | .localReset | .localRefusedStreamReset | .http1PrematureUpstreamHalfClose => .localReset
  | .overflow => .upstreamOverflow
  | .connectError | .remoteReset | .remoteRefusedStreamReset | .remoteResetNoError => .upstreamRemoteReset
  | .protocolError => .upstreamProtocolError
  | .overloadManager => .overloadManager

/-- The source reads the clock twice, once for each latency. -/
def recordLatency (d : StreamDecoder) (s : BenchmarkClientHttpImpl) (now now' : Int) :
    BenchmarkClientHttpImpl :=
  let s := { s with statistic := { s.statistic with
    response := s.statistic.response ++ [toSample (now - d.requestStart)] } }
  match d.streamInfo.responseCode with
  | some code => s.exportLatency code (toSample (now' - d.requestStart))
  | none => s

def onComplete (c : Config) (d : StreamDecoder) (s : BenchmarkClientHttpImpl) (success : Bool)
    (now now' : Int) :
    BenchmarkClientHttpImpl × Progress :=
  let s := if success && d.measureLatencies then d.recordLatency s now now' else s
  let s := { s with statistic := { s.statistic with
    responseBodySize := s.statistic.responseBodySize ++ [d.streamInfo.bytesSent] } }
  let s := s.onComplete c success (d.responseHeaders.getD .empty)
  (s, .ended d.complete success)

/-- The samples of the header that `latency_response_header_name` names. -/
def originDelta (d : StreamDecoder) (headers : ResponseHeaderMap) : List UInt64 :=
  if d.latencyResponseHeaderName = [] then []
  else match headers.entries.get (Text.toLower d.latencyResponseHeaderName) with
    | [value] => (((simpleAtoiInt64 value).filter (0 ≤ ·)).map toSample).toList
    -- The source then parses the text "multiple values", which is not a number.
    | _ => []

def decodeHeaders (c : Config) (d : StreamDecoder) (s : BenchmarkClientHttpImpl) (headers : ResponseHeaderMap)
    (endStream : Bool) (now now' : Int) : BenchmarkClientHttpImpl × Progress :=
  let d := { d with
    complete := endStream
    responseHeaders := some headers
    streamInfo := { d.streamInfo with responseCode := some headers.status.toUInt32 } }
  let s := { s with statistic := { s.statistic with
    responseHeaderSize := s.statistic.responseHeaderSize ++ [headers.byteSize]
    originLatency := s.statistic.originLatency ++ d.originDelta headers } }
  if d.complete then d.onComplete c s true now now' else (s, .ongoing d)

def decodeData (c : Config) (d : StreamDecoder) (s : BenchmarkClientHttpImpl) (data : Str) (endStream : Bool)
    (now now' : Int) : BenchmarkClientHttpImpl × Progress :=
  let d := { d with
    complete := endStream
    streamInfo := { d.streamInfo with bytesSent := d.streamInfo.bytesSent + UInt64.ofNat data.length } }
  let (s, p) := if d.complete then d.onComplete c s true now now' else (s, .ongoing d)
  (s.handleResponseData c data, p)

def decodeTrailers (c : Config) (d : StreamDecoder) (s : BenchmarkClientHttpImpl) (now now' : Int) :
    BenchmarkClientHttpImpl × Progress :=
  { d with complete := true }.onComplete c s true now now'

def onResetStream (c : Config) (d : StreamDecoder) (s : BenchmarkClientHttpImpl) (reason : StreamResetReason)
    (now now' : Int) : BenchmarkClientHttpImpl × Progress :=
  { d with streamInfo := { d.streamInfo with
    responseFlag := some (streamResetReasonToResponseFlag reason) } }.onComplete c s false now now'

def onPoolFailure (s : BenchmarkClientHttpImpl) (reason : PoolFailureReason) :
    BenchmarkClientHttpImpl × Progress :=
  (s.onPoolFailure reason, .ended false false)

/-- The size of `staticUploadContent`. -/
def staticUploadSize : Nat := 4194304

inductive RequestData where
  /-- The first bytes of the static upload buffer. -/
  | staticUpload (bytes : UInt32)
  | json (body : Str)
  deriving DecidableEq, Repr

/-- What `onPoolReady` gives to the encoder: the headers, and the data frame if there is one. -/
structure Encoded where
  headers : HeaderMap
  endStream : Bool
  data : Option RequestData
  deriving DecidableEq, Repr

def encodeRequest (d : StreamDecoder) : Encoded where
  headers := d.requestHeaders
  endStream := d.requestBodySize = 0 ∧ d.requestBody = []
  data :=
    if d.requestBodySize > 0 ∨ d.requestBody ≠ [] then
      if d.requestBody = [] then some (.staticUpload d.requestBodySize) else some (.json d.requestBody)
    else none

def bytesToReceive (d : StreamDecoder) : UInt64 :=
  match (encodeRequest d).data with
  | some (.staticUpload n) => n.toUInt64
  | some (.json body) => UInt64.ofNat body.length
  | none => 0

def onPoolReady (d : StreamDecoder) (s : BenchmarkClientHttpImpl) (now : Int) :
    BenchmarkClientHttpImpl × Progress :=
  let d := { d with
    requestStart := now
    streamInfo := { d.streamInfo with bytesReceived := d.streamInfo.bytesReceived + bytesToReceive d } }
  let s :=
    if d.measureLatencies then
      { s with statistic := { s.statistic with connect := s.statistic.connect ++
        [toSample (now - d.connectStart)] } }
    else s
  (s, .ongoing d)

end StreamDecoder

/-! ## Starting a request -/

/-- Why `tryStartRequest` returned false, or the decoder it started. -/
inductive StartResult where
  | noPool
  | backpressure
  | noRequest
  | started (d : StreamDecoder)
  deriving DecidableEq, Repr

/-- `max_in_flight`: 32-bit limits added as 64-bit numbers. -/
def Config.maxInFlight (c : Config) : UInt64 :=
  let maxActiveRequests :=
    if c.protocol = .http2 ∨ c.protocol = .http3 then
      c.maxActiveRequests.toUInt64 else c.connectionLimit.toUInt64
  c.maxPendingRequests.toUInt64 + maxActiveRequests

/-- The content length, or 0 when the header is absent or not a number. -/
def requestContentLength (header : HeaderMap) : UInt64 :=
  match header.contentLength with
  | some value => (simpleAtoi64 value).getD 0
  | none => 0

/-- `pool` tells whether there is a connection pool, and `request` is what the request
generator answers. -/
def BenchmarkClientHttpImpl.tryStartRequest (c : Config) (s : BenchmarkClientHttpImpl) (pool : Bool)
    (request : Option Request) (now : Int) : BenchmarkClientHttpImpl × StartResult :=
  if !pool then (s, .noPool)
  else if c.provideResourceBackpressure ∧ s.requestsInitiated - s.requestsCompleted ≥ c.maxInFlight then
    (s, .backpressure)
  else match request with
    | none => (s, .noRequest)
    | some request =>
      let d : StreamDecoder :=
        { requestHeaders := request.header, requestBody := request.body, connectStart := now
          measureLatencies := s.measureLatencies
          -- The constructor takes a `uint32_t`.
          requestBodySize := (requestContentLength request.header).toUInt32
          latencyResponseHeaderName := c.latencyResponseHeaderName }
      ({ s with requestsInitiated := s.requestsInitiated + 1 }, .started d)

/-! ## Runs of the client and the streams it started -/

structure Stream where
  decoder : StreamDecoder
  poolReady : Bool := false

/-- The client, the streams that have not ended, and what was reported so far. -/
structure Benchmark where
  client : BenchmarkClientHttpImpl := {}
  streams : List (Nat × Stream) := []
  started : Nat := 0
  completionCallbacks : List (Nat × Bool × Bool) := []
  deferredDeletes : List Nat := []
  /-- Pool failures that no counter of the client has. -/
  poolTimeouts : Nat := 0

/-- Before the first request. -/
def Benchmark.init (measureLatencies : Bool) : Benchmark := { client := { measureLatencies } }

inductive StreamEvent where
  | onPoolReady (now : Int)
  | onPoolFailure (reason : PoolFailureReason)
  | decodeHeaders (headers : ResponseHeaderMap) (endStream : Bool) (now now' : Int)
  | decodeData (data : Str) (endStream : Bool) (now now' : Int)
  | decodeTrailers (now now' : Int)
  | onResetStream (reason : StreamResetReason) (now now' : Int)
  deriving DecidableEq, Repr

def StreamEvent.isPoolTimeout : StreamEvent → Bool
  | .onPoolFailure .timeout => true
  | _ => false

inductive Event where
  | tryStartRequest (pool : Bool) (request : Option Request) (now : Int)
  | stream (id : Nat) (e : StreamEvent)
  deriving DecidableEq, Repr

/-- Envoy's contract: one pool failure, or pool ready and then headers, data and trailers
until the stream ends or is reset. -/
def Stream.allows (st : Stream) : StreamEvent → Bool
  | .onPoolReady _ | .onPoolFailure _ => !st.poolReady
  | .decodeHeaders .. => st.poolReady && st.decoder.responseHeaders.isNone
  | .decodeData .. | .decodeTrailers .. => st.poolReady && st.decoder.responseHeaders.isSome
  | .onResetStream .. => st.poolReady

def StreamDecoder.handle (c : Config) (d : StreamDecoder) (s : BenchmarkClientHttpImpl) :
    StreamEvent → BenchmarkClientHttpImpl × Progress
  | .onPoolReady now => d.onPoolReady s now
  | .onPoolFailure reason => StreamDecoder.onPoolFailure s reason
  | .decodeHeaders headers endStream now now' => d.decodeHeaders c s headers endStream now now'
  | .decodeData data endStream now now' => d.decodeData c s data endStream now now'
  | .decodeTrailers now now' => d.decodeTrailers c s now now'
  | .onResetStream reason now now' => d.onResetStream c s reason now now'

/-- The pool may call the decoder before `tryStartRequest` returns. Such a call is the next
event of the run. -/
def step (c : Config) (b : Benchmark) : Event → Option Benchmark
  | .tryStartRequest pool request now =>
    match b.client.tryStartRequest c pool request now with
    | (client, .started d) =>
      some { b with client, streams := (b.started, { decoder := d }) :: b.streams, started := b.started + 1 }
    | (client, _) => some { b with client }
  | .stream id e =>
    match b.streams.lookup id with
    | none => none
    | some st =>
      if !st.allows e then none
      else match st.decoder.handle c b.client e with
        | (client, .ongoing d) =>
          let ready := st.poolReady || (match e with | .onPoolReady _ => true | _ => false)
          some { b with client, streams := b.streams.map fun (i, st) => if i = id then
            (i, ⟨d, ready⟩) else (i, st) }
        | (client, .ended complete success) =>
          some { b with
            client
            streams := b.streams.filter (·.1 ≠ id)
            completionCallbacks := b.completionCallbacks ++ [(id, complete, success)]
            deferredDeletes := b.deferredDeletes ++ [id]
            poolTimeouts := b.poolTimeouts + if e.isPoolTimeout then 1 else 0 }

end Nighthawk.BenchmarkClient
