import Nighthawk.BenchmarkClient.Code
import Nighthawk.RateLimiter.Code
import Nighthawk.Termination.Priority

/-!
# A client worker

`ClientWorkerImpl` puts a sequencer, its rate limiter, its termination predicates and a benchmark
client together. What the models of the parts take as given with an event, the answers of the
limiter and of the target and the callbacks that fire, is computed here from the other parts.
-/

namespace Nighthawk.Worker

open BenchmarkClient (Benchmark BenchmarkClientCounters Request StreamEvent)
open Options (OptionsImpl)
open Sequencer (SequencerImpl)
open Sequencer.SequencerImpl (Attempt Script)

/-! ## Construction -/

/-- `OptionsImpl::protocol`. -/
def protocol (o : OptionsImpl) : BenchmarkClient.Protocol :=
  if o.h2 ∨ o.protocolOption = .named .http2 then .http2
  else if o.protocolOption = .named .http3 then .http3
  else .http11

/-- `BenchmarkClientFactoryImpl::create`, with the plugins that were made for the worker. -/
def createBenchmarkClient (o : OptionsImpl) (plugins : ℕ)
    (pluginOk : List BenchmarkClient.PluginCall → BenchmarkClient.PluginCall → Bool) :
    BenchmarkClient.Config where
  protocol := protocol o
  connectionLimit := o.connections
  maxPendingRequests := o.maxPendingRequests
  maxActiveRequests := o.maxActiveRequests
  provideResourceBackpressure := !o.openLoop
  latencyResponseHeaderName := o.latencyResponseHeaderName
  userDefinedOutputPlugins := plugins
  pluginOk := pluginOk

/-- The strategies that `SequencerImpl::run` tells apart. -/
def idleStrategy (o : OptionsImpl) : Sequencer.IdleStrategy :=
  if o.sequencerIdleStrategy = .named .spin then .spin
  else if o.sequencerIdleStrategy = .named .sleep then .sleep
  else .poll

/-- The callback that a stream decoder was given with its request. -/
inductive CompletionCallback where
  | exitDispatcher
  | sequencer (id : ℕ)
  deriving DecidableEq, Repr

/-- How far `work` has come. -/
inductive Stage where
  | created
  | warmingUp
  | ready
  | phase
  deriving DecidableEq, Repr

/-- The members that do not change. -/
structure Config where
  client : BenchmarkClient.Config
  terminationPredicate : Termination.TerminationPredicate
  warmup : Bool

/-- The cached clock of the dispatcher is the one in `limiter`. -/
structure ClientWorkerImpl where
  sequencer : SequencerImpl
  limiter : RateLimiter.Session
  benchmark : Benchmark := {}
  callbacks : List (ℕ × CompletionCallback) := []
  gracefulStopRequested : ℕ := 0
  stage : Stage := .created

def configure (o : OptionsImpl) (startingTime : ℤ) (plugins : ℕ)
    (pluginOk : List BenchmarkClient.PluginCall → BenchmarkClient.PluginCall → Bool) : Option Config :=
  (Termination.create o startingTime).map fun terminationPredicate =>
    ⟨createBenchmarkClient o plugins pluginOk, terminationPredicate, o.simpleWarmup⟩

/-- The rate limiter of `SequencerFactoryImpl::create`, or `none` when a plugin makes it. -/
def createRateLimiter (o : OptionsImpl) (startingTime : ℤ) : Option (Except String RateLimiter.Stack) :=
  if o.rateLimiterPluginConfig.isSome then none
  else some (RateLimiter.create o.requestsPerSecond.toNat o.burstSize.toNat o.jitterUniform startingTime)

/-- A worker whose rate limiter is not a plugin's. -/
def construct (o : OptionsImpl) (startingTime time : ℤ) : Option (Except String ClientWorkerImpl) :=
  (createRateLimiter o startingTime).map fun limiter => limiter.map fun stack =>
    { sequencer := { idleStrategy := idleStrategy o }
      limiter := { stack, time, maxDelay := o.jitterUniform.toNat } }

namespace ClientWorkerImpl

/-! ## Requests and their callbacks -/

def updateApproximateMonotonicTime (w : ClientWorkerImpl) (gap : ℕ) : ClientWorkerImpl :=
  { w with limiter := { w.limiter with time := w.limiter.time + gap } }

def setShouldMeasureLatencies (w : ClientWorkerImpl) (measureLatencies : Bool) : ClientWorkerImpl :=
  { w with benchmark := { w.benchmark with client := { w.benchmark.client with measureLatencies } } }

/-- The client keeps the callback when it starts a request. -/
def tryStartRequest (c : Config) (w : ClientWorkerImpl) (callback : CompletionCallback) (pool : Bool)
    (request : Option Request) (now : ℤ) : Option (ClientWorkerImpl × Bool) :=
  (BenchmarkClient.step c.client w.benchmark (.tryStartRequest pool request now)).map fun b =>
    if b.started = w.benchmark.started then ({ w with benchmark := b }, false)
    else ({ w with benchmark := b, callbacks := (w.benchmark.started, callback) :: w.callbacks }, true)

/-- A call that a stream decoder gets, and the callback that it invokes if it ends. -/
def streamEvent (c : Config) (w : ClientWorkerImpl) (id : ℕ) (e : StreamEvent) :
    Option (ClientWorkerImpl × Option CompletionCallback) :=
  (BenchmarkClient.step c.client w.benchmark (.stream id e)).bind fun b =>
    if b.completionCallbacks.length = w.benchmark.completionCallbacks.length then
      some ({ w with benchmark := b }, none)
    else (w.callbacks.lookup id).map fun callback =>
      ({ w with benchmark := b, callbacks := w.callbacks.filter (·.1 ≠ id) }, some callback)

/-- A call that the pool or the codec makes, and how far the clock has moved when a callback of the
sequencer reads it. -/
structure Arrival where
  id : ℕ
  event : StreamEvent
  gap : ℕ
  deriving DecidableEq, Repr

/-- The calls before the target returns. The completions of the sequencer are collected. -/
def inlineEvents (c : Config) (w : ClientWorkerImpl) : List Arrival → Option (ClientWorkerImpl × List (ℕ × ℤ))
  | [] => some (w, [])
  | a :: rest =>
    match w.streamEvent c a.id a.event with
    | none => none
    | some (w, none) => inlineEvents c w rest
    | some (w, some (.sequencer id)) =>
      let w := w.updateApproximateMonotonicTime a.gap
      (inlineEvents c w rest).map fun (w', completions) => (w', (id, w.limiter.time) :: completions)
    | some (_, some .exitDispatcher) => none

/-! ## The loop of the sequencer -/

/-- What happens in one turn of the loop: the jitter that the limiter draws, whether there is a
pool, what the request source yields, the client's own clock, and the calls before the target
returns. A turn that ends early does not use the rest of it. -/
structure Turn where
  delay : ℕ
  pool : Bool
  request : Option Request
  now : ℤ
  inline : List Arrival

/-- One turn, and what the sequencer sees of its target call if there was one. The time that the
limiters see is the cached one, so it stands still during their calls. -/
def turn (c : Config) (w : ClientWorkerImpl) (calls : ℕ) (t : Turn) :
    Option (ClientWorkerImpl × Option Attempt) :=
  (w.limiter.step (.tryAcquireOne [] t.delay)).bind fun limiter =>
    let w := { w with limiter }
    if !limiter.mayRelease then some (w, none)
    else (w.tryStartRequest c (.sequencer calls) t.pool t.request t.now).bind fun (w, started) =>
      if started then (w.inlineEvents c t.inline).map fun (w, completions) => (w, some ⟨completions, true⟩)
      else (w.limiter.step (.releaseOne [])).map fun limiter => ({ w with limiter }, some ⟨[], false⟩)

/-- The turns until the limiter or the target refuses. -/
def loop (c : Config) (w : ClientWorkerImpl) (calls : ℕ) :
    List Turn → Option (ClientWorkerImpl × List Attempt)
  | [] => none
  | t :: rest =>
    (w.turn c calls t).bind fun
      | (w, none) => some (w, [])
      | (w, some a) =>
        if a.accepts then (loop c w (calls + 1) rest).map fun (w, attempts) => (w, a :: attempts)
        else some (w, [a])

/-! ## A run of the sequencer -/

def ownCounters (k : BenchmarkClientCounters) : List (Str × ℕ) :=
  [("benchmark.stream_resets".toList, k.streamResets), ("benchmark.http_1xx".toList, k.http .http1xx),
    ("benchmark.http_2xx".toList, k.http .http2xx), ("benchmark.http_3xx".toList, k.http .http3xx),
    ("benchmark.http_4xx".toList, k.http .http4xx), ("benchmark.http_5xx".toList, k.http .http5xx),
    ("benchmark.http_xxx".toList, k.http .httpXxx), ("benchmark.pool_overflow".toList, k.poolOverflow),
    ("benchmark.pool_connection_failure".toList, k.poolConnectionFailure),
    ("benchmark.user_defined_plugin_handle_headers_failure".toList, k.userDefinedPluginHandleHeadersFailure),
    ("benchmark.user_defined_plugin_handle_data_failure".toList, k.userDefinedPluginHandleDataFailure)]

/-- The counters of the worker's scope. Those that Envoy keeps itself are given. -/
def counters (w : ClientWorkerImpl) (envoy : Str → UInt64) (name : Str) : UInt64 :=
  let own := ("graceful_stop_requested".toList, w.gracefulStopRequested) ::
    ("sequencer.failed_terminations".toList, w.sequencer.failedTerminations) ::
      ownCounters w.benchmark.client.counters
  match own.lookup name with
  | some value => UInt64.ofNat value
  | none => envoy name

/-- How far the clock has moved when `run` updates it, Envoy's counters, and the turns. -/
structure Poll where
  gap : ℕ
  envoy : Str → UInt64
  turns : List Turn

def predicates (c : Config) (w : ClientWorkerImpl) (p : Poll) : List Sequencer.Status :=
  c.terminationPredicate.toList.map (Termination.Predicate.evaluate ⟨w.counters p.envoy, w.limiter.time⟩)

/-- What the limiter and the target do in a `run` that gets these statuses. -/
def serve (c : Config) (w : ClientWorkerImpl) (statuses : List Sequencer.Status) (turns : List Turn) :
    Option (ClientWorkerImpl × List Attempt) :=
  if (w.sequencer.evaluate statuses).lastTerminationStatus ≠ .proceed then some (w, [])
  else w.loop c w.sequencer.calls turns

/-- `SequencerImpl::run`, when `event` calls it. -/
def run (c : Config) (w : ClientWorkerImpl) (event : Script → Sequencer.Event) (p : Poll) :
    Option ClientWorkerImpl :=
  let w := w.updateApproximateMonotonicTime p.gap
  let statuses := predicates c w p
  (w.serve c statuses p.turns).bind fun (w', attempts) =>
    (Sequencer.step w.sequencer (event ⟨w.limiter.time, statuses, attempts⟩)).map fun sequencer =>
      { w' with sequencer }

end ClientWorkerImpl

/-! ## Events -/

open ClientWorkerImpl in
inductive Event where
  /-- `work`, up to the wait for the warm-up request. -/
  | work (pool : Bool) (request : Option Request) (now : ℤ)
  /-- `phase_->run()` starts the sequencer. -/
  | start (p : Poll)
  | periodicTimer (p : Poll)
  | spinTimer (p : Poll)
  | stream (a : Arrival)
  /-- The closure that `requestExecutionCancellation` posts. It may run before `work`. -/
  | requestExecutionCancellation
  /-- `shutdownThread` while the pool has active connections. -/
  | terminate

/-- A step is `none` when it cannot happen. The decoder calls that `tryStartRequest` makes for the
warm-up request are the next events. -/
def step (c : Config) (w : ClientWorkerImpl) : Event → Option ClientWorkerImpl
  | .work pool request now =>
    if w.stage ≠ .created then none
    else
      let w := w.setShouldMeasureLatencies false
      if c.warmup then
        (w.tryStartRequest c .exitDispatcher pool request now).map fun (w, started) =>
          { w with stage := if started then .warmingUp else .ready }
      else some { w with stage := .ready }
  | .start p =>
    if w.stage = .ready then
      { w.setShouldMeasureLatencies true with stage := .phase }.run c .start p else none
  | .periodicTimer p => w.run c .periodicTimer p
  | .spinTimer p => w.run c .spinTimer p
  | .stream a =>
    match w.streamEvent c a.id a.event with
    | none => none
    | some (w, none) => some w
    | some (w, some .exitDispatcher) => some { w with stage := .ready }
    | some (w, some (.sequencer id)) =>
      let w := w.updateApproximateMonotonicTime a.gap
      (Sequencer.step w.sequencer (.completion id w.limiter.time)).map fun sequencer => { w with sequencer }
  | .requestExecutionCancellation => some { w with gracefulStopRequested := w.gracefulStopRequested + 1 }
  | .terminate => if w.sequencer.dispatcherExited then some (w.setShouldMeasureLatencies false) else none

end Nighthawk.Worker
