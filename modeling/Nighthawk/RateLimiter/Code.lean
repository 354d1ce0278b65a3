import Mathlib.Algebra.Order.Floor.Ring
import Mathlib.Data.List.Sort
import Mathlib.Data.Rat.Floor

/-!
# Rate limiters

The limiters that `SequencerFactoryImpl::create` stacks on each other when no plugin is set. Times
are integer nanoseconds. Frequencies and durations in seconds are exact rationals.
-/

namespace Nighthawk.RateLimiter

/-- The clock and the jitter during one call. Each reading moves the clock on by the next gap. -/
structure Env where
  time : ℤ
  gaps : List ℕ
  delay : ℕ
  deriving DecidableEq, Repr

namespace Env

def monotonicTime (e : Env) : ℤ × Env :=
  match e.gaps with
  | [] => (e.time, e)
  | g :: gaps => (e.time + g, { e with time := e.time + g, gaps := gaps })

end Env

/-- A statement of a `releaseOne` that was violated. -/
inductive Violation where
  | assert (condition : String)
  | releaseAssert (message : String)
  | exception (message : String)
  deriving DecidableEq, Repr

namespace Violation

/-- A debug assertion does not end the call. -/
def fatal : Violation → Bool
  | assert _ => false
  | _ => true

end Violation

structure Released (σ : Type) where
  limiter : σ
  env : Env
  violations : List Violation

class Limiter (σ : Type) where
  tryAcquireOne : σ → Env → Bool × σ × Env
  releaseOne : σ → Env → Released σ

/-! ## Linear -/

structure Frequency where
  hertz : ℕ
  deriving DecidableEq, Repr

/-- Seconds. -/
def Frequency.interval (f : Frequency) : ℚ := 1 / f.hertz

structure LinearRateLimiter where
  frequency : Frequency
  startTime : Option ℤ := none
  acquireableCount : ℤ := 0
  acquiredCount : ℤ := 0
  deriving DecidableEq, Repr

namespace LinearRateLimiter

def elapsed (l : LinearRateLimiter) (e : Env) : ℤ × LinearRateLimiter × Env :=
  let (now, e) := e.monotonicTime
  let start := l.startTime.getD now
  (now - start, { l with startTime := some start }, e)

/-- The acquisitions that are due after so many nanoseconds. -/
def due (f : Frequency) (nanos : ℤ) : ℤ :=
  let phaseShifted : ℚ := nanos / 10 ^ 9 + f.interval / 2
  ⌊phaseShifted / f.interval⌋

def acquire (l : LinearRateLimiter) : LinearRateLimiter :=
  { l with acquireableCount := l.acquireableCount - 1, acquiredCount := l.acquiredCount + 1 }

def tryAcquireOne (l : LinearRateLimiter) (e : Env) : Bool × LinearRateLimiter × Env :=
  if 0 < l.acquireableCount then (true, l.acquire, e)
  else
    let (nanos, l, e) := l.elapsed e
    let l := { l with acquireableCount := due l.frequency nanos - l.acquiredCount }
    if 0 < l.acquireableCount then (true, l.acquire, e) else (false, l, e)

def releaseOne (l : LinearRateLimiter) (e : Env) : Released LinearRateLimiter :=
  ⟨{ l with acquireableCount := l.acquireableCount + 1, acquiredCount := l.acquiredCount - 1 }, e, []⟩

instance : Limiter LinearRateLimiter := ⟨tryAcquireOne, releaseOne⟩

end LinearRateLimiter

/-! ## Scheduled starting -/

structure ScheduledStartingRateLimiter (σ : Type) where
  rateLimiter : σ
  scheduledStartingTime : ℤ
  aquisitionAttempted : Bool := false
  deriving DecidableEq, Repr

namespace ScheduledStartingRateLimiter

variable {σ : Type} [Limiter σ]

def tryAcquireOne (s : ScheduledStartingRateLimiter σ) (e : Env) :
    Bool × ScheduledStartingRateLimiter σ × Env :=
  let (now, e) := e.monotonicTime
  if now < s.scheduledStartingTime then (false, { s with aquisitionAttempted := true }, e)
  else
    let (r, inner, e) := Limiter.tryAcquireOne s.rateLimiter e
    (r, { s with rateLimiter := inner, aquisitionAttempted := true }, e)

def releaseOne (s : ScheduledStartingRateLimiter σ) (e : Env) : Released (ScheduledStartingRateLimiter σ) :=
  let (now, e) := e.monotonicTime
  if now < s.scheduledStartingTime then ⟨s, e, [.exception "Unexpected call to releaseOne()"]⟩
  else
    let r := Limiter.releaseOne s.rateLimiter e
    ⟨{ s with rateLimiter := r.limiter }, r.env, r.violations⟩

instance : Limiter (ScheduledStartingRateLimiter σ) := ⟨tryAcquireOne, releaseOne⟩

end ScheduledStartingRateLimiter

/-! ## Bursting -/

structure BurstingRateLimiter (σ : Type) where
  rateLimiter : σ
  burstSize : ℕ
  accumulated : ℕ := 0
  releasing : Bool := false
  previouslyReleasing : Option Bool := none
  deriving DecidableEq, Repr

namespace BurstingRateLimiter

variable {σ : Type} [Limiter σ]

/-- The branch of `tryAcquireOne` in release mode. -/
def drain (b : BurstingRateLimiter σ) : BurstingRateLimiter σ :=
  { b with previouslyReleasing := some true, accumulated := b.accumulated - 1,
           releasing := 0 < b.accumulated - 1 }

/-- The loop of `tryAcquireOne`, for at most `fuel` rounds. -/
def accumulate : ℕ → BurstingRateLimiter σ → Env → Bool × BurstingRateLimiter σ × Env
  | 0, b, e => (false, { b with previouslyReleasing := none }, e)
  | fuel + 1, b, e =>
    match Limiter.tryAcquireOne b.rateLimiter e with
    | (false, inner, e) => (false, { b with rateLimiter := inner, previouslyReleasing := none }, e)
    | (true, inner, e) =>
      let b := { b with rateLimiter := inner, accumulated := b.accumulated + 1 }
      if b.accumulated % b.burstSize = 0 then (true, drain { b with releasing := true }, e)
      else accumulate fuel b e

/-- The rounds until the accumulated total is the next multiple of the burst size. -/
def rounds (b : BurstingRateLimiter σ) : ℕ := b.burstSize - b.accumulated % b.burstSize

def tryAcquireOne (b : BurstingRateLimiter σ) (e : Env) : Bool × BurstingRateLimiter σ × Env :=
  if b.releasing then (true, b.drain, e)
  else accumulate b.rounds { b with previouslyReleasing := some false } e

def releaseOne (b : BurstingRateLimiter σ) (e : Env) : Released (BurstingRateLimiter σ) :=
  ⟨{ b with accumulated := b.accumulated + 1, releasing := true, previouslyReleasing := none }, e,
    (if b.accumulated < b.burstSize then [] else [.assert "accumulated_ < burst_size_"]) ++
    (if b.previouslyReleasing = some true then []
     else [.assert "previously_releasing_ != std::nullopt && previously_releasing_ == true"])⟩

instance : Limiter (BurstingRateLimiter σ) := ⟨tryAcquireOne, releaseOne⟩

end BurstingRateLimiter

/-! ## Delegating -/

structure DelegatingRateLimiterImpl (σ : Type) where
  rateLimiter : σ
  distributedTimings : List ℤ := []
  sanityCheckPendingRelease : Bool := true
  deriving DecidableEq, Repr

namespace DelegatingRateLimiterImpl

variable {σ : Type} [Limiter σ]

-- Inserts after the timings that are not later, which is where `upper_bound` points.
def insertTiming (d : DelegatingRateLimiterImpl σ) (adjusted : ℤ) : DelegatingRateLimiterImpl σ :=
  { d with distributedTimings := d.distributedTimings.orderedInsert (· < ·) adjusted }

/-- Takes the timing at the front off the queue when it is due. -/
def popDue (d : DelegatingRateLimiterImpl σ) (now : ℤ) : Bool × DelegatingRateLimiterImpl σ :=
  match d.distributedTimings with
  | [] => (false, d)
  | front :: rest =>
    if front ≤ now then (true, { d with distributedTimings := rest, sanityCheckPendingRelease := false })
    else (false, d)

def tryAcquireOne (d : DelegatingRateLimiterImpl σ) (e : Env) : Bool × DelegatingRateLimiterImpl σ × Env :=
  let (now, e) := e.monotonicTime
  let (acquired, inner, e) := Limiter.tryAcquireOne d.rateLimiter e
  let d := { d with rateLimiter := inner }
  let d := if acquired then d.insertTiming (now + e.delay) else d
  let (r, d) := d.popDue now
  (r, d, e)

def releaseOne (d : DelegatingRateLimiterImpl σ) (e : Env) : Released (DelegatingRateLimiterImpl σ) :=
  if d.sanityCheckPendingRelease then
    ⟨d, e, [.releaseAssert "unexpected call to DelegatingRateLimiterImpl::releaseOne()"]⟩
  else
    let r := Limiter.releaseOne d.rateLimiter e
    ⟨{ d with rateLimiter := r.limiter, sanityCheckPendingRelease := true }, r.env, r.violations⟩

instance : Limiter (DelegatingRateLimiterImpl σ) := ⟨tryAcquireOne, releaseOne⟩

end DelegatingRateLimiterImpl

/-! ## The stack of a sequencer -/

inductive Stack where
  | plain (l : ScheduledStartingRateLimiter LinearRateLimiter)
  | bursting (l : BurstingRateLimiter (ScheduledStartingRateLimiter LinearRateLimiter))
  | jittered (l : DelegatingRateLimiterImpl (ScheduledStartingRateLimiter LinearRateLimiter))
  | burstingJittered
      (l : DelegatingRateLimiterImpl (BurstingRateLimiter (ScheduledStartingRateLimiter LinearRateLimiter)))
  deriving DecidableEq, Repr

namespace Stack

def tryAcquireOne : Stack → Env → Bool × Stack × Env
  | plain l, e => let (r, l, e) := l.tryAcquireOne e; (r, plain l, e)
  | bursting l, e => let (r, l, e) := l.tryAcquireOne e; (r, bursting l, e)
  | jittered l, e => let (r, l, e) := l.tryAcquireOne e; (r, jittered l, e)
  | burstingJittered l, e => let (r, l, e) := l.tryAcquireOne e; (r, burstingJittered l, e)

def releaseOne : Stack → Env → Released Stack
  | plain l, e => let r := l.releaseOne e; ⟨plain r.limiter, r.env, r.violations⟩
  | bursting l, e => let r := l.releaseOne e; ⟨bursting r.limiter, r.env, r.violations⟩
  | jittered l, e => let r := l.releaseOne e; ⟨jittered r.limiter, r.env, r.violations⟩
  | burstingJittered l, e => let r := l.releaseOne e; ⟨burstingJittered r.limiter, r.env, r.violations⟩

instance : Limiter Stack := ⟨tryAcquireOne, releaseOne⟩

end Stack

/-- The part of `SequencerFactoryImpl::create` that builds the limiter, without a plugin. -/
def create (requestsPerSecond burstSize : ℕ) (jitterUniform scheduledStartingTime : ℤ) :
    Except String Stack :=
  if requestsPerSecond = 0 then .error "frequency must be <= 0, value: 0"
  else
    let scheduled : ScheduledStartingRateLimiter LinearRateLimiter :=
      ⟨{ frequency := ⟨requestsPerSecond⟩ }, scheduledStartingTime, false⟩
    if burstSize = 0 then
      .ok (if 0 < jitterUniform then .jittered { rateLimiter := scheduled } else .plain scheduled)
    else
      let burst : BurstingRateLimiter (ScheduledStartingRateLimiter LinearRateLimiter) :=
        { rateLimiter := scheduled, burstSize := burstSize }
      .ok (if 0 < jitterUniform then .burstingJittered { rateLimiter := burst } else .bursting burst)

/-! ## Runs -/

/-- One call, with the clock readings and the jitter during it. -/
inductive Call where
  | tryAcquireOne (gaps : List ℕ) (delay : ℕ)
  | releaseOne (gaps : List ℕ)
  deriving DecidableEq, Repr

/-- A stack and its caller. `polledAt` has the times at which the polls ended, `acquiredAt` those at
which an acquisition was granted, and `released` the number of those that were handed back. -/
structure Session where
  stack : Stack
  time : ℤ
  maxDelay : ℕ
  mayRelease : Bool := false
  polledAt : List ℤ := []
  acquiredAt : List ℤ := []
  released : ℕ := 0
  violations : List Violation := []

/-- The caller only calls `releaseOne` right after a successful `tryAcquireOne`, and makes no call
after a fatal violation. -/
def Session.step (s : Session) : Call → Option Session
  | .tryAcquireOne gaps delay =>
    if delay ≤ s.maxDelay ∧ ∀ v ∈ s.violations, v.fatal = false then
      let (r, stack, e) := s.stack.tryAcquireOne ⟨s.time, gaps, delay⟩
      some { s with
        stack := stack, time := e.time, mayRelease := r, polledAt := s.polledAt ++ [e.time]
        acquiredAt := if r then s.acquiredAt ++ [e.time] else s.acquiredAt }
    else none
  | .releaseOne gaps =>
    if s.mayRelease = true ∧ ∀ v ∈ s.violations, v.fatal = false then
      let r := s.stack.releaseOne ⟨s.time, gaps, 0⟩
      some { s with
        stack := r.limiter, time := r.env.time, mayRelease := false, released := s.released + 1
        violations := s.violations ++ r.violations }
    else none

/-- The end of the first poll that was over at or after `start`. A poll that ends before the
scheduled starting time is not passed on to the linear limiter. -/
def Session.firstPoll (s : Session) (start : ℤ) : Option ℤ := s.polledAt.find? (start ≤ ·)

end Nighthawk.RateLimiter
