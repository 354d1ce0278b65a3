import Mathlib.Data.Int.Notation
import Mathlib.Data.List.Basic

/-!
# The sequencer

`SequencerImpl` as a machine driven by its two timers and by the completion callbacks of its
target. The answers of the rate limiter, the target and the termination predicates come with the
events. `trace` records the calls in between, and `faults` the statements that went wrong.
-/

namespace Nighthawk.Sequencer

inductive IdleStrategy where
  | poll
  | spin
  | sleep
  deriving DecidableEq, Repr

/-- `TerminationPredicate::Status`. -/
inductive Status where
  | proceed
  | terminate
  | fail
  deriving DecidableEq, Repr

/-- `evaluateChain` of a predicate, from what it and the children linked below it evaluate to. -/
def evaluateChain : List Status → Status
  | [] => .proceed
  | own :: children =>
    let status := evaluateChain children
    if status = .proceed then own else status

inductive Interaction where
  | acquired
  | limiterRefused
  | accepted (id : ℕ)
  | refused (id : ℕ)
  | released
  | completed (id : ℕ)
  | evaluated (status : Status)
  | stopped (failed : Bool)
  deriving DecidableEq, Repr

inductive Fault where
  | assertion (condition : String)
  | nullTimer
  deriving DecidableEq, Repr

/-- A callback that the target may still invoke, with the time it captured. -/
structure Callback where
  id : ℕ
  now : ℤ
  deriving DecidableEq, Repr

/-- A timer is `none` once it is destroyed, else it tells whether it is armed. -/
structure SequencerImpl where
  idleStrategy : IdleStrategy
  started : Bool := false
  running : Bool := false
  blocked : Bool := false
  blockedStart : ℤ := 0
  periodicTimer : Option Bool := some false
  spinTimer : Option Bool := some false
  targetsInitiated : ℕ := 0
  targetsCompleted : ℕ := 0
  lastTerminationStatus : Status := .proceed
  failedTerminations : ℕ := 0
  latencyStatistic : List ℤ := []
  blockedStatistic : List ℤ := []
  monotonicTime : ℤ := 0
  dispatcherExited : Bool := false
  calls : ℕ := 0
  outstanding : List Callback := []
  trace : List Interaction := []
  faults : List Fault := []
  deriving DecidableEq, Repr

namespace SequencerImpl

def log (s : SequencerImpl) (i : Interaction) : SequencerImpl := { s with trace := s.trace ++ [i] }

def assert (s : SequencerImpl) (condition : Bool) (text : String) : SequencerImpl :=
  if condition then s else { s with faults := s.faults ++ [.assertion text] }

def scheduleRun (s : SequencerImpl) : SequencerImpl :=
  match s.periodicTimer with
  | none => { s with faults := s.faults ++ [.nullTimer] }
  | some _ => { s with periodicTimer := some true }

def scheduleSpin (s : SequencerImpl) : SequencerImpl :=
  match s.spinTimer with
  | none => { s with faults := s.faults ++ [.nullTimer] }
  | some _ => { s with spinTimer := some true }

def unblockAndUpdateStatisticIfNeeded (s : SequencerImpl) (now : ℤ) : SequencerImpl :=
  if s.blocked then
    { s with blocked := false, blockedStatistic := s.blockedStatistic ++ [now - s.blockedStart] }
  else s

def updateStartBlockingTimeIfNeeded (s : SequencerImpl) : SequencerImpl :=
  if s.blocked then s else { s with blocked := true, blockedStart := s.monotonicTime }

def stop (s : SequencerImpl) (failed : Bool) : SequencerImpl :=
  let s := s.assert s.running "running_"
  let s := if failed then { s with failedTerminations := s.failedTerminations + 1 } else s
  -- Disabling a timer dereferences it before it is reset.
  let s := if s.periodicTimer = none ∨ s.spinTimer = none then
    { s with faults := s.faults ++ [.nullTimer] } else s
  let s := { s with running := false, periodicTimer := none, spinTimer := none, dispatcherExited := true }
  (s.unblockAndUpdateStatisticIfNeeded s.monotonicTime).log (.stopped failed)

/-- The completion callback with this id at time `time`, or `none` when the target has no such
callback to invoke. -/
def complete (s : SequencerImpl) (id : ℕ) (time : ℤ) : Option SequencerImpl :=
  match s.outstanding.find? (·.id = id) with
  | none => none
  | some callback =>
    let s := { s.log (.completed id) with
      outstanding := s.outstanding.filter (·.id ≠ id)
      monotonicTime := time
      latencyStatistic := s.latencyStatistic ++ [time - callback.now]
      targetsCompleted := s.targetsCompleted + 1 }
    some (if s.running then s.scheduleSpin else s)

def completeAll (s : SequencerImpl) : List (ℕ × ℤ) → Option SequencerImpl
  | [] => some s
  | (id, time) :: rest => (s.complete id time).bind fun s => completeAll s rest

/-- One target call: the callbacks it invokes before it returns, and its answer. -/
structure Attempt where
  completions : List (ℕ × ℤ)
  accepts : Bool
  deriving DecidableEq, Repr

/-- The target is handed a new callback. -/
def call (s : SequencerImpl) (now : ℤ) : SequencerImpl :=
  { s.log .acquired with calls := s.calls + 1, outstanding := s.outstanding ++ [⟨s.calls, now⟩] }

/-- One round of the loop, after a successful `tryAcquireOne`. A refused call must not have used
its callback, and drops it. -/
def attempt (s : SequencerImpl) (now : ℤ) (a : Attempt) : Option SequencerImpl :=
  let id := s.calls
  ((s.call now).completeAll a.completions).bind fun s =>
    if a.accepts then
      let s := (s.log (.accepted id)).unblockAndUpdateStatisticIfNeeded now
      some { s with targetsInitiated := s.targetsInitiated + 1 }
    else if s.outstanding.any (·.id = id) then
      let s := { s.log (.refused id) with outstanding := s.outstanding.filter (·.id ≠ id) }
      some (s.updateStartBlockingTimeIfNeeded.log .released)
    else none

/-- The loop, with the attempts it makes before the rate limiter or the target refuses. -/
def loop (s : SequencerImpl) (now : ℤ) : List Attempt → Option SequencerImpl
  | [] => some (s.log .limiterRefused)
  | a :: rest =>
    (s.attempt now a).bind fun s =>
      if a.accepts then loop s now rest else if rest = [] then some s else none

/-- The answers that one `run` gets. -/
structure Script where
  now : ℤ
  predicates : List Status
  attempts : List Attempt
  deriving DecidableEq, Repr

/-- Which timers `run` arms before it returns. -/
def reschedule (s : SequencerImpl) (fromPeriodicTimer : Bool) : SequencerImpl :=
  if fromPeriodicTimer then s.scheduleRun
  else if s.idleStrategy = .spin ∧ s.targetsInitiated = s.targetsCompleted then s.scheduleSpin
  else if s.idleStrategy = .sleep then s.scheduleSpin
  else s

/-- The termination status at the start of a `run`. -/
def evaluate (s : SequencerImpl) (predicates : List Status) : SequencerImpl :=
  if s.lastTerminationStatus = .proceed then
    let status := evaluateChain predicates
    { s.log (.evaluated status) with lastTerminationStatus := status }
  else s

def run (s : SequencerImpl) (fromPeriodicTimer : Bool) (r : Script) : Option SequencerImpl :=
  let s := s.assert s.running "running_"
  let s := ({ s with monotonicTime := r.now }).evaluate r.predicates
  if s.lastTerminationStatus ≠ .proceed then some (s.stop (s.lastTerminationStatus = .fail))
  else (s.loop r.now r.attempts).map (·.reschedule fromPeriodicTimer)

def start (s : SequencerImpl) (r : Script) : Option SequencerImpl :=
  let s := s.assert (!s.running) "!running_"
  ({ s with started := true, running := true }).scheduleRun.run false r

end SequencerImpl

/-! ## Events -/

open SequencerImpl in
inductive Event where
  | start (r : Script)
  | periodicTimer (r : Script)
  | spinTimer (r : Script)
  | completion (id : ℕ) (time : ℤ)
  deriving DecidableEq, Repr

/-- A sequencer is started once. A timer fires when it is armed, and is disarmed by that. -/
def step (s : SequencerImpl) : Event → Option SequencerImpl
  | .start r => if s.started then none else s.start r
  | .periodicTimer r =>
    if s.periodicTimer = some true then ({ s with periodicTimer := some false }).run true r else none
  | .spinTimer r => if s.spinTimer = some true then ({ s with spinTimer := some false }).run false r else none
  | .completion id time => s.complete id time

end Nighthawk.Sequencer
