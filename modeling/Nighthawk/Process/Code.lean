import Mathlib.Data.List.Basic

/-!
# The process and its threads

`ProcessImpl` runs its workers in threads of their own and a child process next to them. Its main
thread calls `run` and then `shutdown`. Other threads may call `requestExecutionCancellation` at any
time. A step is one action of one thread, so a run is any interleaving of the threads. An exception
that leaves `run` comes on top of that: what called `run` then destroys the process without `shutdown`.
-/

namespace Nighthawk.Process

/-- What ends the process. -/
inductive Abort where
  | workerStarted
  | promiseSatisfied
  | futureRetrieved
  | workerNotShutDown
  | threadJoinable
  | processNotShutDown
  /-- The trace is not for zipkin. -/
  | tracingScheme
deriving DecidableEq, Repr

/-! ## A worker and its thread -/

/-- Where the function is that `start` gives to the thread. -/
inductive ThreadPc where
  /-- Before `dispatcher_->run(NonBlock)`. -/
  | entering
  | working
  | completing
  | waiting
  /-- In `shutdownThread`. -/
  | leaving
  | done
deriving DecidableEq, Repr

/-- `thread` is `none` until the thread is there. `posted` and `gracefulStopRequested` count the
closures of `requestExecutionCancellation` that wait and those that have run. `exiting` is a
`dispatcher_->exit()` that the event loop has not seen. -/
structure WorkerImpl where
  started : Bool := false
  thread : Option ThreadPc := none
  joined : Bool := false
  complete : Bool := false
  retrieved : Bool := false
  signalThreadToExit : Bool := false
  exitSignaled : Bool := false
  shutDown : Bool := true
  exiting : Bool := false
  posted : ℕ := 0
  gracefulStopRequested : ℕ := 0
deriving DecidableEq, Repr

namespace WorkerImpl

def start (w : WorkerImpl) : Except Abort WorkerImpl :=
  if w.started then .error .workerStarted
  else .ok { w with started := true, shutDown := false, thread := some .entering }

def initiateShutdown (w : WorkerImpl) : Except Abort WorkerImpl :=
  if w.exitSignaled then .ok { w with shutDown := true }
  else if w.signalThreadToExit then .error .promiseSatisfied
  else .ok { w with shutDown := true, exitSignaled := true, signalThreadToExit := true }

def joinable (w : WorkerImpl) : Bool := w.thread.isSome && !w.joined

/-- `none` while the join waits. -/
def join (w : WorkerImpl) : Option WorkerImpl :=
  if w.joinable then if w.thread = some .done then some { w with joined := true } else none else some w

def shutdown (w : WorkerImpl) : Option (Except Abort WorkerImpl) :=
  match w.initiateShutdown with
  | .error a => some (.error a)
  | .ok w => w.join.map .ok

/-- `none` while the future is not ready. -/
def waitForCompletion (w : WorkerImpl) : Option (Except Abort WorkerImpl) :=
  if w.retrieved then some (.error .futureRetrieved)
  else if w.complete then some (.ok { w with retrieved := true })
  else none

/-- The destructor, and that of its `std::thread`. -/
def destroy (w : WorkerImpl) : Option Abort :=
  if !w.shutDown then some .workerNotShutDown else if w.joinable then some .threadJoinable else none

/-- The next action of the thread. The first run of the dispatcher handles all that was posted, and
an exit as well. -/
def threadStep (w : WorkerImpl) (workReturns : Bool) : Option (Except Abort WorkerImpl) :=
  match w.thread with
  | none => none
  | some .entering =>
    some (.ok { w with
      thread := some .working
      gracefulStopRequested := w.gracefulStopRequested + w.posted
      posted := 0
      exiting := false })
  | some .working => if workReturns then some (.ok { w with thread := some .completing }) else none
  | some .completing =>
    some (if w.complete then
      .error .promiseSatisfied else .ok { w with thread := some .waiting, complete := true })
  | some .waiting => if w.signalThreadToExit then some (.ok { w with thread := some .leaving }) else none
  | some .leaving => some (.ok { w with thread := some .done })
  | some .done => none

def requestExecutionCancellation (w : WorkerImpl) : WorkerImpl := { w with posted := w.posted + 1 }

/-- The dispatcher runs in `work`, and while `shutdownThread` drains the pool. -/
def runPosted (w : WorkerImpl) : Option WorkerImpl :=
  if 0 < w.posted ∧ (w.thread = some .working ∨ w.thread = some .leaving) then
    some { w with posted := w.posted - 1, gracefulStopRequested := w.gracefulStopRequested + 1 }
  else none

end WorkerImpl

/-! ## The child process -/

/-- `pid_` is a process from the fork until the child is reaped. -/
inductive Child where
  | absent
  | starting
  | serving
  | exited
  | reaped
deriving DecidableEq, Repr

/-- What `TerminateEncapSubProcess` finds when there is a child. -/
inductive Reaping where
  | killFailed
  | crashed
  | clean
deriving DecidableEq, Repr

/-- The child afterwards, and whether the status is ok. -/
def Child.terminate (child : Child) (reaping : Reaping) : Child × Bool :=
  match child with
  | .absent => (.absent, true)
  | .reaped => (.reaped, true)
  | child =>
    match reaping with
    | .killFailed => (child, false)
    | .crashed => (.reaped, false)
    | .clean => (.reaped, true)

/-! ## The process -/

/-- `numberOfWorkers` is `number_of_workers_`. -/
structure Config where
  numberOfWorkers : ℕ
  statsSinks : Bool

/-- Where the main thread is in `run`, `shutdown` and the destructor. -/
inductive MainPc where
  | starting
  | forking
  /-- In `sem_wait`. -/
  | awaiting
  | locking
  | checking
  | creating
  | configuring
  | startingFlush
  | startingWorkers (i : ℕ)
  | waiting (i : ℕ)
  | exitingFlush
  | waitingFlush
  | reporting
  | returned (result : Bool)
  | terminating
  | lockingShutdown
  | stoppingFlush
  | joiningFlush
  | signalling (i : ℕ)
  | joining (i : ℕ)
  | clearing
  | finishing
  | stopped
  | destroyed
deriving DecidableEq, Repr

/-- Where a call of `requestExecutionCancellation` is. -/
inductive CancelPc where
  | locking
  | posting (i : ℕ)
  | terminating
  | setting
  | done (result : Bool)
deriving DecidableEq, Repr

inductive Holder where
  | main
  | canceller (k : ℕ)
deriving DecidableEq, Repr

structure ProcessImpl where
  main : MainPc := .starting
  workersLock : Option Holder := none
  workers : List WorkerImpl := []
  flushWorker : Option WorkerImpl := none
  encapRunner : Bool := false
  child : Child := .absent
  semaphore : ℕ := 0
  cancelled : Bool := false
  shutDown : Bool := true
  cancellers : List CancelPc := []
  aborted : Option Abort := none
deriving DecidableEq, Repr

namespace ProcessImpl

/-- Worker `i` becomes what the call made of it. -/
def setWorker (s : ProcessImpl) (i : ℕ) : Except Abort WorkerImpl → ProcessImpl
  | .error a => { s with aborted := some a }
  | .ok w => { s with workers := s.workers.set i w }

def setFlush (s : ProcessImpl) : Except Abort WorkerImpl → ProcessImpl
  | .error a => { s with aborted := some a }
  | .ok w => { s with flushWorker := some w }

/-- `nighthawk_fn` gives up, and `result` is false. -/
def giveUp (s : ProcessImpl) : ProcessImpl := { s with workersLock := none, main := .returned false }

/-- The destructor, and those of the members. -/
def destruct (s : ProcessImpl) (reaping : Reaping) : ProcessImpl :=
  if !s.shutDown then { s with aborted := some .processNotShutDown }
  else
    match (s.flushWorker.toList ++ s.workers).findSome? WorkerImpl.destroy with
    | some a => { s with aborted := some a }
    | none =>
      -- The destructor of the runner calls `TerminateEncapSubProcess` once more.
      { s with
        workers := []
        flushWorker := none
        child := if s.encapRunner then (s.child.terminate reaping).1 else s.child
        main := .destroyed }

/-- The next action of the main thread. `ok` is the outcome of what may fail. -/
def mainStep (c : Config) (s : ProcessImpl) (ok : Bool) (reaping : Reaping) : Option ProcessImpl :=
  match s.main with
  | .starting =>
    some (if ok then { s with encapRunner := true, main := .forking } else { s with main := .returned false })
  | .forking => some (if ok then
      { s with child := .starting, main := .awaiting } else { s with main := .returned false })
  | .awaiting => if 0 < s.semaphore then
      some { s with semaphore := s.semaphore - 1, main := .locking } else none
  | .locking => if s.workersLock = none then
      some { s with workersLock := some .main, main := .checking } else none
  | .checking =>
    some (
      if s.cancelled then { s with workersLock := none, main := .waiting 0 }
      else
        let s := { s with shutDown := false }
        -- Only `createTagProducer` fails here.
        if c.statsSinks && !ok then s.giveUp else { s with main := .creating })
  | .creating =>
    some (
      if s.workers.length < c.numberOfWorkers then if ok then
        { s with workers := s.workers ++ [{}] } else s.giveUp
      else { s with main := .configuring })
  | .configuring =>
    some (
      if !ok then s.giveUp
      else if c.statsSinks then { s with main := .startingFlush }
      else { s with main := .startingWorkers 0 })
  | .startingFlush => some { s.setFlush ({} : WorkerImpl).start with main := .startingWorkers 0 }
  | .startingWorkers i =>
    some (
      match s.workers[i]? with
      | some w => { s.setWorker i w.start with main := .startingWorkers (i + 1) }
      | none => { s with workersLock := none, main := .waiting 0 })
  | .waiting i =>
    match s.workers[i]? with
    | some w => w.waitForCompletion.map fun r => { s.setWorker i r with main := .waiting (i + 1) }
    | none => some { s with main := if c.statsSinks && s.flushWorker.isSome then
        .exitingFlush else .reporting }
  | .exitingFlush =>
    s.flushWorker.map fun f =>
      { s with flushWorker := some { f with exiting := true }, main := .waitingFlush }
  | .waitingFlush =>
    s.flushWorker.bind fun f => f.waitForCompletion.map fun r => { s.setFlush r with main := .reporting }
  | .reporting => some { s with main := .returned ok }
  | .returned _ => some { s with main := .terminating }
  | .terminating =>
    some { s with
      child := if s.encapRunner then (s.child.terminate reaping).1 else s.child
      main := .lockingShutdown }
  | .lockingShutdown =>
    if s.workersLock = none then some { s with workersLock := some .main, main := .stoppingFlush } else none
  | .stoppingFlush =>
    some (
      match s.flushWorker with
      | some f => { s.setFlush f.initiateShutdown with main := .joiningFlush }
      | none => { s with main := .signalling 0 })
  | .joiningFlush => s.flushWorker.bind fun f => f.join.map fun f =>
      { s with flushWorker := some f, main := .signalling 0 }
  | .signalling i =>
    some (
      match s.workers[i]? with
      | some w => { s.setWorker i w.initiateShutdown with main := .signalling (i + 1) }
      | none => { s with main := .joining 0 })
  | .joining i =>
    match s.workers[i]? with
    | some w => w.shutdown.map fun r => { s.setWorker i r with main := .joining (i + 1) }
    | none => some { s with main := .clearing }
  | .clearing =>
    some (
      match s.workers.findSome? WorkerImpl.destroy with
      | some a => { s with aborted := some a }
      | none => { s with workers := [], workersLock := none, main := .finishing })
  | .finishing => some { s with shutDown := true, main := .stopped }
  | .stopped =>
    -- The destructor of the signal handler has waited for the callback.
    if ∀ pc ∈ s.cancellers, ∃ result, pc = .done result then some (s.destruct reaping) else none
  | .destroyed => none

/-- The next action of a call of `requestExecutionCancellation`. -/
def cancelStep (s : ProcessImpl) (k : ℕ) (reaping : Reaping) : Option ProcessImpl :=
  match s.cancellers[k]? with
  | none => none
  | some .locking =>
    if s.workersLock = none then
      some { s with workersLock := some (.canceller k), cancellers := s.cancellers.set k (.posting 0) }
    else none
  | some (.posting i) =>
    some (
      match s.workers[i]? with
      | some w =>
        { s with
          workers := s.workers.set i w.requestExecutionCancellation
          cancellers := s.cancellers.set k (.posting (i + 1)) }
      | none => { s with cancellers := s.cancellers.set k (if s.encapRunner then
          .terminating else .setting) })
  | some .terminating =>
    let r := s.child.terminate reaping
    some (
      if r.2 then { s with child := r.1, cancellers := s.cancellers.set k .setting }
      else { s with child := r.1, workersLock := none, cancellers := s.cancellers.set k (.done false) })
  | some .setting =>
    some { s with cancelled := true, workersLock := none, cancellers := s.cancellers.set k (.done true) }
  | some (.done _) => none

end ProcessImpl

inductive Event where
  | main (ok : Bool) (reaping : Reaping)
  /-- A thread calls `requestExecutionCancellation`. -/
  | cancel
  | canceller (k : ℕ) (reaping : Reaping)
  /-- The thread of worker `i`. -/
  | worker (i : ℕ)
  /-- The dispatcher of worker `i` runs a posted closure. -/
  | runPosted (i : ℕ)
  | flush
  | childPosts
  | childExits
deriving DecidableEq, Repr

open ProcessImpl in
/-- A step is `none` when it cannot happen. -/
def step (c : Config) (s : ProcessImpl) (e : Event) : Option ProcessImpl :=
  if s.aborted.isSome then none
  else
    match e with
    | .main ok reaping => s.mainStep c ok reaping
    | .cancel => if s.main = .destroyed then
        none else some { s with cancellers := s.cancellers ++ [.locking] }
    | .canceller k reaping => s.cancelStep k reaping
    | .worker i => s.workers[i]?.bind fun w => (w.threadStep true).map (s.setWorker i)
    | .runPosted i => s.workers[i]?.bind fun w => w.runPosted.map fun w =>
        { s with workers := s.workers.set i w }
    | .flush => s.flushWorker.bind fun f => (f.threadStep f.exiting).map s.setFlush
    | .childPosts =>
      if s.child = .starting then some { s with child := .serving, semaphore := s.semaphore + 1 } else none
    | .childExits => if s.child = .starting ∨
        s.child = .serving then some { s with child := .exited } else none

/-! ## An exception -/

/-- The main thread is in `run`. -/
def MainPc.inRun : MainPc → Bool
  | .starting | .forking | .awaiting | .locking | .checking | .creating | .configuring | .startingFlush =>
      true
  | .startingWorkers _ | .waiting _ | .exitingFlush | .waitingFlush | .reporting => true
  | _ => false

/-- The caller of `run`, which owns the process. It is `unwinding` once `run` has thrown. -/
structure Caller where
  process : ProcessImpl := {}
  unwinding : Bool := false
deriving DecidableEq, Repr

inductive Action where
  | event (e : Event)
  /-- An exception leaves `run`. -/
  | throws
  /-- The process goes while the stack unwinds. -/
  | destruct (reaping : Reaping)
  /-- The assert in `setupTracingImplementation` fails. -/
  | assertScheme
deriving DecidableEq, Repr

def Event.isMain : Event → Bool
  | .main _ _ => true
  | _ => false

def act (c : Config) (s : Caller) (a : Action) : Option Caller :=
  match a with
  | .event e =>
    if s.unwinding && e.isMain then none else (step c s.process e).map fun process => { s with process }
  | .throws =>
    if s.unwinding = false ∧ s.process.aborted = none ∧ s.process.main.inRun = true then
      -- The guard in `nighthawk_fn` lets go of the lock.
      let workersLock := if s.process.workersLock = some .main then none else s.process.workersLock
      some { process := { s.process with workersLock }, unwinding := true }
    else none
  | .destruct reaping =>
    if s.unwinding = true ∧ s.process.aborted = none ∧ s.process.main ≠ .destroyed ∧
        ∀ pc ∈ s.process.cancellers, ∃ result, pc = .done result then
      some { s with process := s.process.destruct reaping }
    else none
  | .assertScheme =>
    if s.unwinding = false ∧ s.process.aborted = none ∧ s.process.main = .configuring then
      some { s with process := { s.process with aborted := some .tracingScheme } }
    else none

end Nighthawk.Process
