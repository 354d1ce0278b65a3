import Mathlib.Logic.Function.Basic
import Mathlib.Tactic.SplitIfs

/-!
# The gRPC service

Every open `ExecutionStream` call runs on a thread of its own, and so does every
`handleExecutionRequest` that such a call launches. All of them share one `ServiceImpl`. A
step is one operation of one thread on the shared members: a lock, the condition variable,
the future, the stream pointer or a stream.
-/

namespace Nighthawk.Service

abbrev CallId := Nat

abbrev HandlerId := Nat

inductive Thread where
  | call (c : CallId)
  | handler (h : HandlerId)
  deriving DecidableEq, Repr

/-- The command of a request. The options of a start request only decide its `Outcome`. -/
inductive ExecutionRequest where
  | startRequest
  | updateRequest
  | cancellationRequest
  | noCommand
  deriving DecidableEq, Repr

/-- `errorDetail` is the message of an `INTERNAL` error. -/
structure ExecutionResponse where
  errorDetail : Option String
  hasOutput : Bool
  deriving DecidableEq, Repr

/-- How a benchmark ends: the options throw, the process cannot be created, or it runs. -/
inductive Outcome where
  | malformed (what : String)
  | notCreated (status : String)
  | ran (ok : Bool)
  deriving DecidableEq, Repr

def unknownFailure : String :=
  "Unknown failure. See Nighthawk Service logs. Make sure the URI is well formed and the DNS " ++
  "name resolves (if applicable). Check the output for problematic counter values. The " ++
  "default Nighthawk failure predicates report failure if (1) Nighthawk could not connect to " ++
  "the target (see 'benchmark.pool_connection_failure' counter; check the address and port " ++
  "number, and try explicitly setting --address-family v4 or v6, especially when using DNS; " ++
  "instead of localhost try 127.0.0.1 or ::1 explicitly), (2) the protocol was not supported " ++
  "by the target (see 'benchmark.stream_resets' counter; check http/https in the URI, --h2), " ++
  "(3) the target returned a 4xx or 5xx HTTP response code (see 'benchmark.http_4xx' and " ++
  "'benchmark.http_5xx' counters; check the URI path and the server config), or (4) a custom " ++
  "gRPC RequestSource failed. To relax expectations, set explicit failure predicates in the " ++
  "benchmark request."

def Outcome.response : Outcome → ExecutionResponse
  | .malformed what => ⟨some what, false⟩
  | .notCreated status => ⟨some ("Unable to create ProcessImpl: " ++ status), false⟩
  | .ran ok => ⟨if ok then none else some unknownFailure, true⟩

def busyDescription : String := "Only a single benchmark session is allowed at a time."

def notSupportedDescription : String := "Request is not supported yet."

/-! ## Where the threads stand -/

/-- Where an `ExecutionStream` call stands. -/
inductive CallPc where
  | idle
  -- At `stream->Read`.
  | reading
  -- Read a start request, at `busy_lock_.tryLock()`.
  | checking
  -- Holds `busy_lock_`, at `busy_lock_.unlock()`.
  | unlocking
  -- At the guard of `accepted_lock_`.
  | accepting
  -- Holds `accepted_lock_`, at `std::async`.
  | launching
  -- Launched a handler, at the assignment to `future_`.
  | assigning (h : HandlerId)
  -- At `accepted_event_.wait`.
  | entering
  -- In `accepted_event_.wait`, without the lock.
  | waiting
  -- Woken, and about to take `accepted_lock_` again.
  | waking
  -- Holds `accepted_lock_` at the end of its guard.
  | leaving
  -- In `finishGrpcStream`, at `future_.wait()`.
  | finishing (success : Bool) (description : String)
  -- At `stream_ = nullptr`.
  | clearing (success : Bool) (description : String)
  | done (success : Bool) (description : String)
  -- Reached `PANIC("not reached")`.
  | panicked
  deriving DecidableEq, Repr

/-- Where a `handleExecutionRequest` stands. `locked` tells whether it holds `busy_lock_`. -/
inductive HandlerPc where
  -- At the guard of `accepted_lock_`.
  | starting
  -- Holds `accepted_lock_`, at the guard of `busy_lock_`.
  | locking
  -- Holds both locks, at `accepted_event_.notifyOne()`.
  | notifying
  -- Holds both locks at the end of the guard of `accepted_lock_`.
  | accepted
  | running
  -- The process has shut down, at `busy_lock.reset()`.
  | releasing (r : ExecutionResponse)
  -- At `writeResponse`.
  | writing (r : ExecutionResponse) (locked : Bool)
  | returning (locked : Bool)
  | finished
  deriving DecidableEq, Repr

/-- `origin` is the call that read the start request. -/
structure Handler where
  origin : CallId
  pc : HandlerPc
  deriving DecidableEq, Repr

/-- One `stream_->Write(response)`: `target` is what `stream_` pointed to. -/
structure Write where
  handler : HandlerId
  origin : CallId
  target : Option CallId
  response : ExecutionResponse
  deriving DecidableEq, Repr

/-- `waiters` are the threads in `accepted_event_.wait`. `written` and `declined` record the
responses that were written and the calls that were told the service is busy. -/
structure ServiceImpl where
  stream : Option CallId := none
  future : Option HandlerId := none
  acceptedLock : Option Thread := none
  busyLock : Option Thread := none
  waiters : List CallId := []
  calls : CallId → CallPc := fun _ => .idle
  handlers : HandlerId → Option Handler := fun _ => none
  launched : Nat := 0
  written : List Write := []
  declined : List CallId := []

def ServiceImpl.setCall (s : ServiceImpl) (c : CallId) (pc : CallPc) : ServiceImpl :=
  { s with calls := Function.update s.calls c pc }

def ServiceImpl.setHandler (s : ServiceImpl) (h : HandlerId) (hd : Handler) : ServiceImpl :=
  { s with handlers := Function.update s.handlers h (some hd) }

/-- `future_.wait()` and the release of an assigned future's old state return. -/
def ServiceImpl.futureReady (s : ServiceImpl) : Bool :=
  match s.future with
  | none => true
  | some h => (s.handlers h).map Handler.pc = some .finished

/-! ## Steps -/

inductive CallStep where
  | openStream
  /-- What `stream->Read` yields, or `none` when it returns false. -/
  | read (request : Option ExecutionRequest)
  | tryLock
  | unlock
  | lockAccepted
  | launch
  | assign
  | wait
  /-- A wake-up without a notification. -/
  | wakeSpuriously
  | relockAccepted
  | unlockAccepted
  | futureWait
  | clearStream
  deriving DecidableEq, Repr

inductive HandlerStep where
  | lockAccepted
  | lockBusy
  /-- The waiting call that is woken, or `none` when no call waits. -/
  | notifyOne (woken : Option CallId)
  | unlockAccepted
  | finish (o : Outcome)
  | releaseBusy
  | writeResponse
  | return
  deriving DecidableEq, Repr

inductive Step where
  | call (c : CallId) (e : CallStep)
  | handler (h : HandlerId) (e : HandlerStep)
  deriving DecidableEq, Repr

/-- One step of `ExecutionStream`. -/
def callStep (s : ServiceImpl) (c : CallId) : CallPc → CallStep → Option ServiceImpl
  | .idle, .openStream => some { s.setCall c .reading with stream := some c }
  | .reading, .read (some .startRequest) => some (s.setCall c .checking)
  | .reading, .read (some .updateRequest) => some (s.setCall c (.finishing false notSupportedDescription))
  | .reading, .read (some .cancellationRequest) =>
      some (s.setCall c (.finishing false notSupportedDescription))
  | .reading, .read (some .noCommand) => some (s.setCall c .panicked)
  | .reading, .read none => some (s.setCall c (.finishing true ""))
  | .checking, .tryLock =>
    if s.busyLock = none then some { s.setCall c .unlocking with busyLock := some (.call c) }
    else some { s.setCall c (.finishing false busyDescription) with declined := s.declined ++ [c] }
  | .unlocking, .unlock => some { s.setCall c .accepting with busyLock := none }
  | .accepting, .lockAccepted =>
    if s.acceptedLock = none then
      some { s.setCall c .launching with acceptedLock := some (.call c) } else none
  | .launching, .launch =>
    some { (s.setCall c (.assigning s.launched)).setHandler s.launched ⟨c, .starting⟩ with
      launched := s.launched + 1 }
  | .assigning h, .assign => if s.futureReady then
      some { s.setCall c .entering with future := some h } else none
  | .entering, .wait => some { s.setCall c .waiting with acceptedLock := none, waiters := s.waiters ++ [c] }
  | .waiting, .wakeSpuriously => some { s.setCall c .waking with waiters := s.waiters.filter (· ≠ c) }
  | .waking, .relockAccepted =>
    if s.acceptedLock = none then some { s.setCall c .leaving with acceptedLock := some (.call c) } else none
  | .leaving, .unlockAccepted => some { s.setCall c .reading with acceptedLock := none }
  | .finishing success description, .futureWait =>
    if s.futureReady then some (s.setCall c (.clearing success description)) else none
  | .clearing success description, .clearStream =>
    some { s.setCall c (.done success description) with stream := none }
  | _, _ => none

/-- One step of `handleExecutionRequest`. -/
def handlerStep (s : ServiceImpl) (h : HandlerId) (origin : CallId) :
    HandlerPc → HandlerStep → Option ServiceImpl
  | .starting, .lockAccepted =>
    if s.acceptedLock = none then
      some { s.setHandler h ⟨origin, .locking⟩ with acceptedLock := some (.handler h) }
    else none
  | .locking, .lockBusy =>
    if s.busyLock = none then
      some { s.setHandler h ⟨origin, .notifying⟩ with busyLock := some (.handler h) } else none
  | .notifying, .notifyOne none => if s.waiters = [] then some (s.setHandler h ⟨origin, .accepted⟩) else none
  | .notifying, .notifyOne (some c) =>
    if c ∈ s.waiters then
      some { (s.setHandler h ⟨origin, .accepted⟩).setCall c .waking with waiters := s.waiters.filter (· ≠ c) }
    else none
  | .accepted, .unlockAccepted => some { s.setHandler h ⟨origin, .running⟩ with acceptedLock := none }
  | .running, .finish (.ran ok) => some (s.setHandler h ⟨origin, .releasing (Outcome.ran ok).response⟩)
  -- The two error exits write the response before the guard of `busy_lock_` ends.
  | .running, .finish o => some (s.setHandler h ⟨origin, .writing o.response true⟩)
  | .releasing r, .releaseBusy => some { s.setHandler h ⟨origin, .writing r false⟩ with busyLock := none }
  | .writing r locked, .writeResponse =>
    some { s.setHandler h ⟨origin, .returning locked⟩ with written := s.written ++
      [⟨h, origin, s.stream, r⟩] }
  | .returning true, .return => some { s.setHandler h ⟨origin, .finished⟩ with busyLock := none }
  | .returning false, .return => some (s.setHandler h ⟨origin, .finished⟩)
  | _, _ => none

def step (s : ServiceImpl) : Step → Option ServiceImpl
  | .call c e => callStep s c (s.calls c) e
  | .handler h e => (s.handlers h).bind fun hd => handlerStep s h hd.origin hd.pc e

/-! ## What a step can do -/

/-- The transitions of `step`, each with the guard it takes. -/
inductive Trans (s : ServiceImpl) : Step → ServiceImpl → Prop
  | openStream (c) (hc : s.calls c = .idle) :
    Trans s (.call c .openStream) { s.setCall c .reading with stream := some c }
  | readStart (c) (hc : s.calls c = .reading) :
    Trans s (.call c (.read (some .startRequest))) (s.setCall c .checking)
  /-- Every other message, and a failed read, ends the call or panics. -/
  | readOther (c r pc) (hc : s.calls c = .reading) (hr : r ≠ some .startRequest)
    (hpc : pc = .panicked ∨ ∃ ok, pc = .finishing ok (if ok then "" else notSupportedDescription)) :
    Trans s (.call c (.read r)) (s.setCall c pc)
  | tryLock (c) (hc : s.calls c = .checking) (hb : s.busyLock = none) :
    Trans s (.call c .tryLock) { s.setCall c .unlocking with busyLock := some (.call c) }
  | decline (c) (hc : s.calls c = .checking) (hb : s.busyLock ≠ none) :
    Trans s (.call c .tryLock)
      { s.setCall c (.finishing false busyDescription) with declined := s.declined ++ [c] }
  | unlock (c) (hc : s.calls c = .unlocking) :
    Trans s (.call c .unlock) { s.setCall c .accepting with busyLock := none }
  | lockAccepted (c) (hc : s.calls c = .accepting) (ha : s.acceptedLock = none) :
    Trans s (.call c .lockAccepted) { s.setCall c .launching with acceptedLock := some (.call c) }
  | launch (c) (hc : s.calls c = .launching) :
    Trans s (.call c .launch)
      { (s.setCall c (.assigning s.launched)).setHandler s.launched ⟨c, .starting⟩ with
        launched := s.launched + 1 }
  | assign (c h) (hc : s.calls c = .assigning h) (hf : s.futureReady = true) :
    Trans s (.call c .assign) { s.setCall c .entering with future := some h }
  | wait (c) (hc : s.calls c = .entering) :
    Trans s (.call c .wait) { s.setCall c .waiting with acceptedLock := none, waiters := s.waiters ++ [c] }
  | wakeSpuriously (c) (hc : s.calls c = .waiting) :
    Trans s (.call c .wakeSpuriously) { s.setCall c .waking with waiters := s.waiters.filter (· ≠ c) }
  | relockAccepted (c) (hc : s.calls c = .waking) (ha : s.acceptedLock = none) :
    Trans s (.call c .relockAccepted) { s.setCall c .leaving with acceptedLock := some (.call c) }
  | unlockAccepted (c) (hc : s.calls c = .leaving) :
    Trans s (.call c .unlockAccepted) { s.setCall c .reading with acceptedLock := none }
  | futureWait (c ok d) (hc : s.calls c = .finishing ok d) (hf : s.futureReady = true) :
    Trans s (.call c .futureWait) (s.setCall c (.clearing ok d))
  | clearStream (c ok d) (hc : s.calls c = .clearing ok d) :
    Trans s (.call c .clearStream) { s.setCall c (.done ok d) with stream := none }
  | hLockAccepted (h o) (hh : s.handlers h = some ⟨o, .starting⟩) (ha : s.acceptedLock = none) :
    Trans s (.handler h .lockAccepted) { s.setHandler h ⟨o, .locking⟩ with acceptedLock := some (.handler h) }
  | hLockBusy (h o) (hh : s.handlers h = some ⟨o, .locking⟩) (hb : s.busyLock = none) :
    Trans s (.handler h .lockBusy) { s.setHandler h ⟨o, .notifying⟩ with busyLock := some (.handler h) }
  | hNotifyNone (h o) (hh : s.handlers h = some ⟨o, .notifying⟩) (hw : s.waiters = []) :
    Trans s (.handler h (.notifyOne none)) (s.setHandler h ⟨o, .accepted⟩)
  | hNotify (h o c) (hh : s.handlers h = some ⟨o, .notifying⟩) (hw : c ∈ s.waiters) :
    Trans s (.handler h (.notifyOne (some c)))
      { (s.setHandler h ⟨o, .accepted⟩).setCall c .waking with waiters := s.waiters.filter (· ≠ c) }
  | hUnlockAccepted (h o) (hh : s.handlers h = some ⟨o, .accepted⟩) :
    Trans s (.handler h .unlockAccepted) { s.setHandler h ⟨o, .running⟩ with acceptedLock := none }
  | hRan (h o ok) (hh : s.handlers h = some ⟨o, .running⟩) :
    Trans s (.handler h (.finish (.ran ok))) (s.setHandler h ⟨o, .releasing (Outcome.ran ok).response⟩)
  | hFailed (h o out) (hh : s.handlers h = some ⟨o, .running⟩) (hout : ∀ ok, out ≠ .ran ok) :
    Trans s (.handler h (.finish out)) (s.setHandler h ⟨o, .writing out.response true⟩)
  | hReleaseBusy (h o r) (hh : s.handlers h = some ⟨o, .releasing r⟩) :
    Trans s (.handler h .releaseBusy) { s.setHandler h ⟨o, .writing r false⟩ with busyLock := none }
  | hWrite (h o r l) (hh : s.handlers h = some ⟨o, .writing r l⟩) :
    Trans s (.handler h .writeResponse)
      { s.setHandler h ⟨o, .returning l⟩ with written := s.written ++ [⟨h, o, s.stream, r⟩] }
  | hReturn (h o l) (hh : s.handlers h = some ⟨o, .returning l⟩) :
    Trans s (.handler h .return)
      { s.setHandler h ⟨o, .finished⟩ with busyLock := if l then none else s.busyLock }

theorem callStep_trans {s t : ServiceImpl} {c : CallId} {e : CallStep}
    (h : callStep s c (s.calls c) e = some t) : Trans s (.call c e) t := by
  generalize hc : s.calls c = pc at h
  unfold callStep at h
  split at h
  all_goals try split_ifs at h
  all_goals simp only [Option.some.injEq, reduceCtorEq] at h
  all_goals subst h
  all_goals first
    | (constructor <;> assumption)
    | exact .readOther c _ _ hc (by simp) (.inl rfl)
    | exact .readOther c _ _ hc (by simp) (.inr ⟨false, rfl⟩)
    | exact .readOther c _ _ hc (by simp) (.inr ⟨true, rfl⟩)

theorem handlerStep_trans {s t : ServiceImpl} {h : HandlerId} {o : CallId} {pc : HandlerPc} {e : HandlerStep}
    (hh : s.handlers h = some ⟨o, pc⟩) (ht : handlerStep s h o pc e = some t) : Trans s (.handler h e) t := by
  unfold handlerStep at ht
  split at ht
  all_goals try split_ifs at ht
  all_goals simp only [Option.some.injEq, reduceCtorEq] at ht
  all_goals subst ht
  all_goals first
    | (constructor <;> assumption)
    | exact .hReturn h o true hh
    | exact .hReturn h o false hh

theorem step_trans {s t : ServiceImpl} {a : Step} (h : step s a = some t) : Trans s a t := by
  cases a with
  | call c e => exact callStep_trans h
  | handler i e =>
    obtain ⟨hd, hh, ht⟩ := Option.bind_eq_some_iff.mp h
    exact handlerStep_trans hh ht

end Nighthawk.Service
