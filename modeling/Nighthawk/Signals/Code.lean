import Mathlib.Logic.Function.Basic
import Mathlib.Tactic.SplitIfs

/-!
# The signal handler

`SignalHandler` from the moment its pipe is open. The thread that owns it, its shutdown thread and
every invocation of `signal_handler` take their steps in any order. The callback is assumed to return.
The capacity of the pipe is left out.
-/

namespace Nighthawk.Signals

inductive Signal where
  | sigterm
  | sigint
  deriving DecidableEq, Repr

/-- What a signal runs: `signal_handler`, or what was there before. -/
inductive Disposition where
  | ours
  | previous
  deriving DecidableEq, Repr

/-- Where the constructor and the destructor stand. -/
inductive OwnerPc where
  -- The pipe is open, at the assignment of `signal_handler_delegate`.
  | delegating
  | installing (s : Signal)
  -- At the assignment of `shutdown_thread_`.
  | spawning
  | constructed
  -- `destructing_` is set.
  | restoring (s : Signal)
  -- In `initiateShutdown`, at the size of `pipe_fds_`, and then at the write.
  | checking
  | writing
  | joining
  | clearing
  | destroyed
  deriving DecidableEq, Repr

/-- Where the shutdown thread stands. -/
inductive ThreadPc where
  | unborn
  | reading
  | closingRead
  | closingWrite
  -- At `pipe_fds_.clear()`.
  | clearing
  -- At the check of `destructing_`.
  | deciding
  | restoring (s : Signal)
  | calling
  | inCallback
  | done
  deriving DecidableEq, Repr

/-- Where an invocation of `signal_handler` stands. -/
inductive InvocationPc where
  -- At the check of `signal_handler_delegate`, and then at the call of it.
  | entered
  | calling
  -- In `initiateShutdown`, past the size of `pipe_fds_`.
  | writing
  | returned
  deriving DecidableEq, Repr

/-- What ends the process: a failed release assertion, or a call of an empty function. -/
inductive Fault where
  | closeFailed
  | writeFailed
  | emptyFunction
  deriving DecidableEq, Repr

/-- `pipeFds` is the size of `pipe_fds_`. `passes` counts the calls of `initiateShutdown` that saw
two descriptors there, and `escalations` the signals that ran what was there before. -/
structure SignalHandler where
  owner : OwnerPc := .delegating
  thread : ThreadPc := .unborn
  invocations : List InvocationPc := []
  disposition : Signal → Disposition := fun _ => .previous
  delegate : Bool := false
  destructing : Bool := false
  pipeFds : Nat := 2
  readOpen : Bool := true
  writeOpen : Bool := true
  unread : Nat := 0
  passes : Nat := 0
  callbacks : Nat := 0
  escalations : Nat := 0
  aborted : Option Fault := none

namespace SignalHandler

def setDisposition (s : SignalHandler) (sig : Signal) (d : Disposition) : SignalHandler :=
  { s with disposition := Function.update s.disposition sig d }

def abort (s : SignalHandler) (f : Fault) : SignalHandler := { s with aborted := some f }

def pipeOpen (s : SignalHandler) : Bool := s.pipeFds = 2 && s.readOpen && s.writeOpen

/-- The write of `initiateShutdown`. It fails on a descriptor that was closed. -/
def write (s : SignalHandler) : SignalHandler :=
  if s.pipeOpen then { s with unread := s.unread + 1 } else s.abort .writeFailed

/-- One step of the constructor or the destructor. The destructor starts when it likes. -/
def ownerStep (s : SignalHandler) : Option SignalHandler :=
  match s.owner with
  | .delegating => some { s with owner := .installing .sigterm, delegate := true }
  | .installing .sigterm => some { s.setDisposition .sigterm .ours with owner := .installing .sigint }
  | .installing .sigint => some { s.setDisposition .sigint .ours with owner := .spawning }
  | .spawning => some { s with owner := .constructed, thread := .reading }
  | .constructed => some { s with owner := .restoring .sigterm, destructing := true }
  | .restoring .sigterm => some { s.setDisposition .sigterm .previous with owner := .restoring .sigint }
  | .restoring .sigint => some { s.setDisposition .sigint .previous with owner := .checking }
  | .checking =>
    if s.pipeFds = 2 then some { s with owner := .writing, passes := s.passes + 1 }
    else some { s with owner := .joining }
  | .writing => some { s.write with owner := .joining }
  | .joining => if s.thread = .done then some { s with owner := .clearing } else none
  | .clearing => some { s with owner := .destroyed, delegate := false }
  | .destroyed => none

/-- One step of the shutdown thread. Its read waits for a byte. -/
def threadStep (s : SignalHandler) : Option SignalHandler :=
  match s.thread with
  | .unborn => none
  | .reading => if 0 < s.unread then some { s with thread := .closingRead, unread := s.unread - 1 } else none
  | .closingRead =>
    if s.readOpen then some { s with thread := .closingWrite, readOpen := false }
      else some (s.abort .closeFailed)
  | .closingWrite =>
    if s.writeOpen then some { s with thread := .clearing, writeOpen := false }
      else some (s.abort .closeFailed)
  | .clearing => some { s with thread := .deciding, pipeFds := 0 }
  | .deciding =>
    if s.destructing then some { s with thread := .done } else some { s with thread := .restoring .sigterm }
  | .restoring .sigterm => some { s.setDisposition .sigterm .previous with thread := .restoring .sigint }
  | .restoring .sigint => some { s.setDisposition .sigint .previous with thread := .calling }
  | .calling => some { s with thread := .inCallback, callbacks := s.callbacks + 1 }
  | .inCallback => some { s with thread := .done }
  | .done => none

def setInvocation (s : SignalHandler) (i : Nat) (pc : InvocationPc) : SignalHandler :=
  { s with invocations := s.invocations.set i pc }

/-- One step of an invocation of `signal_handler`. -/
def invocationStep (s : SignalHandler) (i : Nat) : Option SignalHandler :=
  match s.invocations[i]? with
  | some .entered =>
    if s.delegate then some (s.setInvocation i .calling) else some (s.setInvocation i .returned)
  | some .calling =>
    if s.delegate then
      if s.pipeFds = 2 then some { s.setInvocation i .writing with passes := s.passes + 1 }
      else some (s.setInvocation i .returned)
    else some (s.abort .emptyFunction)
  | some .writing => some (s.write.setInvocation i .returned)
  | some .returned => none
  | none => none

def deliver (s : SignalHandler) (sig : Signal) : SignalHandler :=
  match s.disposition sig with
  | .ours => { s with invocations := s.invocations ++ [.entered] }
  | .previous => { s with escalations := s.escalations + 1 }

end SignalHandler

inductive Event where
  | owner
  | thread
  | invocation (i : Nat)
  | deliver (sig : Signal)
  deriving DecidableEq, Repr

def step (s : SignalHandler) (e : Event) : Option SignalHandler :=
  if s.aborted.isSome then none
  else match e with
    | .owner => s.ownerStep
    | .thread => s.threadStep
    | .invocation i => s.invocationStep i
    | .deliver sig => some (s.deliver sig)

/-! ## What a step can do -/

/-- The transitions of `step`, each with the guard it takes. -/
inductive Trans (s : SignalHandler) : Event → SignalHandler → Prop
  | delegate (h : s.owner = .delegating) :
    Trans s .owner { s with owner := .installing .sigterm, delegate := true }
  | installTerm (h : s.owner = .installing .sigterm) :
    Trans s .owner { s with
      disposition := Function.update s.disposition .sigterm .ours
      owner := .installing .sigint }
  | installInt (h : s.owner = .installing .sigint) :
    Trans s .owner { s with disposition := Function.update s.disposition .sigint .ours, owner := .spawning }
  | spawn (h : s.owner = .spawning) : Trans s .owner { s with owner := .constructed, thread := .reading }
  | destruct (h : s.owner = .constructed) :
    Trans s .owner { s with owner := .restoring .sigterm, destructing := true }
  | restoreTerm (h : s.owner = .restoring .sigterm) :
    Trans s .owner { s with
      disposition := Function.update s.disposition .sigterm .previous
      owner := .restoring .sigint }
  | restoreInt (h : s.owner = .restoring .sigint) :
    Trans s .owner { s with
      disposition := Function.update s.disposition .sigint .previous
      owner := .checking }
  | pass (h : s.owner = .checking) (hp : s.pipeFds = 2) :
    Trans s .owner { s with owner := .writing, passes := s.passes + 1 }
  | skip (h : s.owner = .checking) (hp : ¬s.pipeFds = 2) : Trans s .owner { s with owner := .joining }
  | write (h : s.owner = .writing) (hp : s.pipeOpen) :
    Trans s .owner { s with owner := .joining, unread := s.unread + 1 }
  | writeFail (h : s.owner = .writing) (hp : ¬s.pipeOpen) :
    Trans s .owner { s with owner := .joining, aborted := some .writeFailed }
  | join (h : s.owner = .joining) (ht : s.thread = .done) : Trans s .owner { s with owner := .clearing }
  | clearDelegate (h : s.owner = .clearing) : Trans s .owner { s with owner := .destroyed, delegate := false }
  | read (h : s.thread = .reading) (hu : 0 < s.unread) :
    Trans s .thread { s with thread := .closingRead, unread := s.unread - 1 }
  | closeRead (h : s.thread = .closingRead) (ho : s.readOpen = true) :
    Trans s .thread { s with thread := .closingWrite, readOpen := false }
  | closeWrite (h : s.thread = .closingWrite) (ho : s.writeOpen = true) :
    Trans s .thread { s with thread := .clearing, writeOpen := false }
  | closeReadFail (h : s.thread = .closingRead) (ho : ¬s.readOpen = true) :
    Trans s .thread { s with aborted := some .closeFailed }
  | closeWriteFail (h : s.thread = .closingWrite) (ho : ¬s.writeOpen = true) :
    Trans s .thread { s with aborted := some .closeFailed }
  | clearPipe (h : s.thread = .clearing) : Trans s .thread { s with thread := .deciding, pipeFds := 0 }
  | finish (h : s.thread = .deciding) (hd : s.destructing = true) : Trans s .thread { s with thread := .done }
  | handle (h : s.thread = .deciding) (hd : ¬s.destructing = true) :
    Trans s .thread { s with thread := .restoring .sigterm }
  | threadRestoreTerm (h : s.thread = .restoring .sigterm) :
    Trans s .thread { s with
      disposition := Function.update s.disposition .sigterm .previous
      thread := .restoring .sigint }
  | threadRestoreInt (h : s.thread = .restoring .sigint) :
    Trans s .thread { s with
      disposition := Function.update s.disposition .sigint .previous
      thread := .calling }
  | callback (h : s.thread = .calling) :
    Trans s .thread { s with thread := .inCallback, callbacks := s.callbacks + 1 }
  | callbackReturns (h : s.thread = .inCallback) : Trans s .thread { s with thread := .done }
  | enter (i) (h : s.invocations[i]? = some .entered) (hd : s.delegate = true) :
    Trans s (.invocation i) { s with invocations := s.invocations.set i .calling }
  | enterLate (i) (h : s.invocations[i]? = some .entered) (hd : ¬s.delegate = true) :
    Trans s (.invocation i) { s with invocations := s.invocations.set i .returned }
  | invocationPass (i) (h : s.invocations[i]? = some .calling) (hd : s.delegate = true) (hp : s.pipeFds = 2) :
    Trans s (.invocation i) { s with invocations := s.invocations.set i .writing, passes := s.passes + 1 }
  | invocationSkip (i) (h : s.invocations[i]? = some .calling) (hd : s.delegate = true)
    (hp : ¬s.pipeFds = 2) :
    Trans s (.invocation i) { s with invocations := s.invocations.set i .returned }
  | callEmpty (i) (h : s.invocations[i]? = some .calling) (hd : ¬s.delegate = true) :
    Trans s (.invocation i) { s with aborted := some .emptyFunction }
  | invocationWrite (i) (h : s.invocations[i]? = some .writing) (hp : s.pipeOpen) :
    Trans s (.invocation i) { s with invocations := s.invocations.set i .returned, unread := s.unread + 1 }
  | invocationWriteFail (i) (h : s.invocations[i]? = some .writing) (hp : ¬s.pipeOpen) :
    Trans s (.invocation i)
      { s with invocations := s.invocations.set i .returned, aborted := some .writeFailed }
  | deliverOurs (sig) (h : s.disposition sig = .ours) :
    Trans s (.deliver sig) { s with invocations := s.invocations ++ [.entered] }
  | escalate (sig) (h : s.disposition sig = .previous) :
    Trans s (.deliver sig) { s with escalations := s.escalations + 1 }

theorem ownerStep_trans {s t : SignalHandler} (h : s.ownerStep = some t) : Trans s .owner t := by
  unfold SignalHandler.ownerStep SignalHandler.write at h
  split at h
  all_goals try split_ifs at h
  all_goals simp only [Option.some.injEq, reduceCtorEq] at h
  all_goals subst h
  all_goals constructor <;> assumption

theorem threadStep_trans {s t : SignalHandler} (h : s.threadStep = some t) : Trans s .thread t := by
  unfold SignalHandler.threadStep at h
  split at h
  all_goals try split_ifs at h
  all_goals simp only [Option.some.injEq, reduceCtorEq] at h
  all_goals subst h
  all_goals first
    | exact .closeWriteFail ‹_› ‹_›
    | exact .callbackReturns ‹_›
    | (constructor <;> assumption)

theorem invocationStep_trans {s t : SignalHandler} {i : Nat} (h : s.invocationStep i = some t) :
    Trans s (.invocation i) t := by
  unfold SignalHandler.invocationStep SignalHandler.write at h
  split at h
  all_goals try split_ifs at h
  all_goals simp only [Option.some.injEq, reduceCtorEq] at h
  all_goals subst h
  all_goals first
    | exact .invocationSkip i ‹_› ‹_› ‹_›
    | (constructor <;> assumption)

theorem deliver_trans (s : SignalHandler) (sig : Signal) : Trans s (.deliver sig) (s.deliver sig) := by
  unfold SignalHandler.deliver
  split
  · exact .deliverOurs sig ‹_›
  · exact .escalate sig ‹_›

theorem step_trans {s t : SignalHandler} {e : Event} (h : step s e = some t) :
    s.aborted = none ∧ Trans s e t := by
  unfold step at h
  split_ifs at h with ha
  refine ⟨by simpa using ha, ?_⟩
  cases e with
  | owner => exact ownerStep_trans h
  | thread => exact threadStep_trans h
  | invocation i => exact invocationStep_trans h
  | deliver sig =>
    cases h
    exact deliver_trans s sig

end Nighthawk.Signals
