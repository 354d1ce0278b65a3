import Nighthawk.Options.Code
import Nighthawk.Sequencer.Code

/-!
# Termination predicates

The chain that `TerminationPredicateFactoryImpl` links and a worker's sequencer evaluates. A release
assertion that fails is `none`.
-/

namespace Nighthawk.Termination

open Options

/-- What the predicates read: the counters of the worker's scope, and the clock in nanoseconds. -/
structure World where
  counters : Str → UInt64
  monotonicTime : ℤ

/-- The duration is in microseconds. -/
inductive Predicate where
  | duration (duration start : ℤ)
  | statsCounterAbsoluteThreshold (counter : Str) (counterLimit : UInt64)
    (terminationStatus : Sequencer.Status)
  deriving DecidableEq, Repr

def Predicate.evaluate (w : World) : Predicate → Sequencer.Status
  | .duration microseconds start => if w.monotonicTime - start > microseconds * 1000 then
      .terminate else .proceed
  | .statsCounterAbsoluteThreshold counter counterLimit terminationStatus =>
    if w.counters counter > counterLimit then terminationStatus else .proceed

/-- A predicate, with its `linked_child_` if there is one. -/
inductive TerminationPredicate where
  | single (own : Predicate)
  | linked (own : Predicate) (linkedChild : TerminationPredicate)
  deriving DecidableEq, Repr

namespace TerminationPredicate

def link : TerminationPredicate → TerminationPredicate → Option TerminationPredicate
  | .single own, child => some (.linked own child)
  | .linked _ _, _ => none

def appendToChain : TerminationPredicate → TerminationPredicate → Option TerminationPredicate
  | .single own, child => link (.single own) child
  | .linked own linkedChild, child => (linkedChild.appendToChain child).map (.linked own)

def evaluateChain (w : World) : TerminationPredicate → Sequencer.Status
  | .single own => own.evaluate w
  | .linked own linkedChild =>
    let status := linkedChild.evaluateChain w
    if status = .proceed then own.evaluate w else status

/-- Changes the predicate that many links below this one. -/
def modifyAt (f : TerminationPredicate → Option TerminationPredicate) :
    ℕ → TerminationPredicate → Option TerminationPredicate
  | 0, p => f p
  | n + 1, .linked own linkedChild => (modifyAt f n linkedChild).map (.linked own)
  | _ + 1, .single _ => none

end TerminationPredicate

/-! ## The factory -/

/-- The root predicate, and how far below it the current one is. -/
structure Chain where
  root : TerminationPredicate
  current : ℕ
  deriving DecidableEq, Repr

/-- Links a child to the current predicate and makes it the current one. -/
def Chain.link (c : Chain) (child : Predicate) : Option Chain :=
  (c.root.modifyAt (·.link (.single child)) c.current).map fun root => ⟨root, c.current + 1⟩

def linkConfiguredPredicates (c : Chain) (predicates : List (Str × UInt64))
    (terminationStatus : Sequencer.Status) :
    Option Chain :=
  if terminationStatus = .proceed then none
  else predicates.foldlM (fun c p => c.link (.statsCounterAbsoluteThreshold p.1 p.2 terminationStatus)) c

def gracefulStop : Predicate := .statsCounterAbsoluteThreshold "graceful_stop_requested".toList 0 .terminate

def durationPredicate (o : OptionsImpl) (scheduledStartingTime : ℤ) : Predicate :=
  .duration (o.duration.toNat * 1000000) scheduledStartingTime

def linkDuration (c : Chain) (o : OptionsImpl) (scheduledStartingTime : ℤ) : Option Chain :=
  if o.noDuration then some c else c.link (durationPredicate o scheduledStartingTime)

/-- `TerminationPredicateFactoryImpl::create`. -/
def create (o : OptionsImpl) (scheduledStartingTime : ℤ) : Option TerminationPredicate := do
  let c ← linkDuration ⟨.single gracefulStop, 0⟩ o scheduledStartingTime
  let c ← linkConfiguredPredicates c o.failurePredicates .fail
  let c ← linkConfiguredPredicates c o.terminationPredicates .terminate
  return c.root

end Nighthawk.Termination
