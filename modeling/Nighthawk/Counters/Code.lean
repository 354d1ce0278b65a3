import Nighthawk.Lib.Text
import Mathlib.Logic.Function.Basic

/-!
# Counters of the workers

All workers count in one store. The global numbers are read from the store by `mapCountersFromStore`,
and each worker takes a snapshot of its own counters when it ends.
-/

namespace Nighthawk.Counters

structure Counter where
  name : Str
  value : UInt64
  deriving DecidableEq, Repr

abbrev CounterMap := Str → Option UInt64

/-! ## The global numbers -/

/-- `absl::SimpleAtoi` to an `int`. -/
def simpleAtoi (s : Str) : Option Int := Text.parseSigned (-2147483648) 2147483647 s

def eraseScope : List Str → List Str
  | part :: parts => if part = "cluster".toList ∨ part = "worker".toList then parts else part :: parts
  | [] => []

/-- Nothing is left of a name that is only `cluster` or `worker`, and the source then reads beyond it. -/
def eraseNumber : List Str → List Str
  | part :: parts => if (simpleAtoi part).isSome then parts else part :: parts
  | [] => []

def globalName (name : Str) : Str := ['.'].intercalate (eraseNumber (eraseScope (name.splitOn '.')))

def mapCountersFromStore (filter : Str → UInt64 → Bool) (store : List Counter) : CounterMap :=
  store.foldl (fun results stat =>
    if filter stat.name stat.value then
      Function.update results (globalName stat.name)
        (some ((results (globalName stat.name)).getD 0 + stat.value))
    else results) fun _ => none

/-- What `runInternal` reports. -/
def globalCounters : List Counter → CounterMap := mapCountersFromStore fun _ value => 0 < value

/-! ## A worker's numbers -/

def stripPrefix (s pre : Str) : Str := if pre.isPrefixOf s then s.drop pre.length else s

def workerPrefix (workerNumber : Nat) : Str := Text.decimal workerNumber ++ ['.']

/-- The end of `ClientWorkerImpl::work`. -/
def threadLocalCounterValues (workerNumber : Nat) (store : List Counter) : CounterMap :=
  store.foldl (fun values stat =>
    let statName := stripPrefix (stripPrefix stat.name "cluster.".toList) "worker.".toList
    if stat.value ≠ 0 ∧ (workerPrefix workerNumber).isPrefixOf statName then
      Function.update values (stripPrefix statName (workerPrefix workerNumber)) (some stat.value)
    else values) fun _ => none

end Nighthawk.Counters
