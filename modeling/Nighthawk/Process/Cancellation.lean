import Nighthawk.Process.Order

/-!
# Cancelling a run

`requestExecutionCancellation` and the part of `run` that creates and starts the workers exclude each
other by `workers_lock_`. So a cancellation reaches every worker, or keeps the workers from starting.
-/

namespace Nighthawk.Process

open Positions

variable {c : Config} {s t : ProcessImpl} {e : Event}

/-! ## The lock -/

/-- The main thread holds `workers_lock_` here. -/
def MainPc.holds : MainPc → Bool
  | .checking | .creating | .configuring | .startingFlush | .startingWorkers _ => true
  | .stoppingFlush | .joiningFlush | .signalling _ | .joining _ | .clearing => true
  | _ => false

def CancelPc.holds : CancelPc → Bool
  | .posting _ | .terminating | .setting => true
  | _ => false

structure Locked (s : ProcessImpl) : Prop where
  main : s.workersLock = some .main ↔ s.main.holds = true
  canceller : ∀ k pc, s.cancellers[k]? = some pc → (pc.holds = true ↔ s.workersLock = some (.canceller k))
  bound : ∀ k, s.workersLock = some (.canceller k) → k < s.cancellers.length

theorem locked_init : Locked {} := by
  constructor <;> simp [MainPc.holds]

attribute [local grind =] MainPc.holds CancelPc.holds List.getElem?_set List.getElem?_append List.length_set

theorem moves_locked (hs : Locked s) (h : Moves c s e t) : Locked t := by
  obtain ⟨hmain, hcanceller, hbound⟩ := hs
  cases h <;> constructor <;> first | assumption | grind -ring -linarith

/-! ## Who is told to stop -/

/-- A request to stop waits in the worker's dispatcher, or has been handled. -/
def WorkerImpl.Told (w : WorkerImpl) : Prop := 0 < w.posted + w.gracefulStopRequested

/-- The call has been at worker `i`. -/
def CancelPc.passed : CancelPc → ℕ → Bool
  | .posting j, i => decide (i < j)
  | .terminating, _ | .setting, _ => true
  | _, _ => false

theorem MainPc.holds_of_builds {pc : MainPc} (h : pc.builds = true) : pc.holds = true := by
  cases pc <;> first | rfl | cases h

theorem CancelPc.holds_of_passed {pc : CancelPc} {i : ℕ} (h : pc.passed i = true) : pc.holds = true := by
  cases pc <;> first | rfl | cases h

structure Informed (s : ProcessImpl) : Prop where
  builds : s.main.builds = true → s.cancelled = false
  passed : ∀ (k : ℕ) (pc : CancelPc), s.cancellers[k]? = some pc →
    ∀ (i : ℕ) (w : WorkerImpl), s.workers[i]? = some w → pc.passed i = true → w.Told
  cancelled : s.cancelled = true → ∀ (i : ℕ) (w : WorkerImpl), s.workers[i]? = some w → w.Told
  returned : ∀ k : ℕ, s.cancellers[k]? = some (CancelPc.done true) → s.cancelled = true

theorem informed_init : Informed {} := by
  constructor <;> simp

attribute [local grind =] MainPc.builds CancelPc.passed WorkerImpl.Told

theorem ThreadMoves.told {workReturns : Bool} {w w' : WorkerImpl} (h : ThreadMoves workReturns w w')
    (hw : w.Told) :
    w'.Told := by
  cases h <;> grind -ring -linarith

theorem moves_informed (hl : Locked s) (hs : Informed s) (h : Moves c s e t) : Informed t := by
  obtain ⟨hlock, hcanceller, -⟩ := hl
  obtain ⟨hbuilds, hpassed, hcancelled, hreturned⟩ := hs
  have htold := @ThreadMoves.told true
  have hholds := @MainPc.holds_of_builds
  have hholds' := @CancelPc.holds_of_passed
  cases h <;> constructor <;> first | assumption | grind -ring -linarith

/-! ## Whole runs -/

theorem run_informed {es : List Event} (h : Runs.exec (step c) {} es = some s) : Locked s ∧ Informed s := by
  have hkeep : ∀ s e t, (Ordered c s ∧ Locked s ∧ Informed s) → step c s e = some t →
      (Ordered c t ∧ Locked t ∧ Informed t) := by
    intro s e t ⟨hordered, hlocked, hinformed⟩ hstep
    have hmoves := step_moves hordered hstep
    exact ⟨moves_ordered hordered hmoves, moves_locked hlocked hmoves,
      moves_informed hlocked hinformed hmoves⟩
  exact (Runs.exec_inv hkeep ⟨ordered_init c, locked_init, informed_init⟩ h).2

theorem step_cancelled (s : ProcessImpl) (e : Event) (t : ProcessImpl) (hs : Ordered c s ∧ s.cancelled = true)
    (h : step c s e = some t) : Ordered c t ∧ t.cancelled = true := by
  have hmoves := step_moves hs.1 h
  refine ⟨moves_ordered hs.1 hmoves, ?_⟩
  have hcancelled := hs.2
  cases hmoves <;> first | exact hcancelled | rfl

/-- Once a call of `requestExecutionCancellation` has returned true, no worker is created or started any
more, and each one there is has been told to stop. -/
theorem cancellation_reaches {es es' : List Event} {k : ℕ} (hs : Runs.exec (step c) {} es = some s)
    (hk : s.cancellers[k]? = some (.done true)) (ht : Runs.exec (step c) s es' = some t) :
    t.main.builds = false ∧ ∀ w ∈ t.workers, w.Told := by
  have hcancelled := (Runs.exec_inv step_cancelled ⟨run_ordered hs, (run_informed hs).2.returned k hk⟩ ht).2
  have hinformed := (run_informed ((Runs.exec_append_eq_some (step c)).mpr ⟨s, hs, ht⟩)).2
  constructor
  · by_contra hbuilds
    simp [hinformed.builds (by simpa using hbuilds)] at hcancelled
  · intro w hw
    obtain ⟨i, hi⟩ := List.mem_iff_getElem?.mp hw
    exact hinformed.cancelled hcancelled i w hi

/-- A worker is told while it works. -/
theorem cancellation_reaches_worker :
    ∃ s, Runs.exec (step ⟨1, false⟩) {}
        (startUp ++ [.worker 0, .cancel] ++ List.replicate 5 (.canceller 0 .clean)) = some s ∧
      s.workers.length = 1 ∧ ∀ w ∈ s.workers, w.Told := by
  obtain ⟨s, hs⟩ : ∃ s, Runs.exec (step ⟨1, false⟩) {}
    (startUp ++ [.worker 0, .cancel] ++ List.replicate 5 (.canceller 0 .clean)) = some s := ⟨_, rfl⟩
  have hdone : s.cancellers[0]? = some (.done true) ∧ s.workers.length = 1 := by
    cases hs
    exact ⟨rfl, rfl⟩
  have hnow : Runs.exec (step ⟨1, false⟩) s [] = some s := rfl
  exact ⟨s, hs, hdone.2, (cancellation_reaches hs hdone.1 hnow).2⟩

end Nighthawk.Process
