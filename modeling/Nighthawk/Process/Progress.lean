import Nighthawk.Process.Cancellation

/-!
# How a run ends

A run without new cancellations is finite, and some thread can always go on until the process is
destroyed. There are two exceptions. The child may end before it has posted the semaphore, and the
event loop of the flush worker may see the exit too early. The main thread then waits forever. `work`
and `shutdownThread` of a worker are assumed to return.
-/

namespace Nighthawk.Process

open Positions

variable {c : Config} {s t : ProcessImpl} {e : Event}

/-! ## The work that is left -/

def ThreadPc.work : ThreadPc → ℕ
  | .entering => 5
  | .working => 4
  | .completing => 3
  | .waiting => 2
  | .leaving => 1
  | .done => 0

/-- The actions of a worker's thread, and the closures that wait. -/
def WorkerImpl.work (w : WorkerImpl) : ℕ :=
  (match w.thread with
    | none => 6
    | some pc => pc.work) + w.posted

def Child.work : Child → ℕ
  | .absent => 3
  | .starting => 2
  | .serving => 1
  | .exited | .reaped => 0

/-- With at most `n` workers, of which `k` are there. -/
def MainPc.work (n k : ℕ) : MainPc → ℕ
  | .starting => 31 + 12 * n
  | .forking => 30 + 12 * n
  | .awaiting => 27 + 12 * n
  | .locking => 26 + 12 * n
  | .checking => 25 + 12 * n
  | .creating => 24 + 4 * n + 8 * (n - k)
  | .configuring => 23 + 4 * n
  | .startingFlush => 22 + 4 * n
  | .startingWorkers i => 15 + 3 * n + (n - i)
  | .waiting i => 14 + 2 * n + (n - i)
  | .exitingFlush => 13 + 2 * n
  | .waitingFlush => 12 + 2 * n
  | .reporting => 11 + 2 * n
  | .returned _ => 10 + 2 * n
  | .terminating => 9 + 2 * n
  | .lockingShutdown => 8 + 2 * n
  | .stoppingFlush => 7 + 2 * n
  | .joiningFlush => 6 + 2 * n
  | .signalling i => 5 + n + (n - i)
  | .joining i => 4 + (n - i)
  | .clearing => 3
  | .finishing => 2
  | .stopped => 1
  | .destroyed => 0

/-- A call that posts to a worker leaves a closure there. -/
def CancelPc.work (n : ℕ) : CancelPc → ℕ
  | .locking => 2 * n + 5
  | .posting i => 2 * (n - i) + 4
  | .terminating => 2
  | .setting => 1
  | .done _ => 0

/-- The steps that are left when no one calls `requestExecutionCancellation`. -/
def ProcessImpl.work (c : Config) (s : ProcessImpl) : ℕ :=
  s.main.work c.numberOfWorkers s.workers.length + total WorkerImpl.work s.workers +
    total WorkerImpl.work s.flushWorker.toList + s.child.work +
      total (CancelPc.work c.numberOfWorkers) s.cancellers

theorem ThreadMoves.work_lt {workReturns : Bool} {w w' : WorkerImpl} (h : ThreadMoves workReturns w w') :
    w'.work < w.work := by
  cases h <;> grind -ring -linarith [WorkerImpl.work, ThreadPc.work]

theorem terminate_work (child : Child) (r : Reaping) : (child.terminate r).1.work ≤ child.work := by
  cases child <;> cases r <;> decide

theorem moves_work (hs : Ordered c s) (h : Moves c s e t) (he : e ≠ .cancel) : t.work c < s.work c := by
  have hlength := hs.length
  have hunborn : ∀ i w, s.main = .startingWorkers i → s.workers[i]? = some w → w.thread = none := by
    intro i w hmain hw
    obtain ⟨hsound, hat⟩ := hs.sound i w hw
    rw [hmain] at hat
    exact hsound.thread.mpr (by simpa using hat.1)
  have hterminate := terminate_work s.child
  have hset := fun (i : ℕ) (w w' : WorkerImpl) (h : s.workers[i]? = some w) => total_set WorkerImpl.work h w'
  have hcancel := fun (k : ℕ) (pc pc' : CancelPc) (h : s.cancellers[k]? = some pc) =>
    total_set (CancelPc.work c.numberOfWorkers) h pc'
  have hlt := @ThreadMoves.work_lt
  unfold ProcessImpl.work
  cases h <;> grind -ring -linarith [MainPc.work, CancelPc.work, Child.work, WorkerImpl.work, ThreadPc.work,
    total_append, total_cons, total_nil, Option.toList_some, Option.toList_none, List.length_set,
    List.length_append]

/-! ## Who can go on -/

/-- The main thread waits for what no one will do. -/
inductive Stuck (s : ProcessImpl) : Prop
  | child (hmain : s.main = .awaiting) (hsem : s.semaphore = 0) (hchild : s.child = .exited ∨
    s.child = .reaped)
  | flush (f : WorkerImpl) (hmain : s.main = .waitingFlush) (hf : s.flushWorker = some f)
    (hthread : f.thread = some .working) (hexiting : f.exiting = false)

/-- While the main thread waits for the semaphore there is a child, and it has posted when it serves. -/
def Forked (s : ProcessImpl) : Prop :=
  s.main = .awaiting → s.child ≠ .absent ∧ (s.child = .serving → 0 < s.semaphore)

theorem terminate_cases (child : Child) (r : Reaping) :
    (child.terminate r).1 = child ∨ (child.terminate r).1 = .reaped := by
  cases child <;> cases r <;> decide

theorem moves_forked (hs : Forked s) (h : Moves c s e t) : Forked t := by
  have hterminate := terminate_cases s.child
  unfold Forked at hs ⊢
  cases h <;> first | assumption | grind -ring -linarith

structure Whole (c : Config) (s : ProcessImpl) : Prop where
  ordered : Ordered c s
  locked : Locked s
  forked : Forked s

theorem run_whole {es : List Event} (h : Runs.exec (step c) {} es = some s) : Whole c s := by
  have hkeep : ∀ s e t, Whole c s → step c s e = some t → Whole c t := by
    intro s e t ⟨hordered, hlocked, hforked⟩ hstep
    have hmoves := step_moves hordered hstep
    exact ⟨moves_ordered hordered hmoves, moves_locked hlocked hmoves, moves_forked hforked hmoves⟩
  refine Runs.exec_inv hkeep ⟨ordered_init c, locked_init, ?_⟩ h
  simp [Forked]

theorem step_main (ha : s.aborted = none) (ok : Bool) (r : Reaping) :
    step c s (.main ok r) = s.mainStep c ok r := by
  simp [step, ha]

theorem exists_canceller (hs : Whole c s) (hholds : s.main.holds = false) {h : Holder}
    (hl : s.workersLock = some h) :
    ∃ e, e ≠ .cancel ∧ (step c s e).isSome = true := by
  cases h with
  | main => simp [hs.locked.main.mp hl] at hholds
  | canceller k =>
    have hlt := hs.locked.bound k hl
    have hk := List.getElem?_eq_getElem hlt
    have hpc := (hs.locked.canceller k _ hk).mpr hl
    refine ⟨.canceller k .clean, by simp, ?_⟩
    simp only [step, hs.ordered.aborted, Option.isSome_none, Bool.false_eq_true, if_false,
      ProcessImpl.cancelStep, hk]
    cases hcase : s.cancellers[k] <;> simp_all [CancelPc.holds]

theorem exists_thread {w : WorkerImpl} (hs : w.Sound) (hstarted : w.started = true)
    (hcomplete : w.complete = false)
    {workReturns : Bool} (hr : w.thread = some .working → workReturns = true) :
    (w.threadStep workReturns).isSome = true := by
  have hthread := hs.thread
  have hdone := hs.complete
  unfold WorkerImpl.threadStep
  split <;> simp_all

theorem exists_exit {w : WorkerImpl} (hs : w.Sound) (hsignaled : w.exitSignaled = true)
    (hcomplete : w.complete = true)
    (hend : w.thread ≠ some .done) (workReturns : Bool) : (w.threadStep workReturns).isSome = true := by
  have hsignal := hs.signal
  have hdone := hs.complete
  unfold WorkerImpl.threadStep
  split <;> simp_all

theorem shutdown_isSome {w : WorkerImpl} (hsignaled : w.exitSignaled = true)
    (hended : w.thread = none ∨ w.thread = some .done) : w.shutdown.isSome = true := by
  unfold WorkerImpl.shutdown WorkerImpl.initiateShutdown
  rw [if_pos hsignaled]
  simp only [Option.isSome_map, WorkerImpl.join, WorkerImpl.joinable]
  rcases hended with hthread | hthread
  · simp [hthread]
  · simp only [hthread, if_true]
    split <;> rfl

theorem step_worker (ha : s.aborted = none) {i : ℕ} {w : WorkerImpl} (hw : s.workers[i]? = some w)
    (h : (w.threadStep true).isSome = true) : (step c s (.worker i)).isSome = true := by
  simp [step, ha, hw, h]

theorem step_flush (ha : s.aborted = none) {f : WorkerImpl} (hf : s.flushWorker = some f)
    (h : (f.threadStep f.exiting).isSome = true) : (step c s .flush).isSome = true := by
  simp [step, ha, hf, h]

/-- The main thread waits at these places only. -/
def MainPc.blocks : MainPc → Bool
  | .awaiting | .locking | .waiting _ | .waitingFlush | .lockingShutdown | .joiningFlush | .joining _ => true
  | .stopped | .destroyed => true
  | _ => false

theorem exists_main (hs : Whole c s) (hblocks : s.main.blocks = false) :
    (step c s (.main true .clean)).isSome = true := by
  have hthere := hs.ordered.flushThere
  rw [step_main hs.ordered.aborted]
  unfold ProcessImpl.mainStep
  split <;> simp_all [MainPc.blocks, MainPc.flushes]

theorem exists_step (hs : Whole c s) (hend : s.main ≠ .destroyed) :
    Stuck s ∨ ∃ e, e ≠ .cancel ∧ (step c s e).isSome = true := by
  have ha := hs.ordered.aborted
  have hsound := hs.ordered.sound
  have hflush := hs.ordered.flush
  have hthere := hs.ordered.flushThere
  have hgo : (s.mainStep c true .clean).isSome = true → ∃ e, e ≠ .cancel ∧ (step c s e).isSome = true :=
    fun h => ⟨.main true .clean, by simp, by rwa [step_main ha]⟩
  have hlock : s.main.holds = false → (s.workersLock = none → (s.mainStep c true .clean).isSome = true) →
      ∃ e, e ≠ .cancel ∧ (step c s e).isSome = true := by
    intro hholds hstep
    cases hl : s.workersLock with
    | none => exact hgo (hstep hl)
    | some h => exact exists_canceller hs hholds hl
  cases hmain : s.main with
  | awaiting =>
    obtain ⟨hchild, hserving⟩ := hs.forked hmain
    by_cases hsem : 0 < s.semaphore
    · exact Or.inr (hgo (by simp [ProcessImpl.mainStep, hmain, hsem]))
    · cases hc : s.child with
      | absent => exact absurd hc hchild
      | starting => exact Or.inr ⟨.childPosts, by simp, by simp [step, ha, hc]⟩
      | serving => exact absurd (hserving hc) hsem
      | exited => exact Or.inl (.child hmain (by omega) (Or.inl hc))
      | reaped => exact Or.inl (.child hmain (by omega) (Or.inr hc))
  | locking => exact Or.inr (hlock (by simp [hmain, MainPc.holds]) fun hl => by
      simp [ProcessImpl.mainStep, hmain, hl])
  | lockingShutdown =>
    exact Or.inr (hlock (by simp [hmain, MainPc.holds]) fun hl => by simp [ProcessImpl.mainStep, hmain, hl])
  | waiting i =>
    rw [hmain] at hsound
    cases hw : s.workers[i]? with
    | none => exact Or.inr (hgo (by simp [ProcessImpl.mainStep, hmain, hw]))
    | some w =>
      obtain ⟨hsoundw, hstarted, -, hretrieved, -⟩ := hsound i w hw
      cases hcomplete : w.complete with
      | true => exact Or.inr (hgo (by simp_all [ProcessImpl.mainStep, WorkerImpl.waitForCompletion]))
      | false =>
        exact Or.inr ⟨.worker i, by simp,
          step_worker ha hw (exists_thread hsoundw hstarted hcomplete fun _ => rfl)⟩
  | waitingFlush =>
    obtain ⟨f, hf⟩ := Option.isSome_iff_exists.mp (hthere (by rw [hmain]; rfl))
    rw [hmain] at hflush
    obtain ⟨hsoundf, hstarted, -, hretrieved⟩ := hflush f hf
    cases hcomplete : f.complete with
    | true => exact Or.inr (hgo (by simp_all [ProcessImpl.mainStep, WorkerImpl.waitForCompletion]))
    | false =>
      by_cases hlost : f.thread = some .working ∧ f.exiting = false
      · exact Or.inl (.flush f hmain hf hlost.1 hlost.2)
      · refine Or.inr ⟨.flush, by simp, step_flush ha hf (exists_thread hsoundf hstarted hcomplete ?_)⟩
        exact fun hworking => by simpa [hworking] using hlost
  | joiningFlush =>
    obtain ⟨f, hf⟩ := Option.isSome_iff_exists.mp (hthere (by rw [hmain]; rfl))
    rw [hmain] at hflush
    obtain ⟨hsoundf, -, hsignaled, -, hcomplete⟩ := hflush f hf
    by_cases hdone : f.thread = some .done
    · exact Or.inr (hgo (by simp [ProcessImpl.mainStep, hmain, hf, WorkerImpl.join, hdone]; split <;> rfl))
    · exact Or.inr ⟨.flush, by simp, step_flush ha hf (exists_exit hsoundf hsignaled hcomplete hdone _)⟩
  | joining i =>
    rw [hmain] at hsound
    cases hw : s.workers[i]? with
    | none => exact Or.inr (hgo (by simp [ProcessImpl.mainStep, hmain, hw]))
    | some w =>
      obtain ⟨hsoundw, hsignaled, hjoined, hcomplete⟩ := hsound i w hw
      by_cases hended : w.thread = none ∨ w.thread = some .done
      · have hshutdown := shutdown_isSome hsignaled hended
        exact Or.inr (hgo (by simp [ProcessImpl.mainStep, hmain, hw, hshutdown]))
      · have hstarted : w.started = true := by
          by_contra hne
          exact hended (Or.inl (hsoundw.thread.mpr (by simpa using hne)))
        exact Or.inr ⟨.worker i, by simp,
          step_worker ha hw (exists_exit hsoundw hsignaled (hcomplete hstarted)
          (fun h => hended (Or.inr h)) _)⟩
  | stopped =>
    by_cases hdone : ∀ pc ∈ s.cancellers, ∃ result, pc = .done result
    · exact Or.inr (hgo (by simp only [ProcessImpl.mainStep, hmain, if_pos hdone, Option.isSome_some]))
    · -- A call that is not over waits for the lock, or holds it.
      push Not at hdone
      obtain ⟨pc, hpc, hopen⟩ := hdone
      obtain ⟨k, hk⟩ := List.mem_iff_getElem?.mp hpc
      have hholds : s.main.holds = false := by rw [hmain]; rfl
      cases hl : s.workersLock with
      | some h => exact Or.inr (exists_canceller hs hholds hl)
      | none =>
        have hcanceller := hs.locked.canceller k pc hk
        refine Or.inr ⟨.canceller k .clean, by simp, ?_⟩
        cases pc with
        | locking => simp [step, ha, ProcessImpl.cancelStep, hk, hl]
        | done result => exact absurd rfl (hopen result)
        | _ => simp [hl, CancelPc.holds] at hcanceller
  | destroyed => exact absurd hmain hend
  | _ => exact Or.inr ⟨.main true .clean, by simp, exists_main hs (by rw [hmain]; rfl)⟩

/-- From any state, a run without new cancellations has at most `work` steps, and it can go on until the
process is destroyed or its main thread is stuck. -/
theorem process_ends {es es' : List Event} (hs : Runs.exec (step c) {} es = some s)
    (hquiet : ∀ e ∈ es', e ≠ .cancel)
    (ht : Runs.exec (step c) s es' = some t) :
    es'.length ≤ s.work c ∧
      (t.main = .destroyed ∨ Stuck t ∨ ∃ e, e ≠ .cancel ∧ (step c t e).isSome = true) := by
  have hall : Runs.AllSteps (step c) (fun _ e => e ≠ .cancel) s es' :=
    Runs.allSteps_of_forall (fun e he _ => hquiet e he) s
  have hlen := Runs.exec_length_le (ProcessImpl.work c)
    (fun s e t hordered he h =>
      ⟨step_ordered s e t hordered h, moves_work hordered (step_moves hordered h) he⟩)
        (run_ordered hs) hall ht
  refine ⟨by omega, ?_⟩
  have hwhole := run_whole ((Runs.exec_append_eq_some (step c)).mpr ⟨s, hs, ht⟩)
  by_cases hend : t.main = .destroyed
  · exact Or.inl hend
  · exact Or.inr (exists_step hwhole hend)

/-- The process is shut down and destroyed. -/
theorem process_ends_destroyed :
    ∃ s t, Runs.exec (step ⟨1, false⟩) {} completedRun = some s ∧
      Runs.exec (step ⟨1, false⟩) s (List.replicate 7 (.main true .clean) ++ List.replicate 2 (.worker 0) ++
        List.replicate 5 (.main true .clean)) = some t ∧ 14 ≤ s.work ⟨1, false⟩ ∧ t.main = .destroyed := by
  obtain ⟨s, hs⟩ : ∃ s, Runs.exec (step ⟨1, false⟩) {} completedRun = some s := ⟨_, rfl⟩
  obtain ⟨t, ht, hend⟩ : ∃ t, Runs.exec (step ⟨1, false⟩) s (List.replicate 7 (.main true .clean) ++
      List.replicate 2 (.worker 0) ++ List.replicate 5 (.main true .clean)) = some t ∧
        t.main = .destroyed := by
    cases hs
    exact ⟨_, rfl, rfl⟩
  exact ⟨s, t, hs, ht, (process_ends hs (by decide) ht).1, hend⟩

/-! ## Waiting forever -/

theorem moves_stuck (ho : Ordered c s) (hs : Stuck s) (h : Moves c s e t) : Stuck t := by
  cases hs with
  | child hmain hsem hchild =>
    have hterminate := terminate_cases s.child
    cases h <;> first
      | exact .child hmain hsem hchild
      | (exfalso; grind -ring -linarith)
      | (refine .child hmain hsem ?_; grind -ring -linarith)
  | flush f hmain hf hthread hexiting =>
    have hcomplete : f.complete = false := by
      have := (ho.flush f hf).1.complete
      simpa [hthread] using this
    cases h with
    | flush f' f'' hf' hmoves =>
      obtain rfl : f = f' := Option.some.inj (hf.symm.trans hf')
      cases hmoves <;> simp_all
    | _ => first
      | exact .flush f hmain hf hthread hexiting
      | (exfalso; grind -ring -linarith)

theorem step_stuck (s : ProcessImpl) (e : Event) (t : ProcessImpl) (hs : Ordered c s ∧ Stuck s)
    (h : step c s e = some t) :
    Ordered c t ∧ Stuck t :=
  ⟨step_ordered s e t hs.1 h, moves_stuck hs.1 hs.2 (step_moves hs.1 h)⟩

/-- Once the main thread is stuck it never returns from `run`, whatever the other threads do. -/
theorem stuck_forever {es es' : List Event} (hs : Runs.exec (step c) {} es = some s) (hstuck : Stuck s)
    (ht : Runs.exec (step c) s es' = some t) : Stuck t ∧ (t.main = .awaiting ∨ t.main = .waitingFlush) := by
  have hlast := (Runs.exec_inv step_stuck ⟨run_ordered hs, hstuck⟩ ht).2
  refine ⟨hlast, ?_⟩
  cases hlast with
  | child hmain hsem hchild => exact Or.inl hmain
  | flush f hmain hf hthread hexiting => exact Or.inr hmain

/-- A cancellation that terminates the child while it starts returns true, and `run` waits forever. -/
theorem stuck_forever_cancelled :
    ∃ s, Runs.exec (step ⟨1, false⟩) {} ([.main true .clean, .main true .clean, .cancel] ++
        List.replicate 4 (.canceller 0 .clean)) = some s ∧ s.cancellers = [.done true] ∧ s.main = .awaiting ∧
      ∀ es t, Runs.exec (step ⟨1, false⟩) s es = some t → Stuck t := by
  obtain ⟨s, hs⟩ : ∃ s, Runs.exec (step ⟨1, false⟩) {} ([.main true .clean, .main true .clean, .cancel] ++
    List.replicate 4 (.canceller 0 .clean)) = some s := ⟨_, rfl⟩
  have hfacts : s.cancellers = [.done true] ∧ s.main = .awaiting ∧ s.semaphore = 0 ∧ s.child = .reaped := by
    cases hs
    exact ⟨rfl, rfl, rfl, rfl⟩
  obtain ⟨hcancelled, hmain, hsem, hchild⟩ := hfacts
  exact ⟨s, hs, hcancelled, hmain, fun es t ht => (stuck_forever hs (.child hmain hsem (Or.inr hchild)) ht).1⟩

end Nighthawk.Process
