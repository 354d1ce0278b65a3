import Nighthawk.Worker.Duration

/-!
# Cancelling a worker

`requestExecutionCancellation` only increments a counter. The predicate at the root of the chain
watches it, so the sequencer stops the next time it looks.
-/

namespace Nighthawk.Worker

open Options (OptionsImpl)
open Sequencer (SequencerImpl)

variable {c : Config} {w w' : ClientWorkerImpl}

/-- The event runs the sequencer. -/
def Event.polls : Event → Bool
  | .start _ | .periodicTimer _ | .spinTimer _ => true
  | _ => false

/-- A worker that is told to stop, and what it has started by now. Only a warm-up request may follow. -/
structure Cancelled (c : Config) (initiated least most : ℕ) (acquired : List ℤ)
    (w : ClientWorkerImpl) : Prop where
  requested : 0 < w.gracefulStopRequested
  initiated : w.sequencer.targetsInitiated = initiated
  least : least ≤ w.benchmark.started
  most : w.benchmark.started + (if c.warmup ∧ w.stage = .created then 1 else 0) ≤ most
  acquired : w.limiter.acquiredAt = acquired

theorem Cancelled.le_most {initiated least most : ℕ} {acquired : List ℤ}
    (h : Cancelled c initiated least most acquired w) :
    w.benchmark.started ≤ most :=
  Nat.le_trans (Nat.le_add_right _ _) h.most

theorem Polls.not_ended {e : Event} {p : ClientWorkerImpl.Poll}
    {event : Sequencer.SequencerImpl.Script → Sequencer.Event}
    {u : ClientWorkerImpl} (h : Polls w e p event u) {status : Sequencer.Status}
    (hended : Sequencer.Ended status w.sequencer)
    (r : Sequencer.SequencerImpl.Script) : Sequencer.step u.sequencer (event r) = none := by
  cases h with
  | start hstage p => exact if_pos hended.started
  | periodicTimer hstage p => exact if_neg (by simp [hended.periodic])
  | spinTimer hstage p => exact if_neg (by simp [hended.spin])

theorem moves_ended {e : Event} {status : Sequencer.Status} (hended : Sequencer.Ended status w.sequencer)
    (h : Moves c w e w') : Sequencer.Ended status w'.sequencer := by
  cases h with
  | ready hstage => exact hended
  | warmUp hstage hwarmup hstart hstarted hkeys => exact hended
  | stop hpoll hstep hstatus hended' hmatched hinit =>
    rw [hpoll.not_ended hended] at hstep
    cases hstep
  | serve hpoll hstep hstatus hloop hmatched hinit =>
    rw [hpoll.not_ended hended] at hstep
    cases hstep
  | ongoing hstream =>
    rw [(streamEvent_frame hstream).2.2.1]
    exact hended
  | warmedUp hstream =>
    simp only [(streamEvent_frame hstream).2.2.1]
    exact hended
  | complete hstream hcomplete => exact hended.complete hcomplete
  | cancel => exact hended
  | terminate hexited => exact hended

section

variable {o : OptionsImpl} {startingTime time : ℤ} {plugins : ℕ}
  {pluginOk : List BenchmarkClient.PluginCall → BenchmarkClient.PluginCall → Bool}
  {initiated least most : ℕ} {acquired : List ℤ}

theorem moves_cancelled (hc : configure o startingTime plugins pluginOk = some c) {e : Event}
    (hw : Cancelled c initiated least most acquired w) (hfew : w.gracefulStopRequested < 2 ^ 64)
    (h : Moves c w e w') :
    Cancelled c initiated least most acquired w' ∧ w'.gracefulStopRequested ≤ w.gracefulStopRequested + 1 ∧
      (e.polls = true → ∃ status, Sequencer.Ended status w'.sequencer) := by
  have hle := hw.le_most
  obtain ⟨hrequested, hinitiated, hleast, hmost, hacquired⟩ := hw
  cases h with
  | ready hstage =>
    have hready : w.benchmark.started + (if c.warmup ∧ Stage.ready = .created then 1 else 0) ≤ most := by
      simpa using hle
    exact ⟨⟨hrequested, hinitiated, hleast, hready, hacquired⟩, Nat.le_succ _, fun hp => by cases hp⟩
  | warmUp hstage hwarmup hstart hstarted hkeys =>
    simp only [hwarmup, hstage, and_self, if_true] at hmost
    exact ⟨⟨hrequested, hinitiated, by simp only; omega, by simp; omega, hacquired⟩, Nat.le_succ _,
      fun hp => by cases hp⟩
  | stop hpoll hstep hstatus hended hmatched hinit =>
    refine ⟨?_, ?_, fun _ => ⟨_, hended⟩⟩
    · cases hpoll with
      | start hstage p =>
        have hphase : w.benchmark.started + (if c.warmup ∧ Stage.phase = .created then 1 else 0) ≤ most := by
          simpa using hle
        exact ⟨hrequested, hinit.trans hinitiated, hleast, hphase, hacquired⟩
      | periodicTimer hstage p => exact ⟨hrequested, hinit.trans hinitiated, hleast, hmost, hacquired⟩
      | spinTimer hstage p => exact ⟨hrequested, hinit.trans hinitiated, hleast, hmost, hacquired⟩
    · cases hpoll <;> exact Nat.le_succ _
  | serve hpoll hstep hstatus hloop hmatched hinit =>
    -- The counter is not zero, so the run cannot proceed.
    rename_i p event u v s r attempts
    have hzero := (proceed_spec hc hstatus).2
    have hcounter : u.gracefulStopRequested = w.gracefulStopRequested := by cases hpoll <;> rfl
    have hnat := congrArg UInt64.toNat hzero
    simp only [ClientWorkerImpl.updateApproximateMonotonicTime, hcounter, UInt64.toNat_ofNat',
      UInt64.toNat_zero] at hnat
    omega
  | ongoing hstream =>
    obtain ⟨hstarted, hlimiter, hsequencer, hstage, hgraceful⟩ := streamEvent_frame hstream
    refine ⟨⟨by rwa [hgraceful], by rwa [hsequencer], by rwa [hstarted], by rwa [hstarted, hstage],
      by rwa [hlimiter]⟩,
      by omega, fun hp => by cases hp⟩
  | warmedUp hstream =>
    obtain ⟨hstarted, hlimiter, hsequencer, -, hgraceful⟩ := streamEvent_frame hstream
    refine ⟨⟨by simpa [hgraceful], by simpa [hsequencer], by simpa [hstarted], by simpa [hstarted],
      by simpa [hlimiter]⟩,
      by simp only; omega, fun hp => by cases hp⟩
  | complete hstream hcomplete =>
    obtain ⟨hstarted, hlimiter, hsequencer, hstage, hgraceful⟩ := streamEvent_frame hstream
    obtain ⟨_, -, -, hbooks⟩ := Sequencer.complete_books hcomplete
    simp only [Sequencer.books, Prod.mk.injEq] at hbooks
    simp only [ClientWorkerImpl.updateApproximateMonotonicTime]
    refine ⟨⟨by rwa [hgraceful],
      hbooks.2.1.trans hinitiated, by rwa [hstarted], by simpa only [hstarted, hstage],
      by rwa [hlimiter]⟩, by omega, fun hp => by cases hp⟩
  | cancel => exact ⟨⟨Nat.succ_pos _, hinitiated, hleast, hmost, hacquired⟩, le_rfl, fun hp => by cases hp⟩
  | terminate hexited =>
    exact ⟨⟨hrequested, hinitiated, hleast, hmost, hacquired⟩, Nat.le_succ _, fun hp => by cases hp⟩

theorem exec_cancelled (hc : configure o startingTime plugins pluginOk = some c) {fs : List Event}
    (hj : Joined c w)
    (hw : Cancelled c initiated least most acquired w) (hfew : w.gracefulStopRequested + fs.length < 2 ^ 64)
    (h : Runs.exec (step c) w fs = some w') :
    Cancelled c initiated least most acquired w' ∧
      ((∃ e ∈ fs, e.polls = true) → ∃ status, Sequencer.Ended status w'.sequencer) := by
  induction fs generalizing w with
  | nil =>
    cases h
    exact ⟨hw, by simp⟩
  | cons e fs ih =>
    obtain ⟨u, hu, hrest⟩ := (Runs.exec_cons_eq_some _).mp h
    rw [List.length_cons] at hfew
    have hmoves := step_moves hj hu
    obtain ⟨hcancelled, hle, hstop⟩ := moves_cancelled hc hw (by omega) hmoves
    have hju := moves_joined hj hmoves
    obtain ⟨hlast, hpolled⟩ := ih hju hcancelled (by omega) hrest
    refine ⟨hlast, ?_⟩
    rintro ⟨f, hf, hpolls⟩
    rcases List.mem_cons.mp hf with rfl | hf
    · -- What has stopped stays stopped.
      obtain ⟨status, hended⟩ := hstop hpolls
      have hkeep : ∀ v e v', (Joined c v ∧ Sequencer.Ended status v.sequencer) → step c v e = some v' →
          (Joined c v' ∧ Sequencer.Ended status v'.sequencer) := by
        intro v e v' ⟨hjv, hv⟩ hstep
        exact ⟨step_joined v e v' hjv hstep, moves_ended hv (step_moves hjv hstep)⟩
      exact ⟨status, (Runs.exec_inv hkeep ⟨hju, hended⟩ hrest).2⟩
    · exact hpolled ⟨f, hf, hpolls⟩

end

/-- Once a worker has handled a cancellation it starts nothing more, apart from a warm-up request that
`work` has yet to send. The next event that runs its sequencer stops it for good. -/
theorem cancelled_starts_nothing {o : OptionsImpl} {startingTime time : ℤ} {plugins : ℕ}
    {pluginOk : List BenchmarkClient.PluginCall → BenchmarkClient.PluginCall → Bool} {w₀ : ClientWorkerImpl}
    {es fs : List Event} (hc : configure o startingTime plugins pluginOk = some c)
    (hw : construct o startingTime time = some (.ok w₀)) (hrun : Runs.exec (step c) w₀ es = some w)
    (hcancel : 0 < w.gracefulStopRequested) (hfew : w.gracefulStopRequested + fs.length < 2 ^ 64)
    (hlater : Runs.exec (step c) w fs = some w') :
    w'.sequencer.targetsInitiated = w.sequencer.targetsInitiated ∧
      w'.limiter.acquiredAt = w.limiter.acquiredAt ∧
      w.benchmark.started ≤ w'.benchmark.started ∧
      w'.benchmark.started ≤ w.benchmark.started + (if c.warmup ∧ w.stage = .created then 1 else 0) ∧
      ((∃ e ∈ fs, e.polls = true) → w'.sequencer.running = false ∧ w'.sequencer.dispatcherExited = true) := by
  obtain ⟨hlast, hstop⟩ :=
    exec_cancelled hc (run_joined hw hrun) ⟨hcancel, rfl, le_rfl, le_rfl, rfl⟩ hfew hlater
  refine ⟨hlast.initiated, hlast.acquired, hlast.least, hlast.le_most, fun hpolls => ?_⟩
  obtain ⟨status, hended⟩ := hstop hpolls
  exact ⟨hended.running, hended.exited⟩

theorem cancelled_starts_nothing_exchange :
    ∃ c w₀ w w', configure slow 0 0 (fun _ _ => true) = some c ∧ construct slow 0 0 = some (.ok w₀) ∧
      Runs.exec (step c) w₀ (exchange.take 3 ++ [.requestExecutionCancellation]) = some w ∧
      Runs.exec (step c) w [.periodicTimer ⟨5000000000, fun _ => 0, []⟩] = some w' ∧
      w'.sequencer.targetsInitiated = w.sequencer.targetsInitiated ∧ w'.sequencer.running = false := by
  obtain ⟨c, hc⟩ : ∃ c, configure slow 0 0 (fun _ _ => true) = some c := ⟨_, rfl⟩
  obtain ⟨w₀, hw⟩ : ∃ w₀, construct slow 0 0 = some (.ok w₀) := ⟨_, rfl⟩
  have hmap : (Runs.exec (step c) w₀ (exchange.take 3 ++ [.requestExecutionCancellation])).map (fun w =>
      (w.gracefulStopRequested,
        (Runs.exec (step c) w [.periodicTimer ⟨5000000000, fun _ => 0, []⟩]).isSome)) =
      some (1, true) := by
    cases hc
    cases hw
    decide +kernel
  obtain ⟨w, hrun, heq⟩ := Option.map_eq_some_iff.mp hmap
  obtain ⟨hcancel, hlater⟩ := Prod.mk.inj heq
  obtain ⟨w', hw'⟩ := Option.isSome_iff_exists.mp hlater
  obtain ⟨hinitiated, -, -, -, hstop⟩ :=
    cancelled_starts_nothing hc hw hrun (by omega) (by simp [hcancel]) hw'
  exact ⟨c, w₀, w, w', hc, hw, hrun, hw', hinitiated, (hstop ⟨_, List.mem_cons_self, rfl⟩).1⟩

end Nighthawk.Worker
