import Nighthawk.Worker.Cancellation

/-!
# Draining the pool

`terminate` switches latency measurement off before it waits for the pool to drain. A decoder has
read that switch when it was made, and nothing is started while the pool drains.
-/

namespace Nighthawk.Worker

open BenchmarkClient (Benchmark BenchmarkClientHttpImpl ResponseHeaderMap StreamDecoder StreamEvent)
open Options (OptionsImpl)

/-! ## The client -/

def setFlag (m : Bool) (s : BenchmarkClientHttpImpl) : BenchmarkClientHttpImpl :=
  { s with measureLatencies := m }

section

variable (c : BenchmarkClient.Config) (m : Bool) (s : BenchmarkClientHttpImpl)

theorem handleResponseData_setFlag (data : Str) :
    (setFlag m s).handleResponseData c data = setFlag m (s.handleResponseData c data) := by
  unfold BenchmarkClientHttpImpl.handleResponseData
  apply List.foldl_hom
  intro s plugin
  cases hok : c.pluginOk s.pluginCalls (.handleResponseData plugin data) <;>
    simp [BenchmarkClientHttpImpl.handleResponseDataOne, setFlag, hok]

theorem client_onComplete_setFlag (success : Bool) (headers : ResponseHeaderMap) :
    (setFlag m s).onComplete c success headers = setFlag m (s.onComplete c success headers) := by
  have hfold : ∀ (s : BenchmarkClientHttpImpl) (l : List ℕ),
      l.foldl (BenchmarkClientHttpImpl.handleResponseHeadersOne c headers) (setFlag m s) =
        setFlag m (l.foldl (BenchmarkClientHttpImpl.handleResponseHeadersOne c headers) s) := by
    intro s l
    apply List.foldl_hom
    intro s plugin
    cases hok : c.pluginOk s.pluginCalls (.handleResponseHeaders plugin headers) <;>
      simp [BenchmarkClientHttpImpl.handleResponseHeadersOne, setFlag, hok]
  let counted := { s with requestsCompleted := s.requestsCompleted + 1 }
  cases success with
  | false => exact hfold { counted with counters := { s.counters with streamResets := s.counters.streamResets + 1 } } _
  | true => exact hfold (counted.countStatus (BenchmarkClient.statusClass headers.status.toInt64.toInt)) _

theorem decoder_onComplete_setFlag (d : StreamDecoder) (success : Bool) (now now' : ℤ) :
    d.onComplete c (setFlag m s) success now now' =
      (setFlag m (d.onComplete c s success now now').1, (d.onComplete c s success now now').2) := by
  unfold StreamDecoder.onComplete StreamDecoder.recordLatency
  refine Prod.ext ?_ rfl
  simp only
  rw [← client_onComplete_setFlag]
  split
  · split <;> rfl
  · rfl

theorem handle_setFlag (d : StreamDecoder) (e : StreamEvent) :
    d.handle c (setFlag m s) e = (setFlag m (d.handle c s e).1, (d.handle c s e).2) := by
  cases e with
  | onPoolReady now =>
    simp only [StreamDecoder.handle, StreamDecoder.onPoolReady]
    split <;> rfl
  | onPoolFailure reason => cases reason <;> rfl
  | decodeHeaders headers endStream now now' =>
    cases endStream with
    | false => rfl
    | true =>
      let d' := { d with
        complete := true
        responseHeaders := some headers
        streamInfo := { d.streamInfo with responseCode := some headers.status.toUInt32 } }
      exact decoder_onComplete_setFlag c m { s with statistic := { s.statistic with
        responseHeaderSize := s.statistic.responseHeaderSize ++ [headers.byteSize]
        originLatency := s.statistic.originLatency ++ d'.originDelta headers } } d' true now now'
  | decodeData data endStream now now' =>
    cases endStream with
    | false => exact Prod.ext (handleResponseData_setFlag c m s data) rfl
    | true =>
      have hcomplete := decoder_onComplete_setFlag c m s { d with
        complete := true
        streamInfo := { d.streamInfo with bytesSent := d.streamInfo.bytesSent + UInt64.ofNat data.length }
          } true now now'
      simp only [StreamDecoder.handle, StreamDecoder.decodeData, if_true, hcomplete,
        handleResponseData_setFlag]
  | decodeTrailers now now' => exact decoder_onComplete_setFlag c m s _ true now now'
  | onResetStream reason now now' => exact decoder_onComplete_setFlag c m s _ false now now'

theorem step_setFlag (b : Benchmark) (id : ℕ) (e : StreamEvent) :
    BenchmarkClient.step c { b with client := setFlag m b.client } (.stream id e) =
      (BenchmarkClient.step c b (.stream id e)).map fun b => { b with client := setFlag m b.client } := by
  simp only [BenchmarkClient.step]
  cases b.streams.lookup id with
  | none => rfl
  | some st =>
    simp only [handle_setFlag]
    cases st.allows e with
    | false => rfl
    | true =>
      rcases st.decoder.handle c b.client e with ⟨client, d | ⟨complete, success⟩⟩
      · rfl
      · rfl

end

/-! ## The worker -/

variable {c : Config} {w : ClientWorkerImpl}

theorem streamEvent_setFlag (w : ClientWorkerImpl) (m : Bool) (id : ℕ) (e : StreamEvent) :
    (w.setShouldMeasureLatencies m).streamEvent c id e =
      (w.streamEvent c id e).map fun r => (r.1.setShouldMeasureLatencies m, r.2) := by
  unfold ClientWorkerImpl.streamEvent
  rw [show (w.setShouldMeasureLatencies m).benchmark =
    { w.benchmark with client := setFlag m w.benchmark.client } from rfl, step_setFlag]
  cases BenchmarkClient.step c.client w.benchmark (.stream id e) with
  | none => rfl
  | some b =>
    simp only [Option.map_some, Option.bind_some]
    split_ifs
    · rfl
    · show (w.callbacks.lookup id).map _ = _
      cases w.callbacks.lookup id <;> rfl

theorem run_none {event : Sequencer.SequencerImpl.Script → Sequencer.Event}
    (h : ∀ r, Sequencer.step w.sequencer (event r) = none) (p : ClientWorkerImpl.Poll) :
    w.run c event p = none := by
  unfold ClientWorkerImpl.run
  simp only [ClientWorkerImpl.updateApproximateMonotonicTime, h, Option.map_none]
  cases ClientWorkerImpl.serve c _ _ p.turns <;> rfl

theorem step_drain {status : Sequencer.Status} (hj : Joined c w)
    (hended : Sequencer.Ended status w.sequencer) (m : Bool)
    (e : Event) :
    ∃ m', step c (w.setShouldMeasureLatencies m) e = (step c w e).map fun v =>
      v.setShouldMeasureLatencies m' := by
  have hstage : w.stage = .phase := by
    by_contra hne
    simpa [hj.waiting hne] using hended.started
  cases e with
  | work pool request now => exact ⟨m, by simp [step, ClientWorkerImpl.setShouldMeasureLatencies, hstage]⟩
  | start p => exact ⟨m, by simp [step, ClientWorkerImpl.setShouldMeasureLatencies, hstage]⟩
  | periodicTimer p =>
    have hstep : ∀ r, Sequencer.step w.sequencer (.periodicTimer r) = none :=
      (Polls.periodicTimer hstage p).not_ended hended
    refine ⟨m, ?_⟩
    simp only [step, run_none hstep, Option.map_none]
    exact run_none (w := w.setShouldMeasureLatencies m) hstep p
  | spinTimer p =>
    have hstep : ∀ r, Sequencer.step w.sequencer (.spinTimer r) = none :=
      (Polls.spinTimer hstage p).not_ended hended
    refine ⟨m, ?_⟩
    simp only [step, run_none hstep, Option.map_none]
    exact run_none (w := w.setShouldMeasureLatencies m) hstep p
  | stream a =>
    refine ⟨m, ?_⟩
    simp only [step, streamEvent_setFlag]
    rcases w.streamEvent c a.id a.event with _ | ⟨v, _ | _ | id⟩
    · rfl
    · rfl
    · rfl
    · show (Sequencer.step v.sequencer _).map _ = ((Sequencer.step v.sequencer _).map _).map _
      rw [Option.map_map]
      rfl
  | requestExecutionCancellation => exact ⟨m, rfl⟩
  | terminate => exact ⟨false, by simp [step, ClientWorkerImpl.setShouldMeasureLatencies, hended.exited]⟩

theorem exec_drain {status : Sequencer.Status} (hj : Joined c w)
    (hended : Sequencer.Ended status w.sequencer) (m : Bool)
    (fs : List Event) :
    (Runs.exec (step c) (w.setShouldMeasureLatencies m) fs).map (fun v => v.setShouldMeasureLatencies true) =
      (Runs.exec (step c) w fs).map fun v => v.setShouldMeasureLatencies true := by
  induction fs generalizing w m with
  | nil => rfl
  | cons e fs ih =>
    obtain ⟨m', hstep⟩ := step_drain hj hended m e
    simp only [Runs.exec, hstep]
    cases h : step c w e with
    | none => rfl
    | some v => exact ih (step_joined w e v hj h) (moves_ended hended (step_moves hj h)) m'

/-- The switch that `terminate` throws has no effect. Whatever its position when the dispatcher has
exited, every later event does the same, and the same samples are recorded. -/
theorem drain_ignores_switch {o : OptionsImpl} {startingTime time : ℤ} {w₀ : ClientWorkerImpl}
    {es : List Event}
    (hw : construct o startingTime time = some (.ok w₀)) (hrun : Runs.exec (step c) w₀ es = some w)
    (hexited : w.sequencer.dispatcherExited = true) (m : Bool) (fs : List Event) :
    (Runs.exec (step c) (w.setShouldMeasureLatencies m) fs).map (fun v => v.setShouldMeasureLatencies true) =
      (Runs.exec (step c) w fs).map fun v => v.setShouldMeasureLatencies true := by
  have hj := run_joined hw hrun
  cases hj.phase with
  | fresh i hs => simp [hs] at hexited
  | live hs => simp [hs.exited] at hexited
  | ended status hended => exact exec_drain hj hended m fs

theorem drain_ignores_switch_exchange :
    ∃ c w₀ w, construct slow 0 0 = some (.ok w₀) ∧
      Runs.exec (step c) w₀ (exchange.take 3 ++ [.periodicTimer ⟨5000000000, fun _ => 0, []⟩]) = some w ∧
      (Runs.exec (step c) w (exchange.drop 3)).isSome ∧
      (Runs.exec (step c) (w.setShouldMeasureLatencies false) (exchange.drop 3)).map
          (fun v => v.setShouldMeasureLatencies true) =
        (Runs.exec (step c) w (exchange.drop 3)).map fun v => v.setShouldMeasureLatencies true := by
  obtain ⟨c, hc⟩ : ∃ c, configure slow 0 0 (fun _ _ => true) = some c := ⟨_, rfl⟩
  obtain ⟨w₀, hw⟩ : ∃ w₀, construct slow 0 0 = some (.ok w₀) := ⟨_, rfl⟩
  have hmap : (Runs.exec (step c) w₀ (exchange.take 3 ++ [.periodicTimer ⟨5000000000, fun _ => 0, []⟩])).map
      (fun w => (w.sequencer.dispatcherExited, (Runs.exec (step c) w (exchange.drop 3)).isSome)) =
        some (true, true) := by
    cases hc
    cases hw
    decide +kernel
  obtain ⟨w, hrun, heq⟩ := Option.map_eq_some_iff.mp hmap
  obtain ⟨hexited, hlater⟩ := Prod.mk.inj heq
  exact ⟨c, w₀, w, hw, hrun, hlater, drain_ignores_switch hw hrun hexited false _⟩

end Nighthawk.Worker
