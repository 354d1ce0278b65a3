import Nighthawk.BenchmarkClient.Accounting
import Nighthawk.Worker.Accounts

/-!
# The duration and the rate

The clock that the termination predicates and the limiter read is updated at the start of a run.
A callback of the sequencer updates it again, also when it fires inside a target call, and from
then on the limiter sees a later time than the predicates did.
-/

namespace Nighthawk.Worker

open BenchmarkClient (StreamEvent)
open Options (OptionsImpl)
open RateLimiter (LawfulMeter LinearRateLimiter Valid bottom)
open Sequencer.SequencerImpl (Attempt)

variable {c : Config} {w w' : ClientWorkerImpl}

/-! ## Runs in which the clock stands still -/

/-- No target call of the event completes before it returns. -/
def Event.Quiet (e : Event) : Prop := ∀ a ∈ e.inline, a.event.ends = false

instance (e : Event) : Decidable e.Quiet := inferInstanceAs (Decidable (∀ a ∈ e.inline, _))

theorem handle_ongoing (c : BenchmarkClient.Config) (d : BenchmarkClient.StreamDecoder)
    (s : BenchmarkClient.BenchmarkClientHttpImpl) {e : StreamEvent} (h : e.ends = false) :
    ∃ d', (d.handle c s e).2 = .ongoing d' := by
  cases e with
  | onPoolReady now => exact ⟨_, rfl⟩
  | onPoolFailure reason => cases h
  | decodeHeaders headers endStream now now' =>
    obtain rfl : endStream = false := h
    exact ⟨_, rfl⟩
  | decodeData data endStream now now' =>
    obtain rfl : endStream = false := h
    exact ⟨_, rfl⟩
  | decodeTrailers now now' => cases h
  | onResetStream reason now now' => cases h

theorem streamEvent_quiet {id : ℕ} {e : StreamEvent} {r : Option CompletionCallback} (he : e.ends = false)
    (h : w.streamEvent c id e = some (w', r)) : r = none := by
  unfold ClientWorkerImpl.streamEvent at h
  obtain ⟨b, hb, h⟩ := Option.bind_eq_some_iff.mp h
  obtain ⟨st, -, -, ⟨client, d, -, rfl⟩ | ⟨client, complete, success, hended, -⟩⟩ :=
    BenchmarkClient.step_stream hb
  · simp only [if_true, Option.some.injEq, Prod.mk.injEq] at h
    exact h.2.symm
  · obtain ⟨d, hd⟩ := handle_ongoing c.client st.decoder w.benchmark.client he
    rw [hended] at hd
    cases hd

theorem turn_time {calls : ℕ} {t : ClientWorkerImpl.Turn} {r : Option Attempt}
    (hquiet : ∀ a ∈ t.inline, a.event.ends = false) (h : w.turn c calls t = some (w', r)) :
    w'.limiter.time = w.limiter.time := by
  obtain ⟨limiter, hlimiter, hcases⟩ := turn_cases h
  have htime := RateLimiter.Session.tryAcquireOne_time hlimiter
  rcases hcases with ⟨-, -, rfl⟩ | ⟨-, b, completions, -, -, -, hinline, -⟩ | ⟨-, limiter', hrelease, -, rfl⟩
  · exact htime
  · refine inlineEvents_keeps (P := fun v => v.limiter.time = w.limiter.time) ?_ htime hinline
    intro a ha v v' r hv hstream
    obtain rfl := streamEvent_quiet (hquiet a ha) hstream
    exact ⟨(congrArg _ (streamEvent_frame hstream).2.1).trans hv, fun hne => absurd rfl hne⟩
  · exact (RateLimiter.Session.releaseOne_time hrelease).trans htime

theorem loop_time {calls : ℕ} {turns : List ClientWorkerImpl.Turn} {attempts : List Attempt}
    (hquiet : ∀ a ∈ turns.flatMap (·.inline), a.event.ends = false)
    (h : w.loop c calls turns = some (w', attempts)) :
    w'.limiter.time = w.limiter.time := by
  refine loop_keeps (P := fun _ u => u.limiter.time = w.limiter.time) (n := 0) ?_ rfl h
  intro t ht n u calls u' r hu hone
  exact (turn_time (fun a ha => hquiet a (List.mem_flatMap.mpr ⟨t, ht, ha⟩)) hone).trans hu

/-! ## The end of the run -/

/-- The last time at which the duration predicate lets a run proceed. -/
def deadline (o : OptionsImpl) (startingTime : ℤ) : ℤ := startingTime + o.duration.toNat * 10 ^ 9

theorem configure_spec {o : OptionsImpl} {startingTime : ℤ} {plugins : ℕ}
    {pluginOk : List BenchmarkClient.PluginCall → BenchmarkClient.PluginCall → Bool}
    (h : configure o startingTime plugins pluginOk = some c) (w : ClientWorkerImpl)
    (p : ClientWorkerImpl.Poll) :
    Sequencer.evaluateChain (w.predicates c p) =
      let world : Termination.World := ⟨w.counters p.envoy, w.limiter.time⟩
      if Termination.Exceeded world o.terminationPredicates then .terminate
      else if Termination.Exceeded world o.failurePredicates then .fail
      else if Termination.DurationPassed o startingTime world ∨
        Termination.GracefulStopRequested world then .terminate
      else .proceed := by
  obtain ⟨predicate, hcreate, rfl⟩ := Option.map_eq_some_iff.mp h
  rw [ClientWorkerImpl.predicates, ← Termination.TerminationPredicate.evaluateChain_eq,
    Termination.evaluateChain_create hcreate]

section

variable {o : OptionsImpl} {startingTime : ℤ} {plugins : ℕ}
  {pluginOk : List BenchmarkClient.PluginCall → BenchmarkClient.PluginCall → Bool}
  (hc : configure o startingTime plugins pluginOk = some c)
include hc

theorem proceed_spec {p : ClientWorkerImpl.Poll} (h : Sequencer.evaluateChain (w.predicates c p) = .proceed) :
    (o.noDuration = false → w.limiter.time ≤ deadline o startingTime) ∧
      UInt64.ofNat w.gracefulStopRequested = 0 := by
  rw [configure_spec hc] at h
  simp only at h
  split_ifs at h with hterminate hfail hlast
  rw [not_or] at hlast
  constructor
  · intro hduration
    have hnot := hlast.1
    simp only [Termination.DurationPassed, hduration, true_and, not_lt, gt_iff_lt] at hnot
    unfold deadline
    omega
  · have hnot := hlast.2
    simp only [Termination.GracefulStopRequested, gt_iff_lt, UInt64.not_lt] at hnot
    exact UInt64.le_zero_iff.mp hnot

end

/-- What the limiter granted was granted by the deadline. -/
def InTime (o : OptionsImpl) (startingTime : ℤ) (w : ClientWorkerImpl) : Prop :=
  ∃ t, t ≤ deadline o startingTime ∧ t ≤ w.limiter.time ∧ Valid w.limiter.stack t

section

variable {o : OptionsImpl} {startingTime time : ℤ} {plugins : ℕ}
  {pluginOk : List BenchmarkClient.PluginCall → BenchmarkClient.PluginCall → Bool}

theorem InTime.later (h : InTime o startingTime w) (gap : ℕ) (hstack : w'.limiter.stack = w.limiter.stack)
    (htime : w'.limiter.time = w.limiter.time + gap) : InTime o startingTime w' := by
  obtain ⟨t, hdeadline, hle, hvalid⟩ := h
  exact ⟨t, hdeadline, by omega, by rw [hstack]; exact hvalid⟩

theorem moves_inTime (hc : configure o startingTime plugins pluginOk = some c)
    (hduration : o.noDuration = false)
    {e : Event} (hquiet : e.Quiet) (hj : Joined c w) (h : InTime o startingTime w) (hmoves : Moves c w e w') :
    InTime o startingTime w' := by
  have hsame : ∀ {v : ClientWorkerImpl}, v.limiter = w.limiter → InTime o startingTime v := fun hv =>
    h.later 0 (by rw [hv]) (by rw [hv]; simp)
  cases hmoves with
  | ready hstage => exact hsame rfl
  | warmUp hstage hwarmup hstart hstarted hkeys => exact hsame rfl
  | stop hpoll hstep hstatus hended hmatched hinit => cases hpoll <;> exact h.later _ rfl rfl
  | serve hpoll hstep hstatus hloop hmatched hinit =>
    -- The run proceeds, so it began by the deadline, and the clock stood still during the loop.
    have hmetered := (loop_metered ((hpoll.joined hj).metered.later _) hloop).1
    have htime := loop_time (by rw [← hpoll.arrivals.2]; exact hquiet) hloop
    exact ⟨_, htime ▸ (proceed_spec hc hstatus).1 hduration, le_rfl, hmetered.counted.valid⟩
  | ongoing hstream => exact hsame (streamEvent_frame hstream).2.1
  | warmedUp hstream => exact hsame (streamEvent_frame hstream).2.1
  | complete hstream hcomplete =>
    have hlimiter := (streamEvent_frame hstream).2.1
    rename_i a v id s
    refine h.later a.gap ?_ ?_
    · simp only [ClientWorkerImpl.updateApproximateMonotonicTime, hlimiter]
    · simp only [ClientWorkerImpl.updateApproximateMonotonicTime, hlimiter]
  | cancel => exact hsame rfl
  | terminate hexited => exact hsame rfl

theorem due_duration {f : RateLimiter.Frequency} (hf : 0 < f.hertz) (n : ℕ) :
    LinearRateLimiter.due f (n * 10 ^ 9) = n * f.hertz := by
  have hseconds : ((n * 10 ^ 9 : ℤ) : ℚ) / 10 ^ 9 = n := by
    push_cast
    ring
  rw [LinearRateLimiter.due_eq f hf, hseconds, Int.floor_eq_iff]
  push_cast
  constructor <;> linarith

theorem Metered.le_due {n requestsPerSecond : ℕ} {l : RateLimiter.Session} (h : Metered n l)
    (hrps : 0 < requestsPerSecond) (hstarts : RateLimiter.starts l.stack = [startingTime])
    (hfrequency : (bottom l.stack).frequency = ⟨requestsPerSecond⟩) {t : ℤ} (hvalid : Valid l.stack t) :
    n ≤ (LinearRateLimiter.due ⟨requestsPerSecond⟩ (t - startingTime)).toNat := by
  have hnet := LawfulMeter.net_le hvalid
  have hacquired := h.acquired
  rw [h.counted.count, LinearRateLimiter.ceiling] at hnet
  cases hstart : (bottom l.stack).startTime with
  | none =>
    simp only [hstart] at hnet
    omega
  | some start =>
    simp only [hstart, hfrequency] at hnet
    have hopen : startingTime ≤ start := by
      rw [h.counted.begun.startTime_eq hstarts] at hstart
      simpa using List.find?_some hstart
    have hdue := LinearRateLimiter.due_mono ⟨requestsPerSecond⟩ hrps
      (show t - start ≤ t - startingTime by omega)
    omega

theorem InTime.initiated_le {w₀ : ClientWorkerImpl} (h : InTime o startingTime w) (hj : Joined c w)
    (hw : construct o startingTime time = some (.ok w₀))
    (hfixed : RateLimiter.Fixed w₀.limiter.stack w.limiter.stack) :
    w.sequencer.targetsInitiated ≤ o.duration.toNat * o.requestsPerSecond.toNat := by
  obtain ⟨stack, hstack, rfl⟩ := construct_spec hw
  obtain ⟨-, -, hstarts, hfrequency⟩ := RateLimiter.create_spec hstack time
  obtain ⟨t, hdeadline, -, hvalid⟩ := h
  have hrps := RateLimiter.create_positive hstack
  have hle := hj.metered.le_due hrps (hfixed.starts.trans hstarts) (hfixed.frequency.trans hfrequency)
    (LawfulMeter.valid_mono hvalid hdeadline)
  have hduration := due_duration (f := ⟨o.requestsPerSecond.toNat⟩) hrps o.duration.toNat
  rwa [deadline, add_sub_cancel_left, hduration, ← Nat.cast_mul, Int.toNat_natCast] at hle

/-- A worker with a duration never starts more requests than the rate allows for that duration, as
long as no target call completes before it returns. -/
theorem duration_ceiling {w₀ : ClientWorkerImpl} {es : List Event}
    (hc : configure o startingTime plugins pluginOk = some c)
    (hw : construct o startingTime time = some (.ok w₀))
    (hduration : o.noDuration = false) (hquiet : ∀ e ∈ es, e.Quiet)
    (hrun : Runs.exec (step c) w₀ es = some w) :
    w.sequencer.targetsInitiated ≤ o.duration.toNat * o.requestsPerSecond.toNat := by
  have hinit : InTime o startingTime w₀ := by
    obtain ⟨stack, hstack, rfl⟩ := construct_spec hw
    exact ⟨min time (deadline o startingTime), min_le_right _ _, min_le_left _ _,
      (RateLimiter.create_spec hstack _).1⟩
  have hkeep : ∀ u e v, (Joined c u ∧ InTime o startingTime u) → e.Quiet → step c u e = some v →
      (Joined c v ∧ InTime o startingTime v) := by
    intro u e v ⟨hj, hu⟩ he hstep
    exact ⟨step_joined u e v hj hstep, moves_inTime hc hduration he hj hu (step_moves hj hstep)⟩
  have hall : Runs.AllSteps (step c) (fun _ e => e.Quiet) w₀ es :=
    Runs.allSteps_of_forall (fun e he _ => hquiet e he) w₀
  have hintime := (Runs.exec_inv_of_allSteps hkeep ⟨joined_init c hw, hinit⟩ hall hrun).2
  exact hintime.initiated_le (run_joined hw hrun) hw (run_fixed hw hrun)

end

theorem duration_ceiling_exchange :
    ∃ c w₀ w, configure slow 0 0 (fun _ _ => true) = some c ∧ construct slow 0 0 = some (.ok w₀) ∧
      Runs.exec (step c) w₀ exchange = some w ∧ w.sequencer.targetsInitiated = 1 ∧
      w.sequencer.targetsInitiated ≤ slow.duration.toNat * slow.requestsPerSecond.toNat := by
  obtain ⟨c, hc⟩ : ∃ c, configure slow 0 0 (fun _ _ => true) = some c := ⟨_, rfl⟩
  obtain ⟨w₀, hw⟩ : ∃ w₀, construct slow 0 0 = some (.ok w₀) := ⟨_, rfl⟩
  have hmap : (Runs.exec (step c) w₀ exchange).map (·.sequencer.targetsInitiated) = some 1 := by
    cases hc
    cases hw
    decide +kernel
  obtain ⟨w, hrun, hinitiated⟩ := Option.map_eq_some_iff.mp hmap
  exact ⟨c, w₀, w, hc, hw, hrun, hinitiated, duration_ceiling hc hw rfl (by decide) hrun⟩

/-- One request a second for one second. -/
def brief : OptionsImpl := { slow with duration := 1, connections := 2 }

/-- The first target call fails inside the call, and the callback moves the clock past the deadline. -/
def overrun : List Event :=
  [.work true none 0, .start ⟨0, fun _ => 0, [.plain []]⟩,
    .periodicTimer ⟨1000000000, fun _ => 0,
      [.plain [⟨0, .onPoolFailure .remoteConnectionFailure, 1000000000⟩], .plain [], .plain []]⟩]

/-- The limiter then grants what the duration predicate would no longer have allowed. -/
theorem duration_overrun :
    ∃ c w₀ w, configure brief 0 0 (fun _ _ => true) = some c ∧ construct brief 0 0 = some (.ok w₀) ∧
      Runs.exec (step c) w₀ overrun = some w ∧ w.limiter.acquiredAt = [1000000000, 2000000000] ∧
      brief.duration.toNat * brief.requestsPerSecond.toNat < w.sequencer.targetsInitiated := by
  obtain ⟨c, hc⟩ : ∃ c, configure brief 0 0 (fun _ _ => true) = some c := ⟨_, rfl⟩
  obtain ⟨w₀, hw⟩ : ∃ w₀, construct brief 0 0 = some (.ok w₀) := ⟨_, rfl⟩
  have hmap : (Runs.exec (step c) w₀ overrun).map (fun w =>
    (w.limiter.acquiredAt, w.sequencer.targetsInitiated)) =
      some ([1000000000, 2000000000], 2) := by
    cases hc
    cases hw
    decide +kernel
  obtain ⟨w, hrun, heq⟩ := Option.map_eq_some_iff.mp hmap
  obtain ⟨hacquired, hinitiated⟩ := Prod.mk.inj heq
  exact ⟨c, w₀, w, hc, hw, hrun, hacquired, by rw [hinitiated]; decide⟩

end Nighthawk.Worker
