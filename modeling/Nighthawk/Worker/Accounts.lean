import Nighthawk.Lib.Fallible
import Nighthawk.Worker.Moves

/-!
# The accounts of a worker

The acquisitions of the limiter, the targets of the sequencer and the streams of the client are
counted in three places. They agree after every event of every run.
-/

namespace Nighthawk.Worker

open Options (OptionsImpl)
open RateLimiter (Fixed allowance)
open Sequencer (SequencerImpl)

variable {c : Config} {w w' : ClientWorkerImpl}

/-! ## Runs -/

theorem step_joined (w : ClientWorkerImpl) (e : Event) (w' : ClientWorkerImpl) (hj : Joined c w)
    (h : step c w e = some w') : Joined c w' :=
  moves_joined hj (step_moves hj h)

section

variable {o : OptionsImpl} {startingTime time : ℤ} {w₀ : ClientWorkerImpl}

theorem construct_spec (h : construct o startingTime time = some (.ok w₀)) :
    ∃ stack, RateLimiter.create o.requestsPerSecond.toNat o.burstSize.toNat o.jitterUniform
      startingTime = .ok stack ∧
      w₀ = { sequencer := { idleStrategy := idleStrategy o }
             limiter := { stack, time, maxDelay := o.jitterUniform.toNat } } := by
  obtain ⟨limiter, hlimiter, hmap⟩ := Option.map_eq_some_iff.mp h
  unfold createRateLimiter at hlimiter
  split_ifs at hlimiter
  cases hlimiter
  obtain ⟨stack, hstack, rfl⟩ := Fallible.map_eq_ok.mp hmap
  exact ⟨stack, hstack, rfl⟩

theorem joined_init (c : Config) (h : construct o startingTime time = some (.ok w₀)) : Joined c w₀ := by
  obtain ⟨stack, hstack, rfl⟩ := construct_spec h
  exact ⟨⟨rfl, List.nodup_nil, by simp, rfl⟩, Sequencer.balanced_init _, .fresh _ rfl,
    ⟨RateLimiter.counted_init hstack time _, rfl⟩, fun _ => rfl, fun _ p hp => (by cases hp),
    fun hwarming => (by cases hwarming), 0, rfl, Nat.zero_le _⟩

variable {es : List Event}

theorem run_joined (h : construct o startingTime time = some (.ok w₀))
    (hrun : Runs.exec (step c) w₀ es = some w) :
    Joined c w :=
  Runs.exec_inv step_joined (joined_init c h) hrun

theorem run_fixed (h : construct o startingTime time = some (.ok w₀))
    (hrun : Runs.exec (step c) w₀ es = some w) :
    Fixed w₀.limiter.stack w.limiter.stack := by
  have hkeep : ∀ u e v, (Joined c u ∧ Fixed w₀.limiter.stack u.limiter.stack) → step c u e = some v →
      (Joined c v ∧ Fixed w₀.limiter.stack v.limiter.stack) := by
    intro u e v ⟨hj, hfixed⟩ hstep
    exact ⟨step_joined u e v hj hstep, hfixed.trans (moves_fixed hj (step_moves hj hstep))⟩
  exact (Runs.exec_inv hkeep ⟨joined_init c h, ⟨rfl, rfl, fun _ ht => ht⟩⟩ hrun).2

end

/-! ## In flight -/

/-- Every stream but the one of the warm-up is one that the sequencer waits for. -/
theorem Joined.inFlight (hj : Joined c w) :
    w.benchmark.streams.length + w.sequencer.targetsCompleted =
      w.sequencer.targetsInitiated + if w.stage = .warmingUp then 1 else 0 := by
  have hcallbacks := hj.balanced.callbacks
  have hstreams : w.callbacks.length = w.benchmark.streams.length := by
    simpa using congrArg List.length hj.matched.streams
  have hout : w.sequencer.outstanding.length = (targets w.callbacks).length := by
    simpa using congrArg List.length hj.matched.outstanding
  by_cases hwarming : w.stage = .warmingUp
  · obtain ⟨id, hone⟩ := hj.warming hwarming
    rw [hone] at hstreams hout
    simp only [targets, List.filterMap_cons, CompletionCallback.target, List.filterMap_nil, List.length_nil,
      List.length_singleton] at hstreams hout
    rw [if_pos hwarming]
    omega
  · have hall : (targets w.callbacks).length = w.callbacks.length := by
      rw [targets, List.length_filterMap_eq_countP, List.countP_eq_length]
      intro p hp
      have hexit := hj.warmedUp hwarming p hp
      cases hcallback : p.2 with
      | exitDispatcher => exact absurd hcallback hexit
      | sequencer id => rfl
    rw [if_neg hwarming]
    omega

theorem exec_accounted {o : OptionsImpl} {startingTime time : ℤ} {w₀ : ClientWorkerImpl} {es : List Event}
    (hclosed : c.client.provideResourceBackpressure = true)
    (h : construct o startingTime time = some (.ok w₀))
    (hrun : Runs.exec (step c) w₀ es = some w) : ∃ n, BenchmarkClient.Accounted c.client n w.benchmark := by
  have hkeep : ∀ u e v, (Joined c u ∧ ∃ n, BenchmarkClient.Accounted c.client n u.benchmark) →
    step c u e = some v →
      (Joined c v ∧ ∃ n, BenchmarkClient.Accounted c.client n v.benchmark) := by
    intro u e v ⟨hj, hu⟩ hstep
    refine ⟨step_joined u e v hj hstep, ?_⟩
    refine moves_client (Q := fun _ => True)
      (P := fun b => ∃ n, BenchmarkClient.Accounted c.client n b) ?_ ?_ ?_
      (fun _ _ => trivial) hu (step_moves hj hstep)
    · intro b pool request now b' ⟨n, hn⟩ hb
      exact ⟨n, BenchmarkClient.start_accounted hclosed hn hb⟩
    · intro b id e b' _ ⟨n, hn⟩ hb
      exact ⟨_, BenchmarkClient.stream_accounted hn hb⟩
    · intro u m ⟨n, hn⟩
      exact ⟨n, hn.counts, hn.bound, hn.nodup, hn.fresh⟩
  have hinit : ∃ n, BenchmarkClient.Accounted c.client n w₀.benchmark := by
    obtain ⟨stack, -, rfl⟩ := construct_spec h
    exact ⟨0, BenchmarkClient.accounted_init c.client false⟩
  exact (Runs.exec_inv hkeep ⟨joined_init c h, hinit⟩ hrun).2

/-! ## The accounts -/

/-- The three counts of a worker with these options, and the limits on them. -/
structure Accounts (o : OptionsImpl) (startingTime : ℤ) (c : Config) (w : ClientWorkerImpl) : Prop where
  inFlight : w.benchmark.streams.length + w.sequencer.targetsCompleted =
    w.sequencer.targetsInitiated + if w.stage = .warmingUp then 1 else 0
  acquired : w.limiter.acquiredAt.length = w.limiter.released + w.sequencer.targetsInitiated
  atLeast : w.sequencer.targetsInitiated ≤ w.benchmark.started
  atMost : w.benchmark.started ≤ w.sequencer.targetsInitiated + if o.simpleWarmup then 1 else 0
  rate : ∀ t, w.limiter.time ≤ t →
    (w.sequencer.targetsInitiated : ℤ) ≤
    allowance o.requestsPerSecond.toNat (w.limiter.firstPoll startingTime) t
  opened : ∀ u ∈ w.limiter.acquiredAt, startingTime ≤ u
  closedLoop : o.openLoop = false →
    w.benchmark.streams.length ≤ o.maxPendingRequests.toNat + c.client.activeLimit.toNat
  sound : w.sequencer.faults = [] ∧ ∀ v ∈ w.limiter.violations, v.fatal = false

theorem phase_faults {s : SequencerImpl} (h : Sequencer.Phase s) : s.faults = [] := by
  cases h with
  | fresh i hs => rw [hs]
  | live hs => exact hs.faults
  | ended status hs => exact hs.faults

theorem worker_accounts {o : OptionsImpl} {startingTime time : ℤ} {plugins : ℕ}
    {pluginOk : List BenchmarkClient.PluginCall → BenchmarkClient.PluginCall → Bool} {w₀ : ClientWorkerImpl}
    {es : List Event}
    (hc : configure o startingTime plugins pluginOk = some c)
    (hw : construct o startingTime time = some (.ok w₀))
    (hrun : Runs.exec (step c) w₀ es = some w) : Accounts o startingTime c w := by
  have hj := run_joined hw hrun
  have hfixed := run_fixed hw hrun
  obtain ⟨predicate, -, rfl⟩ := Option.map_eq_some_iff.mp hc
  obtain ⟨k, hk, hle⟩ := hj.started
  obtain ⟨stack, hstack, hw₀⟩ := construct_spec hw
  obtain ⟨-, -, hstarts, hfrequency⟩ := RateLimiter.create_spec hstack time
  rw [hw₀] at hfixed
  have hone := hfixed.starts.trans hstarts
  refine ⟨hj.inFlight, hj.metered.acquired, by omega, ?_, fun t ht => ?_, fun u hu => ?_, fun hopen => ?_,
    phase_faults hj.phase, hj.metered.counted.clean⟩
  · have hwarm : k ≤ if o.simpleWarmup then 1 else 0 := by
      cases hwarmup : o.simpleWarmup <;> simp [hwarmup] at hle ⊢
      · exact hle
      · split_ifs at hle <;> omega
    omega
  · have hcount := hj.metered.counted.le_allowance (RateLimiter.create_positive hstack)
      (hfixed.frequency.trans hfrequency) ht
    rw [hj.metered.counted.begun.startTime_eq hone] at hcount
    have hacquired := hj.metered.acquired
    omega
  · exact (RateLimiter.open_singleton hone u).mp (hj.metered.counted.started u hu)
  · obtain ⟨n, hn⟩ := exec_accounted (by simp [createBenchmarkClient, hopen]) hw hrun
    have hbound := hn.bound
    rw [BenchmarkClient.maxInFlight_toNat, BenchmarkClient.outstanding] at hbound
    exact (Nat.le_add_right _ n).trans hbound

/-- One request a second over one connection. -/
def slow : OptionsImpl := { Options.setNonTrivialDefaults with requestsPerSecond := 1, connections := 1 }

/-- A turn in which there is a pool and a request. -/
def ClientWorkerImpl.Turn.plain (inline : List ClientWorkerImpl.Arrival) : ClientWorkerImpl.Turn :=
  ⟨0, true, some ⟨[], []⟩, 0, inline⟩

/-- The first request is due after a second, and gets its response. -/
def exchange : List Event :=
  [.work true none 0, .start ⟨0, fun _ => 0, [.plain []]⟩,
    .periodicTimer ⟨1000000000, fun _ => 0, [.plain [⟨0, .onPoolReady 1, 0⟩], .plain []]⟩,
    .stream ⟨0, .decodeHeaders ⟨200, 0, []⟩ true 2 2, 3⟩]

theorem worker_accounts_exchange :
    ∃ c w₀ w, configure slow 0 0 (fun _ _ => true) = some c ∧ construct slow 0 0 = some (.ok w₀) ∧
      Runs.exec (step c) w₀ exchange = some w ∧ w.sequencer.targetsCompleted = 1 ∧ Accounts slow 0 c w := by
  obtain ⟨c, hc⟩ : ∃ c, configure slow 0 0 (fun _ _ => true) = some c := ⟨_, rfl⟩
  obtain ⟨w₀, hw⟩ : ∃ w₀, construct slow 0 0 = some (.ok w₀) := ⟨_, rfl⟩
  have hmap : (Runs.exec (step c) w₀ exchange).map (·.sequencer.targetsCompleted) = some 1 := by
    cases hc
    cases hw
    decide +kernel
  obtain ⟨w, hrun, hcompleted⟩ := Option.map_eq_some_iff.mp hmap
  exact ⟨c, w₀, w, hc, hw, hrun, hcompleted, worker_accounts hc hw hrun⟩

end Nighthawk.Worker
