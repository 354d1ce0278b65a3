import Mathlib.Algebra.Order.Round
import Nighthawk.RateLimiter.Caller

/-!
# The ramping limiter keeps its schedule

`LinearRampingRateLimiterImpl` raises its rate evenly from nothing to the target frequency, and
then keeps it. It takes any available count but zero as leave to acquire, also a negative one.
That is right because the schedule never falls, also not where the ramp ends.
-/

namespace Nighthawk.RateLimiter

/-- `std::round`, which rounds halves away from zero. -/
def stdRound (x : ℚ) : ℤ := if 0 ≤ x then ⌊x + 1 / 2⌋ else ⌈x - 1 / 2⌉

structure LinearRampingRateLimiterImpl where
  rampTime : ℤ
  frequency : Frequency
  startTime : Option ℤ := none
  acquireableCount : ℤ := 0
  acquiredCount : ℤ := 0
  deriving DecidableEq, Repr

namespace LinearRampingRateLimiterImpl

def targetFreqNs (l : LinearRampingRateLimiterImpl) : ℚ := l.frequency.hertz / 10 ^ 9

def totalRampRequests (l : LinearRampingRateLimiterImpl) : ℤ := stdRound (l.rampTime * l.targetFreqNs / 2)

def new (rampTime : ℤ) (frequency : Frequency) : Except String LinearRampingRateLimiterImpl :=
  if frequency.hertz = 0 then .error ("frequency must be > 0, value: " ++ toString frequency.hertz)
  else if rampTime ≤ 0 then .error ("ramp_time must be positive, value: " ++ toString rampTime)
  else .ok { rampTime, frequency }

def elapsed (l : LinearRampingRateLimiterImpl) (e : Env) : ℤ × LinearRampingRateLimiterImpl × Env :=
  let (now, e) := e.monotonicTime
  let start := l.startTime.getD now
  (now - start, { l with startTime := some start }, e)

/-- The acquisitions that are due after so many nanoseconds. -/
def total (l : LinearRampingRateLimiterImpl) (nanos : ℤ) : ℤ :=
  if nanos < l.rampTime then
    let elapsedFraction : ℚ := 1 - (l.rampTime - nanos) / l.rampTime
    let currentFrequency := elapsedFraction * l.frequency.hertz
    stdRound (nanos / 10 ^ 9 * currentFrequency / 2)
  else l.totalRampRequests + stdRound ((nanos - l.rampTime) * l.targetFreqNs)

def acquire (l : LinearRampingRateLimiterImpl) : LinearRampingRateLimiterImpl :=
  { l with acquireableCount := l.acquireableCount - 1, acquiredCount := l.acquiredCount + 1 }

def tryAcquireOne (l : LinearRampingRateLimiterImpl) (e : Env) : Bool × LinearRampingRateLimiterImpl × Env :=
  if l.acquireableCount ≠ 0 then (true, l.acquire, e)
  else
    let (nanos, l, e) := l.elapsed e
    let l := { l with acquireableCount := l.total nanos - l.acquiredCount }
    if 0 < l.acquireableCount then (true, l.acquire, e) else (false, l, e)

def releaseOne (l : LinearRampingRateLimiterImpl) (e : Env) : Released LinearRampingRateLimiterImpl :=
  ⟨{ l with acquireableCount := l.acquireableCount + 1, acquiredCount := l.acquiredCount - 1 }, e, []⟩

instance : Limiter LinearRampingRateLimiterImpl := ⟨tryAcquireOne, releaseOne⟩

end LinearRampingRateLimiterImpl

/-! ## The plugin -/

/-- `LinearRampingRateLimiterConfig`: the two fields of its `ramp_time`. -/
structure LinearRampingRateLimiterConfig where
  seconds : ℤ
  nanos : ℤ
  deriving DecidableEq, Repr

/-- The options that the factory reads. `duration` is in seconds. -/
structure RampingOptions where
  requestsPerSecond : ℕ
  noDuration : Bool
  duration : ℤ
  deriving DecidableEq, Repr

/-- What `createRateLimiterPlugin` does once the configuration is unpacked. -/
def createRateLimiterPlugin (config : LinearRampingRateLimiterConfig) (options : RampingOptions) :
    Except String LinearRampingRateLimiterImpl :=
  let rampTime := config.seconds * 10 ^ 9 + config.nanos
  if rampTime ≤ 0 then .error "ramp_time must be positive and > 0ns"
  else if !options.noDuration ∧ rampTime > options.duration * 10 ^ 9 then
    .error "ramp_time must be less than or equal to time specified by --duration"
  else LinearRampingRateLimiterImpl.new rampTime ⟨options.requestsPerSecond⟩

/-! ## The schedule -/

/-- The acquisitions that are due `e` seconds after the start, with a ramp of `R` seconds. -/
def rampSchedule (f : ℕ) (R e : ℚ) : ℤ :=
  if e < R then round (f * e ^ 2 / (2 * R)) else round (f * R / 2) + round (f * (e - R))

theorem round_mono {x y : ℚ} (h : x ≤ y) : round x ≤ round y := by
  rw [round_eq, round_eq]
  apply Int.floor_le_floor
  gcongr

theorem round_nonneg {x : ℚ} (h : 0 ≤ x) : 0 ≤ round x := by
  have := round_mono h
  rwa [round_zero] at this

theorem stdRound_eq {x : ℚ} (h : 0 ≤ x) : stdRound x = round x := by
  rw [stdRound, if_pos h, round_eq]

theorem rampSchedule_mono (f : ℕ) {R : ℚ} (hR : 0 < R) {e e' : ℚ} (he : 0 ≤ e) (h : e ≤ e') :
    rampSchedule f R e ≤ rampSchedule f R e' := by
  unfold rampSchedule
  split_ifs with h1 h2 h2
  · apply round_mono
    gcongr
  · have hramp : round (f * e ^ 2 / (2 * R)) ≤ round (f * R / 2) := by
      apply round_mono
      rw [div_le_div_iff₀ (by positivity) (by norm_num)]
      have hsq : e ^ 2 ≤ R * R := by nlinarith
      have hf : (0 : ℚ) ≤ f := Nat.cast_nonneg f
      nlinarith
    have hrest : 0 ≤ round (f * (e' - R)) := by
      apply round_nonneg
      have : 0 ≤ e' - R := by linarith
      positivity
    omega
  · exact absurd (lt_of_le_of_lt h h2) h1
  · have hrest : round (f * (e - R)) ≤ round (f * (e' - R)) := by
      apply round_mono
      gcongr
    omega

theorem rampSchedule_zero (f : ℕ) {R : ℚ} (hR : 0 < R) : rampSchedule f R 0 = 0 := by
  rw [rampSchedule, if_pos hR]
  norm_num

namespace LinearRampingRateLimiterImpl

theorem total_eq (l : LinearRampingRateLimiterImpl) (hR : 0 < l.rampTime) {nanos : ℤ} (h : 0 ≤ nanos) :
    l.total nanos = rampSchedule l.frequency.hertz (l.rampTime / 10 ^ 9) (nanos / 10 ^ 9) := by
  have hR' : (0 : ℚ) < l.rampTime := by exact_mod_cast hR
  have hn : (0 : ℚ) ≤ nanos := by exact_mod_cast h
  have hlt : ((nanos : ℚ) / 10 ^ 9 < l.rampTime / 10 ^ 9) ↔ nanos < l.rampTime := by
    rw [div_lt_div_iff_of_pos_right (by norm_num)]
    exact_mod_cast Iff.rfl
  unfold total rampSchedule
  simp only [hlt]
  split_ifs with hramp
  · have heq : (nanos : ℚ) / 10 ^ 9 * ((1 - (l.rampTime - nanos) / l.rampTime) * l.frequency.hertz) / 2 =
        l.frequency.hertz * (nanos / 10 ^ 9) ^ 2 / (2 * (l.rampTime / 10 ^ 9)) := by
      field_simp
      ring
    rw [heq, stdRound_eq (by positivity)]
  · have hle : (l.rampTime : ℚ) ≤ nanos := by exact_mod_cast not_lt.mp hramp
    have hdiff : (0 : ℚ) ≤ nanos - l.rampTime := by linarith
    unfold totalRampRequests targetFreqNs
    rw [stdRound_eq (by positivity), stdRound_eq (by positivity)]
    congr 2
    · ring
    · ring

theorem total_schedule {l : LinearRampingRateLimiterImpl} (hR : 0 < l.rampTime) : Pacer.Schedule l.total where
  zero := by
    have hR' : (0 : ℚ) < l.rampTime := by exact_mod_cast hR
    rw [total_eq l hR le_rfl, Int.cast_zero, zero_div, rampSchedule_zero _ (by positivity)]
  mono {a b} ha h := by
    have hR' : (0 : ℚ) < l.rampTime := by exact_mod_cast hR
    have ha' : (0 : ℚ) ≤ a := by exact_mod_cast ha
    have h' : (a : ℚ) ≤ b := by exact_mod_cast h
    rw [total_eq l hR ha, total_eq l hR (ha.trans h)]
    apply rampSchedule_mono _ (by positivity) (by positivity)
    gcongr

def refill (l : LinearRampingRateLimiterImpl) (now : ℤ) : LinearRampingRateLimiterImpl :=
  { l with
    startTime := some (l.startTime.getD now)
    acquireableCount := l.total (now - l.startTime.getD now) - l.acquiredCount }

theorem tryAcquireOne_eq {l : LinearRampingRateLimiterImpl} (hl : 0 ≤ l.acquireableCount) (e : Env) :
    l.tryAcquireOne e =
      if 0 < l.acquireableCount then (true, l.acquire, e)
      else if 0 < (l.refill e.monotonicTime.1).acquireableCount then
        (true, (l.refill e.monotonicTime.1).acquire, e.monotonicTime.2)
      else (false, l.refill e.monotonicTime.1, e.monotonicTime.2) := by
  have hpos : l.acquireableCount ≠ 0 ↔ 0 < l.acquireableCount := by omega
  simp only [tryAcquireOne, elapsed, hpos]
  rfl

def toPacer (l : LinearRampingRateLimiterImpl) : Pacer := ⟨l.startTime, l.acquireableCount, l.acquiredCount⟩

instance : Pacing LinearRampingRateLimiterImpl where
  schedule := total
  pacer := toPacer
  try_spec {_ e _ _ _} hl h :=
    poll_of_refill total toPacer acquire refill (fun _ => ⟨rfl, rfl⟩) (fun _ _ => ⟨rfl, rfl⟩)
      ((tryAcquireOne_eq hl e).symm.trans h)
  release_spec _ _ := ⟨rfl, rfl, rfl⟩

theorem new_eq_ok {rampTime : ℤ} {f : Frequency} {l : LinearRampingRateLimiterImpl} :
    new rampTime f = .ok l ↔ 1 ≤ f.hertz ∧ 0 < rampTime ∧ l = { rampTime, frequency := f } := by
  unfold new
  split_ifs with hf hR
  · simp [hf]
  · simp only [false_iff]
    omega
  · simp only [Except.ok.injEq]
    constructor
    · rintro rfl
      exact ⟨by omega, by omega, rfl⟩
    · rintro ⟨-, -, rfl⟩
      rfl

end LinearRampingRateLimiterImpl

theorem createRateLimiterPlugin_ok {config : LinearRampingRateLimiterConfig} {options : RampingOptions}
    {l : LinearRampingRateLimiterImpl} (h : createRateLimiterPlugin config options = .ok l) :
    1 ≤ l.frequency.hertz ∧ 0 < l.rampTime ∧
      (options.noDuration = false → l.rampTime ≤ options.duration * 10 ^ 9) ∧
      l = { rampTime := config.seconds * 10 ^ 9 + config.nanos, frequency := ⟨options.requestsPerSecond⟩ } := by
  unfold createRateLimiterPlugin at h
  simp only at h
  split_ifs at h with h1 h2
  obtain ⟨hf, hR, rfl⟩ := LinearRampingRateLimiterImpl.new_eq_ok.mp h
  refine ⟨hf, hR, fun hno => ?_, rfl⟩
  simp only [hno, Bool.not_false, true_and, gt_iff_lt, not_lt] at h2
  exact h2

/-! ## Exactness -/

/-- The caller of a ramping limiter never holds more than its schedule and holds just that after
every refused poll. The available count never is negative, because the schedule never falls. -/
theorem ramping_exact (f : Frequency) (R : ℤ) (hR : 0 < R) (t : ℤ) (cs : List Call)
    (s : Caller LinearRampingRateLimiterImpl)
    (hr : Runs.exec (Caller.step Caller.unreleased)
      { limiter := { rampTime := R, frequency := f }, time := t } cs =
      some s) :
    0 ≤ s.limiter.acquireableCount ∧
      s.held ≤ rampSchedule f.hertz (R / 10 ^ 9) (s.elapsed / 10 ^ 9) ∧
      (s.answer = some false → s.held = rampSchedule f.hertz (R / 10 ^ 9) (s.elapsed / 10 ^ 9)) ∧
      ∀ e e' : ℚ, 0 ≤ e → e ≤ e' →
        rampSchedule f.hertz (R / 10 ^ 9) e ≤ rampSchedule f.hertz (R / 10 ^ 9) e' := by
  let l : LinearRampingRateLimiterImpl := { rampTime := R, frequency := f }
  have hR' : (0 : ℚ) < R / 10 ^ 9 := by
    have : (0 : ℚ) < R := by exact_mod_cast hR
    positivity
  have hS : Pacer.Schedule l.total := LinearRampingRateLimiterImpl.total_schedule hR
  have hpaced : s.Paced l.total := Caller.run_paced hS rfl rfl hr
  obtain ⟨hle, hexact⟩ := Caller.held_spec hS hpaced
  rw [LinearRampingRateLimiterImpl.total_eq l hR (Caller.elapsed_nonneg hpaced)] at hle hexact
  exact ⟨hpaced.tracks.available, hle, hexact, fun _ _ he h => rampSchedule_mono f.hertz hR' he h⟩

/-- Half-way through a ramp of four seconds to 4 Hz two acquisitions are due. One of them is
handed back and taken again. -/
def rampingCalls : List Call :=
  [.tryAcquireOne [3] 0, .tryAcquireOne [2000000000] 0, .releaseOne [], .tryAcquireOne [] 0,
    .tryAcquireOne [] 0,
    .tryAcquireOne [0] 0]

theorem ramping_exact_half_way :
    ∃ s : Caller LinearRampingRateLimiterImpl,
      Runs.exec (Caller.step Caller.unreleased)
        { limiter := { rampTime := 4000000000, frequency := ⟨4⟩ }, time := 0 }
        rampingCalls = some s ∧ s.answer = some false ∧ s.held = 2 ∧
        s.held = rampSchedule 4 ((4000000000 : ℤ) / 10 ^ 9) (s.elapsed / 10 ^ 9) := by
  obtain ⟨s, hs, hanswer, hheld⟩ : ∃ s : Caller LinearRampingRateLimiterImpl,
      Runs.exec (Caller.step Caller.unreleased)
        { limiter := { rampTime := 4000000000, frequency := ⟨4⟩ }, time := 0 }
        rampingCalls = some s ∧ s.answer = some false ∧ s.held = 2 :=
    ⟨_, by with_unfolding_all rfl, by with_unfolding_all rfl, by with_unfolding_all rfl⟩
  exact ⟨s, hs, hanswer, hheld,
    (ramping_exact ⟨4⟩ 4000000000 (by decide) 0 rampingCalls s hs).2.2.1 hanswer⟩

end Nighthawk.RateLimiter
