import Nighthawk.AdaptiveLoad.Validation
import Nighthawk.Lib.Bisection
import Mathlib.Algebra.Order.Archimedean.Basic
import Mathlib.Tactic.FieldSimp

/-!
# The exponential search finds the threshold

The loads grow until one fails. From then on the threshold lies between the last load that passed
and the last that failed, and this interval is halved until two loads in a row differ by less than
one percent.
-/

namespace Nighthawk.AdaptiveLoad

open Options Results
open Runs (exec exec_snoc_eq_some)

/-! ## The controller -/

namespace ExponentialSearchStepController

variable {c : ExponentialSearchStepController} {a f : ℚ} {k : ℕ} {b : Bisection ℚ} {p : ℚ}

/-- `k` loads have passed. -/
structure Ranging (a f : ℚ) (k : ℕ) (c : ExponentialSearchStepController) : Prop where
  phase : c.isRangeFindingPhase = true
  factor : c.exponentialFactor = .num f
  current : c.currentLoadValue = .num (a * f ^ k)
  first : k = 0 → c.previousLoadValue = .nan
  previous : ∀ j, k = j + 1 → c.previousLoadValue = .num (a * f ^ j)
  notDoomed : c.doomReason = []

/-- The load before the current one was `p`. -/
structure Bisecting (b : Bisection ℚ) (p : ℚ) (c : ExponentialSearchStepController) : Prop where
  phase : c.isRangeFindingPhase = false
  bottom : c.bottomLoadValue = .num b.bottom
  top : c.topLoadValue = .num b.top
  current : c.currentLoadValue = .num b.mid
  previous : c.previousLoadValue = .num p
  isEnd : p = b.bottom ∨ p = b.top
  notDoomed : c.doomReason = []

theorem Ranging.pass (h : Ranging a f k c) {result : BenchmarkResult} (hscore : .num 0 < totalScore result) :
    Ranging a f (k + 1) (c.updateAndRecompute result) := by
  unfold updateAndRecompute iterateRangeFindingPhase
  rw [if_pos h.phase, if_pos hscore]
  constructor
  case phase => exact h.phase
  case factor => exact h.factor
  case current =>
    show c.currentLoadValue * c.exponentialFactor = _
    rw [h.current, h.factor, Nan.num_mul_num, pow_succ, mul_assoc]
  case first => exact fun hk => absurd hk (by omega)
  case previous =>
    intro j hj
    obtain rfl : k = j := by omega
    exact h.current
  case notDoomed => exact h.notDoomed

theorem isDoomed_eq_none (h : c.doomReason = []) : c.isDoomed = none := if_pos h

theorem isDoomed_eq_some (c : ExponentialSearchStepController) {reason : Str} (h : reason ≠ []) :
    isDoomed { c with doomReason := reason } = some reason := if_neg h

theorem doomedAtInitialLoad_ne_nil : doomedAtInitialLoad ≠ [] := by
  unfold doomedAtInitialLoad
  rw [String.toList_append, String.toList_append]
  simp only [ne_eq, List.append_eq_nil_iff, String.toList_eq_nil_iff]
  rintro ⟨-, h⟩
  exact absurd h (by decide)

theorem Ranging.fail_first (h : Ranging a f 0 c) {result : BenchmarkResult}
    (hscore : ¬ .num 0 < totalScore result) :
    (c.updateAndRecompute result).isDoomed = some doomedAtInitialLoad := by
  unfold updateAndRecompute iterateRangeFindingPhase
  rw [if_pos h.phase, if_neg hscore, if_pos (by rw [h.first rfl]; rfl)]
  exact isDoomed_eq_some c doomedAtInitialLoad_ne_nil

theorem midpoint_eq (x y : ℚ) : (.num x + .num y : Double) / .num 2 = .num ((x + y) / 2) := by
  rw [Nan.num_add_num, Nan.num_div_num _ _ (by norm_num)]

theorem Ranging.fail (h : Ranging a f (k + 1) c) {result : BenchmarkResult}
    (hscore : ¬ .num 0 < totalScore result) :
    Bisecting ⟨a * f ^ k, a * f ^ (k + 1)⟩ (a * f ^ (k + 1)) (c.updateAndRecompute result) := by
  unfold updateAndRecompute iterateRangeFindingPhase
  have hprevious := h.previous k rfl
  rw [if_pos h.phase, if_neg hscore, hprevious, h.current, if_neg (by simp)]
  exact ⟨rfl, rfl, rfl, midpoint_eq _ _, rfl, .inr rfl, h.notDoomed⟩

theorem Bisecting.narrow (h : Bisecting b p c) (result : BenchmarkResult) :
    Bisecting (b.narrow (decide (.num 0 < totalScore result))) b.mid (c.updateAndRecompute result) := by
  unfold updateAndRecompute iterateBinarySearchPhase
  rw [if_neg (by simp [h.phase])]
  by_cases hscore : .num 0 < totalScore result
  · simp only [if_pos hscore, h.current, h.top, midpoint_eq]
    rw [decide_eq_true hscore]
    exact ⟨h.phase, rfl, rfl, rfl, rfl, .inl rfl, h.notDoomed⟩
  · simp only [if_neg hscore, h.current, h.bottom, midpoint_eq]
    rw [decide_eq_false hscore]
    exact ⟨h.phase, rfl, rfl, rfl, rfl, .inr rfl, h.notDoomed⟩

theorem Bisecting.isConverged_iff (h : Bisecting b p c) (hp : 0 < p) (hb : 0 < b.width) :
    c.isConverged = true ↔ b.width / 2 < p / 100 := by
  have habs : |b.mid / p - 1| = b.width / 2 / p := by
    rw [div_sub_one hp.ne', abs_div, abs_of_pos hp, Bisection.abs_mid_sub_end hb h.isEnd]
  unfold isConverged
  rw [h.notDoomed, h.phase, h.current, h.previous, Nan.num_div_num _ _ hp.ne', Nan.num_sub_num]
  simp only [decide_true, Bool.not_false, Bool.and_self, Bool.true_and, decide_eq_true_eq, Nan.map,
    Nan.num_lt_num]
  rw [habs, div_lt_iff₀ hp, one_div_mul_eq_div]

theorem Ranging.not_converged (h : Ranging a f k c) : c.isConverged = false := by
  unfold isConverged
  rw [h.phase]
  simp

end ExponentialSearchStepController

/-! ## The session -/

def Running.load (r : Running) : Option Double :=
  match r.controller with
  | .exponentialSearch c => some c.currentLoadValue
  | .custom _ _ => none

/-- The benchmark returns no error, and scores within the thresholds exactly when its load is at most `t`. -/
def Scores (env : Env) (t : ℚ) (r : Running) (duration : Option Duration) (answer : Answer) : Prop :=
  ∃ result controller, performAndAnalyzeNighthawkBenchmark env r (duration.getD {}) answer =
    .ok (result, controller) ∧
    ∀ x, r.load = some (.num x) → (.num 0 < totalScore result ↔ x ≤ t)

def after (env : Env) (spec : AdaptiveLoadSessionSpec) (answers : ℕ → Answer) (n : ℕ) : Option Session :=
  exec (Session.step env) (performAdaptiveLoadSession env spec) ((List.range n).map answers)

def InTime (r : Running) (elapsed : ℤ) : Prop :=
  elapsed ≤ durationToNanoseconds (r.spec.convergenceDeadline.getD {})

instance (r : Running) (elapsed : ℤ) : Decidable (InTime r elapsed) := inferInstanceAs (Decidable (_ ≤ _))

/-- Every benchmark that the session makes scores against the threshold, within the deadline. -/
structure Threshold (env : Env) (spec : AdaptiveLoadSessionSpec) (answers : ℕ → Answer) (t : ℚ) : Prop where
  adjusting : ∀ n r, after env spec answers n = some (.adjusting r) →
    Scores env t r r.spec.measuringPeriod (answers n) ∧ InTime r (answers n).elapsed
  testing : ∀ n r, after env spec answers n = some (.testing r) →
    Scores env t r r.spec.testingStageDuration (answers n)

variable {env : Env} {spec : AdaptiveLoadSessionSpec} {answers : ℕ → Answer} {t : ℚ}

section

variable {r : Running} {elapsed : ℤ} (htime : InTime r elapsed)

include htime

theorem afterAdjusting_doomed {reason : Str} (h : r.controller.isDoomed = some reason) :
    ∃ message, afterAdjusting env r elapsed = .returned (.error ⟨.aborted, message⟩) := by
  unfold afterAdjusting
  dsimp only
  rw [if_neg (not_lt.mpr htime), h]
  exact ⟨_, rfl⟩

theorem afterAdjusting_converged (hdoomed : r.controller.isDoomed = none)
    (h : r.controller.isConverged = true) :
    afterAdjusting env r elapsed = .testing r := by
  unfold afterAdjusting
  dsimp only
  rw [if_neg (not_lt.mpr htime), hdoomed]
  exact if_pos h

theorem afterAdjusting_again (hdoomed : r.controller.isDoomed = none) (h : r.controller.isConverged = false) :
    afterAdjusting env r elapsed = .adjusting r := by
  unfold afterAdjusting
  dsimp only
  rw [if_neg (not_lt.mpr htime), hdoomed]
  exact if_neg (by rw [h]; exact Bool.false_ne_true)

end

theorem perform_controller {r : Running} {duration : Duration} {answer : Answer} {result : BenchmarkResult}
    {controller : StepController}
    (h : performAndAnalyzeNighthawkBenchmark env r duration answer = .ok (result, controller)) :
    controller = r.controller.updateAndRecompute result := by
  unfold performAndAnalyzeNighthawkBenchmark at h
  obtain ⟨_, -, h⟩ := Fallible.bind_eq_ok.mp h
  obtain ⟨_, -, h⟩ := Fallible.bind_eq_ok.mp h
  obtain ⟨_, -, h⟩ := Fallible.bind_eq_ok.mp h
  injection h with h
  injection h with hresult hcontroller
  rw [← hcontroller, ← hresult]

/-! ## The options that are sent -/

/-- The benchmark that comes next runs at this load: the service is asked for what the setter makes of
the template. -/
def Running.RunsAt (r : Running) (setter : InputVariableSetter) (template : CommandLineOptions)
    (duration : Option Duration) (load : Double) : Prop :=
  ∃ options, setter.setInputVariable template load = .ok options ∧
    r.commandLineOptions (duration.getD {}) =
      .ok { options with durationOptions := some (.duration (duration.getD {})) }

/-- The controller sets its loads in the template of the session. -/
structure Running.Driven (spec : AdaptiveLoadSessionSpec) (setter : InputVariableSetter)
    (r : Running) : Prop where
  spec_eq : r.spec = spec
  controller : ∃ c, r.controller = .exponentialSearch c ∧ c.inputVariableSetter = setter ∧
    c.commandLineOptionsTemplate = spec.template

/-- A session that is over sends nothing. -/
def Session.Driven (spec : AdaptiveLoadSessionSpec) (setter : InputVariableSetter) : Session → Prop
  | .adjusting r | .testing r => r.Driven spec setter
  | .returned _ | .crashed _ => True

section

variable {setter : InputVariableSetter} {r : Running}

theorem ExponentialSearchStepController.updateAndRecompute_keeps (c : ExponentialSearchStepController)
    (result : BenchmarkResult) : (c.updateAndRecompute result).inputVariableSetter = c.inputVariableSetter ∧
      (c.updateAndRecompute result).commandLineOptionsTemplate = c.commandLineOptionsTemplate := by
  unfold updateAndRecompute iterateRangeFindingPhase iterateBinarySearchPhase
  split_ifs <;> exact ⟨rfl, rfl⟩

theorem afterAdjusting_driven (h : r.Driven spec setter) (elapsed : ℤ) :
    (afterAdjusting env r elapsed).Driven spec setter := by
  unfold afterAdjusting
  simp only
  cases r.controller.isDoomed with
  | some reason => split_ifs <;> trivial
  | none => split_ifs <;> trivial

theorem failed_driven (e : Failure) : (Session.failed e).Driven spec setter := by
  cases e <;> trivial

theorem step_driven (s : Session) (answer : Answer) (u : Session) (h : s.Driven spec setter)
    (hstep : s.step env answer = some u) : u.Driven spec setter := by
  cases s with
  | adjusting r =>
    obtain ⟨hspec, c, hc, hsetter, htemplate⟩ := h
    cases hstep
    unfold adjustingStage
    split
    · rename_i result controller hperform
      apply afterAdjusting_driven
      obtain ⟨hkeep, hkeep'⟩ := c.updateAndRecompute_keeps result
      refine ⟨hspec, c.updateAndRecompute result, ?_, hkeep.trans hsetter, hkeep'.trans htemplate⟩
      show controller = _
      rw [perform_controller hperform, hc]
      rfl
    · exact failed_driven _
  | testing r =>
    cases hstep
    unfold testingStage
    split
    · trivial
    · exact failed_driven _
  | returned result => cases hstep
  | crashed c => cases hstep

theorem Running.Driven.runsAt (h : r.Driven spec setter) {duration : Option Duration} {answer : Answer}
    (hscores : Scores env t r duration answer) :
    ∃ load, r.load = some load ∧ r.RunsAt setter spec.template duration load := by
  obtain ⟨-, c, hc, hsetter, htemplate⟩ := h
  obtain ⟨result, controller, hperform, -⟩ := hscores
  unfold performAndAnalyzeNighthawkBenchmark at hperform
  obtain ⟨sent, hsent, -⟩ := Fallible.bind_eq_ok.mp hperform
  have hsent := Fallible.mapError_eq_ok.mp hsent
  obtain ⟨options, hoptions, rfl⟩ := Fallible.map_eq_ok.mp hsent
  refine ⟨c.currentLoadValue, ?_, options, ?_, hsent⟩
  · unfold Running.load
    rw [hc]
  · rw [hc] at hoptions
    rw [← hsetter, ← htemplate]
    exact hoptions

end

theorem after_succ {n : ℕ} {s u : Session} (h : after env spec answers n = some s)
    (hstep : s.step env (answers n) = some u) : after env spec answers (n + 1) = some u := by
  unfold after
  rw [List.range_succ, List.map_append]
  exact (exec_snoc_eq_some _).mpr ⟨s, h, hstep⟩

/-- The session is in the adjusting stage with this controller. -/
def AdjustsWith (env : Env) (spec : AdaptiveLoadSessionSpec) (answers : ℕ → Answer) (n : ℕ)
    (c : ExponentialSearchStepController) : Prop :=
  ∃ r, after env spec answers n = some (.adjusting r) ∧ r.controller = .exponentialSearch c

theorem AdjustsWith.step (hworld : Threshold env spec answers t) {n : ℕ} {c : ExponentialSearchStepController}
    (h : AdjustsWith env spec answers n c) {x : ℚ} (hx : c.currentLoadValue = .num x) :
    ∃ result r, (.num 0 < totalScore result ↔ x ≤ t) ∧
      r.controller = .exponentialSearch (c.updateAndRecompute result) ∧
      InTime r (answers n).elapsed ∧
      after env spec answers (n + 1) = some (afterAdjusting env r (answers n).elapsed) := by
  obtain ⟨r, hafter, hcontroller⟩ := h
  obtain ⟨⟨result, controller, hperform, hscore⟩, htime⟩ := hworld.adjusting n r hafter
  have hload : r.load = some (.num x) := by
    unfold Running.load
    rw [hcontroller, ← hx]
  refine ⟨result, { r with controller, results := r.results ++ [result] }, hscore x hload, ?_, htime, ?_⟩
  · show controller = _
    rw [perform_controller hperform, hcontroller]
    rfl
  · apply after_succ hafter
    show some (adjustingStage env r (answers n)) = _
    unfold adjustingStage
    rw [hperform]

theorem testing_returns (hworld : Threshold env spec answers t) {n : ℕ} {r : Running}
    (h : after env spec answers n = some (.testing r)) :
    ∃ output, after env spec answers (n + 1) = some (.returned (.ok output)) := by
  obtain ⟨result, controller, hperform, -⟩ := hworld.testing n r h
  refine ⟨⟨r.results, some result, r.spec.metricThresholds⟩, after_succ h ?_⟩
  show some (testingStage env r (answers n)) = _
  unfold testingStage
  rw [hperform]

/-! ## The search -/

open ExponentialSearchStepController

/-- The last benchmark of the adjusting stage is the one numbered `n`, and the load after it is close
to the threshold. -/
def FoundAfter (env : Env) (spec : AdaptiveLoadSessionSpec) (answers : ℕ → Answer) (t : ℚ) (n : ℕ) : Prop :=
  ∃ r r' P L, after env spec answers n = some (.adjusting r) ∧ r.load = some (.num P) ∧
    after env spec answers (n + 1) = some (.testing r') ∧ r'.load = some (.num L) ∧ |L - t| ≤ 1 / 100 * P

/-- The bisection goes on: its width is too large for the load before. -/
def Hunting (env : Env) (spec : AdaptiveLoadSessionSpec) (answers : ℕ → Answer) (t : ℚ) (n : ℕ)
    (b : Bisection ℚ) :
    Prop :=
  b.Holds t ∧ ∃ c p, AdjustsWith env spec answers n c ∧ Bisecting b p c ∧ p / 100 ≤ b.width / 2

variable {a f : ℚ}

theorem ranging_of_le (hworld : Threshold env spec answers t) {c : ExponentialSearchStepController}
    (hstart : AdjustsWith env spec answers 0 c) (hc : Ranging a f 0 c) {k : ℕ}
    (hle : ∀ j < k, a * f ^ j ≤ t) :
    ∃ c, AdjustsWith env spec answers k c ∧ Ranging a f k c := by
  induction k with
  | zero => exact ⟨c, hstart, hc⟩
  | succ k ih =>
    obtain ⟨c, hadjusts, hranging⟩ := ih fun j hj => hle j (by omega)
    obtain ⟨result, r, hscore, hcontroller, htime, hafter⟩ := hadjusts.step hworld hranging.current
    have hnext := hranging.pass (hscore.mpr (hle k (by omega)))
    refine ⟨_, ⟨r, ?_, hcontroller⟩, hnext⟩
    rw [hafter, afterAdjusting_again htime]
    · rw [hcontroller]
      exact isDoomed_eq_none hnext.notDoomed
    · rw [hcontroller]
      exact hnext.not_converged

theorem found_or_hunting {n : ℕ} {r r' : Running} {c : ExponentialSearchStepController}
    {b : Bisection ℚ} {p : ℚ}
    (hadjusting : after env spec answers n = some (.adjusting r))
    (hload : r.load = some (.num p)) {elapsed : ℤ}
    (htime : InTime r' elapsed)
    (hafter : after env spec answers (n + 1) = some (afterAdjusting env r' elapsed))
    (hcontroller : r'.controller = .exponentialSearch c) (hc : Bisecting b p c) (hb : b.Holds t)
    (hp : 0 < p) :
    FoundAfter env spec answers t n ∨ Hunting env spec answers t (n + 1) b := by
  have hdoomed : r'.controller.isDoomed = none := by
    rw [hcontroller]
    exact isDoomed_eq_none hc.notDoomed
  have hiff := hc.isConverged_iff hp hb.width_pos
  by_cases hwidth : b.width / 2 < p / 100
  · left
    refine ⟨r, r', p, b.mid, hadjusting, hload, ?_, ?_, ?_⟩
    · rw [hafter, afterAdjusting_converged htime hdoomed]
      rw [hcontroller]
      exact hiff.mpr hwidth
    · unfold Running.load
      rw [hcontroller, ← hc.current]
    · have hmid := hb.abs_mid_sub_le
      linarith
  · right
    refine ⟨hb, c, p, ⟨r', ?_, hcontroller⟩, hc, not_lt.mp hwidth⟩
    rw [hafter, afterAdjusting_again htime hdoomed]
    rw [hcontroller]
    exact Bool.eq_false_iff.mpr fun h => hwidth (hiff.mp h)

theorem load_of_controller {r : Running} {c : ExponentialSearchStepController} {x : ℚ}
    (h : r.controller = .exponentialSearch c) (hx : c.currentLoadValue = .num x) :
    r.load = some (.num x) := by
  unfold Running.load
  rw [h, ← hx]

theorem switch_over (hworld : Threshold env spec answers t) (ha : 0 < a) (hf : 1 < f) {k : ℕ}
    {c : ExponentialSearchStepController} (hadjusts : AdjustsWith env spec answers (k + 1) c)
    (hc : Ranging a f (k + 1) c) (hle : a * f ^ k ≤ t) (hlt : t < a * f ^ (k + 1)) :
    FoundAfter env spec answers t (k + 1) ∨
      Hunting env spec answers t (k + 2) ⟨a * f ^ k, a * f ^ (k + 1)⟩ := by
  obtain ⟨result, r', hscore, hcontroller, htime, hafter⟩ := hadjusts.step hworld hc.current
  have hfail : ¬ .num 0 < totalScore result := fun h => absurd (hscore.mp h) (not_le.mpr hlt)
  obtain ⟨r, hadjusting, hr⟩ := hadjusts
  have hpos : 0 < a * f ^ (k + 1) := by positivity
  exact found_or_hunting hadjusting (load_of_controller hr hc.current) htime hafter hcontroller
    (hc.fail hfail)
    ⟨hle, hlt⟩ hpos

theorem hunting_step (hworld : Threshold env spec answers t) {n : ℕ} {b : Bisection ℚ}
    (h : Hunting env spec answers t n b) (hpos : 0 < b.bottom) :
    FoundAfter env spec answers t n ∨ ∃ b', Hunting env spec answers t (n + 1) b' ∧ b'.width = b.width / 2 ∧
      b.bottom ≤ b'.bottom := by
  obtain ⟨hb, c, p, hadjusts, hc, -⟩ := h
  obtain ⟨result, r', hscore, hcontroller, htime, hafter⟩ := hadjusts.step hworld hc.current
  obtain ⟨r, hadjusting, hr⟩ := hadjusts
  have hholds : (b.narrow (decide (.num 0 < totalScore result))).Holds t :=
    hb.narrow (by rw [decide_eq_true_iff, hscore])
  rcases found_or_hunting hadjusting (load_of_controller hr hc.current) htime hafter hcontroller
    (hc.narrow result)
    hholds (lt_of_lt_of_le hpos (Bisection.bottom_le_mid hb.width_pos)) with hfound | hhunting
  · exact .inl hfound
  · exact .inr ⟨_, hhunting, b.width_narrow _, Bisection.bottom_le_narrow hb.width_pos _⟩

/-- The bisection ends, since it only goes on while its width is at least a fiftieth of the least load. -/
theorem hunting_ends (hworld : Threshold env spec answers t) {n : ℕ} {b : Bisection ℚ}
    (h : Hunting env spec answers t n b) (hpos : 0 < b.bottom) : ∃ m, FoundAfter env spec answers t m := by
  by_contra hnone
  have hall : ∀ m, ∃ b', Hunting env spec answers t (n + m) b' ∧ b'.width = b.width / 2 ^ m ∧
      b.bottom ≤ b'.bottom := by
    intro m
    induction m with
    | zero => exact ⟨b, h, by simp, le_refl _⟩
    | succ m ih =>
      obtain ⟨b', hb', hwidth, hbottom⟩ := ih
      rcases hunting_step hworld hb' (lt_of_lt_of_le hpos hbottom) with hfound | ⟨b'', hb'',
        hwidth', hbottom'⟩
      · exact absurd ⟨_, hfound⟩ hnone
      · refine ⟨b'', hb'', ?_, hbottom.trans hbottom'⟩
        rw [hwidth', hwidth, pow_succ, div_div]
  obtain ⟨m, hm⟩ := Bisection.exists_width_lt b.width (show 0 < b.bottom / 50 by positivity)
  obtain ⟨b', ⟨hholds, c, p, -, hc, hwide⟩, hwidth, hbottom⟩ := hall m
  have hp : b.bottom ≤ p := by
    rcases hc.isEnd with rfl | rfl
    · exact hbottom
    · exact hbottom.trans (hholds.1.trans hholds.2.le)
  rw [hwidth] at hwide
  linarith

theorem exists_switch_over (ha : 0 < a) (hf : 1 < f) (hle : a ≤ t) :
    ∃ k, (∀ j < k + 1, a * f ^ j ≤ t) ∧ t < a * f ^ (k + 1) := by
  have hex : ∃ k, t < a * f ^ k := by
    obtain ⟨k, hk⟩ := pow_unbounded_of_one_lt (t / a) hf
    exact ⟨k, by rwa [div_lt_iff₀ ha, mul_comm] at hk⟩
  classical
  have hfirst : Nat.find hex ≠ 0 := by
    intro h0
    have := Nat.find_spec hex
    rw [h0, pow_zero, mul_one] at this
    linarith
  obtain ⟨k, hk⟩ := Nat.exists_eq_succ_of_ne_zero hfirst
  refine ⟨k, fun j hj => not_lt.mp (Nat.find_min hex (by omega)), ?_⟩
  have := Nat.find_spec hex
  rwa [hk] at this

theorem new_eq_ok {config : ExponentialSearchStepControllerConfig} {template : CommandLineOptions}
    {c : ExponentialSearchStepController} (h : new env config template = .ok c) :
    ∃ setter, loadSetter env config = .ok setter ∧ c = {
      commandLineOptionsTemplate := template
      inputVariableSetter := setter
      exponentialFactor := if .num 0 < config.exponentialFactor then config.exponentialFactor else .num 2
      currentLoadValue := config.initialValue } := by
  unfold ExponentialSearchStepController.new at h
  obtain ⟨setter, hsetter, h⟩ := Fallible.bind_eq_ok.mp h
  exact ⟨setter, hsetter, (Except.ok.inj h).symm⟩

theorem ranging_of_new {config : ExponentialSearchStepControllerConfig} {template : CommandLineOptions}
    {c : ExponentialSearchStepController} (hinitial : config.initialValue = .num a)
    (h : new env config template = .ok c)
    (hfactor : c.exponentialFactor = .num f) : Ranging a f 0 c := by
  obtain ⟨setter, -, rfl⟩ := new_eq_ok h
  exact ⟨rfl, hfactor, by simp [hinitial], fun _ => rfl, fun j hj => absurd hj (by omega), rfl⟩

theorem new_ranging {config : ExponentialSearchStepControllerConfig} {template : CommandLineOptions}
    {c : ExponentialSearchStepController} (hinitial : config.initialValue = .num a)
    (hfactor : config.exponentialFactor = .num f) (hf : 0 < f) (h : new env config template = .ok c) :
    Ranging a f 0 c := by
  refine ranging_of_new hinitial h ?_
  obtain ⟨setter, -, rfl⟩ := new_eq_ok h
  dsimp only
  rw [hfactor]
  exact if_pos hf

theorem create_of_loadPlugin {α : Type} {registry : Str → Option (Factory α)} {config : TypedExtensionConfig}
    {factory : Factory α} {plugin : α} (hregistry : registry config.name = some factory)
    (h : loadPlugin registry config = .ok plugin) : factory.create config.typedConfig = .ok plugin := by
  unfold loadPlugin at h
  obtain ⟨found, hfound, h⟩ := Fallible.bind_eq_ok.mp (Fallible.mapError_eq_ok.mp h)
  obtain ⟨-, h⟩ := Fallible.check_bind_eq_ok.mp h
  unfold getAndCheckFactoryByName at hfound
  split at hfound
  · cases hfound
  · rw [hregistry] at hfound
    cases hfound
    exact h

theorem loadStepControllerPlugin_ranging {message : Message} {template : CommandLineOptions}
    {config : ExponentialSearchStepControllerConfig} {controller : StepController}
    (hconfig : env.unpackExponentialSearch message = .ok config) (hinitial : config.initialValue = .num a)
    (hfactor : config.exponentialFactor = .num f) (hf : 0 < f)
    (h : loadStepControllerPlugin env ⟨"nighthawk.exponential_search".toList, message⟩ template =
      .ok controller) :
    ∃ c, controller = .exponentialSearch c ∧ Ranging a f 0 c ∧
      loadSetter env config = .ok c.inputVariableSetter ∧
      c.commandLineOptionsTemplate = template := by
  have hcreate := create_of_loadPlugin (if_pos rfl) h
  obtain ⟨config', hconfig', hcreate⟩ := Fallible.bind_eq_ok.mp hcreate
  obtain rfl : config = config' := Except.ok.inj (hconfig.symm.trans (Fallible.mapError_eq_ok.mp hconfig'))
  obtain ⟨c, hnew, hcreate⟩ := Fallible.bind_eq_ok.mp hcreate
  injection hcreate with hcreate
  have hnew := Fallible.mapError_eq_ok.mp hnew
  refine ⟨c, hcreate.symm, new_ranging hinitial hfactor hf hnew, ?_⟩
  obtain ⟨setter, hsetter, rfl⟩ := new_eq_ok hnew
  exact ⟨hsetter, rfl⟩

/-- Every benchmark of the session runs at the load of its controller. With a threshold at or above
the initial load the session returns OK, and its testing stage runs within a hundredth of the last
adjusting load of the threshold. With a threshold below it, the first benchmark ends the session. -/
structure Finds (env : Env) (spec : AdaptiveLoadSessionSpec) (setter : InputVariableSetter)
    (answers : ℕ → Answer)
    (a t : ℚ) : Prop where
  adjusting : ∀ n r, after env spec answers n = some (.adjusting r) → ∃ load, r.load = some load ∧
    r.RunsAt setter (setSessionSpecDefaults spec).template (setSessionSpecDefaults spec).measuringPeriod load
  testing : ∀ n r, after env spec answers n = some (.testing r) → ∃ load, r.load = some load ∧
    r.RunsAt setter (setSessionSpecDefaults spec).template
      (setSessionSpecDefaults spec).testingStageDuration load
  found : a ≤ t → ∃ n r r' P L output,
    after env spec answers n = some (.adjusting r) ∧ r.load = some (.num P) ∧
    r.RunsAt setter (setSessionSpecDefaults spec).template
      (setSessionSpecDefaults spec).measuringPeriod (.num P) ∧
    after env spec answers (n + 1) = some (.testing r') ∧ r'.load = some (.num L) ∧
    r'.RunsAt setter (setSessionSpecDefaults spec).template
      (setSessionSpecDefaults spec).testingStageDuration (.num L) ∧
    |L - t| ≤ 1 / 100 * P ∧ after env spec answers (n + 2) = some (.returned (.ok output))
  doomed : t < a → ∃ message, after env spec answers 1 = some (.returned (.error ⟨.aborted, message⟩))

section

variable {setter : InputVariableSetter} {c : ExponentialSearchStepController}

theorem after_driven (hstart : (performAdaptiveLoadSession env spec).Driven
    (setSessionSpecDefaults spec) setter)
    {n : ℕ} {s : Session} (h : after env spec answers n = some s) :
    s.Driven (setSessionSpecDefaults spec) setter :=
  Runs.exec_inv step_driven hstart h

theorem after_adjusting_runsAt (hworld : Threshold env spec answers t)
    (hstart : (performAdaptiveLoadSession env spec).Driven (setSessionSpecDefaults spec) setter)
    {n : ℕ} {r : Running}
    (h : after env spec answers n = some (.adjusting r)) : ∃ load, r.load = some load ∧
      r.RunsAt setter (setSessionSpecDefaults spec).template
        (setSessionSpecDefaults spec).measuringPeriod load := by
  have hdriven : r.Driven (setSessionSpecDefaults spec) setter := after_driven hstart h
  rw [← hdriven.spec_eq]
  exact (hdriven.spec_eq.symm ▸ hdriven).runsAt (hworld.adjusting n r h).1

theorem after_testing_runsAt (hworld : Threshold env spec answers t)
    (hstart : (performAdaptiveLoadSession env spec).Driven (setSessionSpecDefaults spec) setter)
    {n : ℕ} {r : Running}
    (h : after env spec answers n = some (.testing r)) : ∃ load, r.load = some load ∧
      r.RunsAt setter (setSessionSpecDefaults spec).template
        (setSessionSpecDefaults spec).testingStageDuration load := by
  have hdriven : r.Driven (setSessionSpecDefaults spec) setter := after_driven hstart h
  rw [← hdriven.spec_eq]
  exact (hdriven.spec_eq.symm ▸ hdriven).runsAt (hworld.testing n r h)

theorem exists_foundAfter (hworld : Threshold env spec answers t) (hstart : AdjustsWith env spec answers 0 c)
    (hranging : Ranging a f 0 c) (ha : 0 < a) (hf : 1 < f) (hle : a ≤ t) :
    ∃ n, FoundAfter env spec answers t n := by
  obtain ⟨k, hbelow, habove⟩ := exists_switch_over ha hf hle
  obtain ⟨c', hadjusts, hc'⟩ := ranging_of_le hworld hstart hranging hbelow
  rcases switch_over hworld ha hf hadjusts hc' (hbelow k (by omega)) habove with hfound | hhunting
  · exact ⟨_, hfound⟩
  · exact hunting_ends hworld hhunting (by positivity)

theorem doomed_first (hworld : Threshold env spec answers t) (hstart : AdjustsWith env spec answers 0 c)
    (hranging : Ranging a f 0 c) (hlt : t < a) :
    ∃ message, after env spec answers 1 = some (.returned (.error ⟨.aborted, message⟩)) := by
  obtain ⟨result, r, hscore, hr, htime, hafter⟩ := hstart.step hworld hranging.current
  have hfail : ¬ .num 0 < totalScore result := by
    rw [hscore, pow_zero, mul_one]
    exact not_le.mpr hlt
  have hdoomed : r.controller.isDoomed = some doomedAtInitialLoad := by
    rw [hr]
    exact hranging.fail_first hfail
  rw [hafter]
  exact (afterAdjusting_doomed htime hdoomed).imp fun message hmessage => by rw [hmessage]

end

theorem session_finds_threshold (env : Env) (spec : AdaptiveLoadSessionSpec) (message : Message)
    (config : ExponentialSearchStepControllerConfig) (a f t : ℚ) (answers : ℕ → Answer)
    (ha : 0 < a) (hf : 1 < f)
    (hcheck : checkSessionSpec env (setSessionSpecDefaults spec) = .ok ())
    (hcontroller : spec.stepControllerConfig = some ⟨"nighthawk.exponential_search".toList, message⟩)
    (hconfig : env.unpackExponentialSearch message = .ok config) (hinitial : config.initialValue = .num a)
    (hfactor : config.exponentialFactor = .num f) (hworld : Threshold env spec answers t) :
    ∃ setter, loadSetter env config = .ok setter ∧ Finds env spec setter answers a t := by
  obtain ⟨plugins, controller, hload, hprepare, -⟩ := prepare_ok hcheck
  have hspec : (setSessionSpecDefaults spec).controllerConfig =
      ⟨"nighthawk.exponential_search".toList, message⟩ := by
    show spec.stepControllerConfig.getD noConfig = _
    rw [hcontroller]
    rfl
  rw [hspec] at hload
  obtain ⟨c, rfl, hranging, hsetter, htemplate⟩ :=
    loadStepControllerPlugin_ranging hconfig hinitial hfactor (by linarith) hload
  have hsession : performAdaptiveLoadSession env spec =
      .adjusting ⟨setSessionSpecDefaults spec, plugins, .exponentialSearch c, []⟩ := by
    unfold performAdaptiveLoadSession
    rw [hprepare]
  have hstart : AdjustsWith env spec answers 0 c := ⟨_, congrArg some hsession, rfl⟩
  have hdriven : (performAdaptiveLoadSession env spec).Driven
      (setSessionSpecDefaults spec) c.inputVariableSetter := by
    rw [hsession]
    exact ⟨rfl, c, rfl, rfl, htemplate⟩
  have hadjusts := fun n r => after_adjusting_runsAt (n := n) (r := r) hworld hdriven
  have htests := fun n r => after_testing_runsAt (n := n) (r := r) hworld hdriven
  refine ⟨c.inputVariableSetter, hsetter, hadjusts, htests, ?_, doomed_first hworld hstart hranging⟩
  intro hle
  obtain ⟨n, r, r', P, L, hadjusting, hP, htesting, hL, hclose⟩ :=
    exists_foundAfter hworld hstart hranging ha hf hle
  obtain ⟨output, houtput⟩ := testing_returns hworld htesting
  obtain ⟨load, hload, hruns⟩ := hadjusts n r hadjusting
  obtain ⟨load', hload', hruns'⟩ := htests (n + 1) r' htesting
  cases hload.symm.trans hP
  cases hload'.symm.trans hL
  exact ⟨n, r, r', P, L, output, hadjusting, hP, hruns, htesting, hL, hruns', hclose, houtput⟩

/-! ## A search of two loads -/

theorem scores_of_eq {x : ℚ} {r : Running} {duration : Option Duration} {answer : Answer}
    {result : BenchmarkResult}
    {controller : StepController}
    (hperform : performAndAnalyzeNighthawkBenchmark env r (duration.getD {}) answer =
      .ok (result, controller))
    (hload : r.load = some (.num x)) (hscore : .num 0 < totalScore result ↔ x ≤ t) :
    Scores env t r duration answer := by
  refine ⟨result, controller, hperform, fun y hy => ?_⟩
  cases hload.symm.trans hy
  exact hscore

/-- One request was sent, and it succeeded when the load was 1. -/
def responseWith (succeeded : UInt64) : ExecutionResponse where
  output := some {
    results := [{
      name := "global".toList
      statistics := [{ id := "benchmark_http_client.request_to_response".toList }]
      counters := [⟨"upstream_rq_total".toList, 1⟩, ⟨"benchmark.http_2xx".toList, succeeded⟩]
      executionDuration := some ⟨1, 0⟩ }] }

def succeedsOnce (n : ℕ) : Answer where
  call _ := { responses := [responseWith (if n = 0 then 1 else 0)] }

theorem succeedsOnce_first : ∃ r, after builtinEnv successRateSpec succeedsOnce 0 = some (.adjusting r) ∧
    Scores builtinEnv 1 r r.spec.measuringPeriod (succeedsOnce 0) ∧ InTime r 0 := by
  refine ⟨_, rfl, scores_of_eq (x := 1) (by with_unfolding_all rfl) rfl ?_, ?_⟩
  · exact iff_of_true (by with_unfolding_all decide) (by decide)
  · with_unfolding_all decide

theorem succeedsOnce_second : ∃ r, after builtinEnv successRateSpec succeedsOnce 1 = some (.adjusting r) ∧
    Scores builtinEnv 1 r r.spec.measuringPeriod (succeedsOnce 1) ∧ InTime r 0 := by
  refine ⟨_, by with_unfolding_all rfl, scores_of_eq (x := 201 / 200) (by with_unfolding_all rfl)
    (by with_unfolding_all rfl) ?_, ?_⟩
  · exact iff_of_false (by with_unfolding_all decide) (by norm_num)
  · with_unfolding_all decide

theorem succeedsOnce_third : ∃ r, after builtinEnv successRateSpec succeedsOnce 2 = some (.testing r) ∧
    Scores builtinEnv 1 r r.spec.testingStageDuration (succeedsOnce 2) := by
  refine ⟨_, by with_unfolding_all rfl, scores_of_eq (x := 401 / 400) (by with_unfolding_all rfl)
    (by with_unfolding_all rfl) ?_⟩
  exact iff_of_false (by with_unfolding_all decide) (by norm_num)

theorem succeedsOnce_fourth :
    ∃ result, after builtinEnv successRateSpec succeedsOnce 3 = some (.returned result) :=
  ⟨_, by with_unfolding_all rfl⟩

theorem succeedsOnce_ends (n : ℕ) : after builtinEnv successRateSpec succeedsOnce (n + 4) = none := by
  induction n with
  | zero =>
    obtain ⟨result, hreturned⟩ := succeedsOnce_fourth
    unfold after at hreturned ⊢
    rw [List.range_succ, List.map_append, Runs.exec_append, hreturned]
    rfl
  | succ n ih =>
    unfold after at ih ⊢
    rw [List.range_succ, List.map_append, Runs.exec_append, ih]
    rfl

theorem succeedsOnce_threshold : Threshold builtinEnv successRateSpec succeedsOnce 1 := by
  obtain ⟨_, h0, hfirst⟩ := succeedsOnce_first
  obtain ⟨_, h1, hsecond⟩ := succeedsOnce_second
  obtain ⟨_, h2, hthird⟩ := succeedsOnce_third
  obtain ⟨_, h3⟩ := succeedsOnce_fourth
  constructor
  · intro n r h
    match n with
    | 0 =>
      cases h0.symm.trans h
      exact hfirst
    | 1 =>
      cases h1.symm.trans h
      exact hsecond
    | 2 => cases h2.symm.trans h
    | 3 => cases h3.symm.trans h
    | n + 4 => cases (succeedsOnce_ends n).symm.trans h
  · intro n r h
    match n with
    | 0 => cases h0.symm.trans h
    | 1 => cases h1.symm.trans h
    | 2 =>
      cases h2.symm.trans h
      exact hthird
    | 3 => cases h3.symm.trans h
    | n + 4 => cases (succeedsOnce_ends n).symm.trans h

/-- The testing stage asks the service for what the setter of the requests per second makes of a load
near the threshold. -/
theorem session_finds_threshold_once :
    ∃ n r r' P L output,
      after builtinEnv successRateSpec succeedsOnce n = some (.adjusting r) ∧ r.load = some (.num P) ∧
      after builtinEnv successRateSpec succeedsOnce (n + 1) = some (.testing r') ∧ r'.load = some (.num L) ∧
      r'.RunsAt (requestsPerSecondInputVariableSetter builtinEnv)
        (setSessionSpecDefaults successRateSpec).template
        (setSessionSpecDefaults successRateSpec).testingStageDuration (.num L) ∧
      |L - 1| ≤ 1 / 100 * P ∧
      after builtinEnv successRateSpec succeedsOnce (n + 2) = some (.returned (.ok output)) := by
  obtain ⟨setter, hsetter, hfinds⟩ :=
    session_finds_threshold builtinEnv successRateSpec [] _ 1 (201 / 200) 1 succeedsOnce
    one_pos (by norm_num) successRateSpec_checked rfl rfl rfl rfl succeedsOnce_threshold
  cases hsetter
  obtain ⟨n, r, r', P, L, output, hadjusting, hP, -, htesting, hL, hruns, hclose, houtput⟩ :=
    hfinds.found le_rfl
  exact ⟨n, r, r', P, L, output, hadjusting, hP, htesting, hL, hruns, hclose, houtput⟩

end Nighthawk.AdaptiveLoad
