import Nighthawk.AdaptiveLoad.Search

/-!
# The exponential search ends whatever the scores are

The scores need not come from a threshold. After the first failing score each further one halves
the interval, so two loads in a row get close even when the scores contradict each other.
-/

namespace Nighthawk.AdaptiveLoad

open Options
open ExponentialSearchStepController (Ranging Bisecting)

/-- The score is within the thresholds. -/
def Passes (result : BenchmarkResult) : Prop := .num 0 < totalScore result

instance (result : BenchmarkResult) : Decidable (Passes result) := inferInstanceAs (Decidable (_ < _))

namespace ExponentialSearchStepController

def afterResults (c : ExponentialSearchStepController) (results : List BenchmarkResult) :
    ExponentialSearchStepController :=
  results.foldl updateAndRecompute c

variable {c : ExponentialSearchStepController} {a f : ℚ} {k : ℕ} {b : Bisection ℚ} {p : ℚ}

/-! ## Runs -/

theorem Ranging.passing (h : Ranging a f k c) {results : List BenchmarkResult}
    (hpass : ∀ r ∈ results, Passes r) :
    Ranging a f (k + results.length) (c.afterResults results) := by
  induction results generalizing k c with
  | nil => exact h
  | cons r results ih =>
    have hnext := h.pass (hpass r List.mem_cons_self)
    have hrest := ih hnext fun r' hr' => hpass r' (List.mem_cons_of_mem _ hr')
    rw [List.length_cons, ← Nat.add_assoc, Nat.add_right_comm]
    exact hrest

theorem Bisecting.results (h : Bisecting b p c) (results : List BenchmarkResult) :
    ∃ p, Bisecting ((results.map fun r => decide (Passes r)).foldl Bisection.narrow b) p
      (c.afterResults results) := by
  induction results generalizing b p c with
  | nil => exact ⟨p, h⟩
  | cons r results ih => exact ih (h.narrow r)

theorem updateAndRecompute_doomReason (h : c.doomReason = doomedAtInitialLoad) (result : BenchmarkResult) :
    (c.updateAndRecompute result).doomReason = doomedAtInitialLoad := by
  unfold updateAndRecompute
  split
  · unfold iterateRangeFindingPhase
    split
    · exact h
    · split
      · dsimp only
      · exact h
  · exact h

theorem afterResults_doomReason (h : c.doomReason = doomedAtInitialLoad) (results : List BenchmarkResult) :
    (c.afterResults results).doomReason = doomedAtInitialLoad := by
  induction results generalizing c with
  | nil => exact h
  | cons r results ih => exact ih (updateAndRecompute_doomReason h r)

theorem doomReason_of_isDoomed {reason : Str} (h : c.isDoomed = some reason) : c.doomReason = reason := by
  unfold isDoomed at h
  split at h
  · cases h
  · exact Option.some.inj h

theorem isDoomed_of_doomReason (h : c.doomReason = doomedAtInitialLoad) :
    c.isDoomed = some doomedAtInitialLoad := by
  unfold isDoomed
  rw [h, if_neg doomedAtInitialLoad_ne_nil]

theorem not_converged_of_doomed (h : c.doomReason = doomedAtInitialLoad) : c.isConverged = false := by
  unfold isConverged
  rw [h]
  simp [doomedAtInitialLoad_ne_nil]

theorem afterResults_append (c : ExponentialSearchStepController) (results more : List BenchmarkResult) :
    c.afterResults (results ++ more) = (c.afterResults results).afterResults more := List.foldl_append

/-! ## Convergence -/

def InRange (c : ExponentialSearchStepController) (bottom top : ℚ) : Prop :=
  c.bottomLoadValue = .num bottom ∧ c.topLoadValue = .num top

theorem InRange.unique {bottom top bottom' top' : ℚ} (h : InRange c bottom top)
    (h' : InRange c bottom' top') :
    bottom = bottom' ∧ top = top' :=
  ⟨Nan.num.inj (h.1.symm.trans h'.1), Nan.num.inj (h.2.symm.trans h'.2)⟩

/-- A load of the search is at least its lowest load, so that the width gets small against it. -/
theorem Bisecting.converges (h : Bisecting b p c) {low : ℚ} (hlow : 0 < low) (hbottom : low ≤ b.bottom)
    (hwidth : 0 < b.width) (hsmall : 50 * b.width < low) : c.isConverged = true := by
  have htop : b.bottom < b.top := sub_pos.mp hwidth
  have hp : low ≤ p := by
    rcases h.isEnd with rfl | rfl
    · exact hbottom
    · exact hbottom.trans htop.le
  rw [h.isConverged_iff (lt_of_lt_of_le hlow hp) hwidth]
  linarith

end ExponentialSearchStepController

open ExponentialSearchStepController

theorem bracket_width (a f : ℚ) (k : ℕ) :
    (⟨a * f ^ k, a * f ^ (k + 1)⟩ : Bisection ℚ).width = (f - 1) * (a * f ^ k) := by
  unfold Bisection.width
  ring

theorem bisecting_after {a f : ℚ} {k : ℕ} {c : ExponentialSearchStepController} (h : Ranging a f (k + 1) c)
    (ha : 0 < a) (hf : 1 < f) {failing : BenchmarkResult} (hfail : ¬ Passes failing)
    (later : List BenchmarkResult) :
    ∃ b p, Bisecting b p (c.afterResults (failing :: later)) ∧ 0 < b.width ∧
      b.width = (f - 1) * (a * f ^ k) / 2 ^ later.length ∧ a * f ^ k ≤ b.bottom := by
  have hload : 0 < a * f ^ k := by positivity
  have hwidth : 0 < (⟨a * f ^ k, a * f ^ (k + 1)⟩ : Bisection ℚ).width := by
    rw [bracket_width]
    exact mul_pos (by linarith) hload
  obtain ⟨p, hp⟩ := (h.fail hfail).results later
  obtain ⟨hnarrowed, hbottom⟩ := Bisection.foldl_narrow hwidth (later.map fun r => decide (Passes r))
  rw [List.length_map] at hnarrowed
  refine ⟨_, p, hp, ?_, ?_, hbottom⟩
  · rw [hnarrowed]
    positivity
  · rw [hnarrowed, bracket_width]

/-- The load is multiplied while all scores pass. After the first that fails the controller
halves an interval with each further score, whatever it is, and converges. If the first of all
fails, it is doomed for good. -/
theorem exponential_search_converges (env : Env) (config : ExponentialSearchStepControllerConfig)
    (template : CommandLineOptions) (c : ExponentialSearchStepController)
    (hnew : ExponentialSearchStepController.new env config template = .ok c) (a f : ℚ)
    (ha : 0 < a) (hf : 1 < f)
    (hinitial : config.initialValue = .num a) (hfactor : c.exponentialFactor = .num f) :
    (∀ passing : List BenchmarkResult, (∀ r ∈ passing, Passes r) →
      (c.afterResults passing).currentLoadValue = .num (a * f ^ passing.length) ∧
        (c.afterResults passing).isConverged = false ∧ (c.afterResults passing).isDoomed = none) ∧
    (∀ (k : ℕ) (passing : List BenchmarkResult) (failing : BenchmarkResult) (later : List BenchmarkResult),
      passing.length = k + 1 → (∀ r ∈ passing, Passes r) → ¬ Passes failing →
      ∃ bottom top, InRange (c.afterResults (passing ++ failing :: later)) bottom top ∧ bottom < top ∧
        (c.afterResults (passing ++ failing :: later)).currentLoadValue = .num ((bottom + top) / 2) ∧
        top - bottom = (f - 1) * (a * f ^ k) / 2 ^ later.length ∧
        (∀ next bottom' top',
          InRange (c.afterResults (passing ++ failing :: (later ++ [next]))) bottom' top' →
          bottom ≤ bottom' ∧ top' ≤ top) ∧
        (50 * (f - 1) < 2 ^ later.length →
          (c.afterResults (passing ++ failing :: later)).isConverged = true)) ∧
    ∀ (first : BenchmarkResult) (later : List BenchmarkResult), ¬ Passes first →
      (c.afterResults (first :: later)).isDoomed = some doomedAtInitialLoad ∧
        (c.afterResults (first :: later)).isConverged = false := by
  have hranging := ranging_of_new hinitial hnew hfactor
  refine ⟨fun passing hpass => ?_, fun k passing failing later hlen hpass hfail => ?_,
    fun first later hfail => ?_⟩
  · have h := hranging.passing hpass
    rw [Nat.zero_add] at h
    exact ⟨h.current, h.not_converged, isDoomed_eq_none h.notDoomed⟩
  · have h := hranging.passing hpass
    rw [Nat.zero_add, hlen] at h
    have hload : 0 < a * f ^ k := by positivity
    obtain ⟨b, p, hbisecting, hpos, hwidth, hbottom⟩ := bisecting_after h ha hf hfail later
    rw [← afterResults_append] at hbisecting
    refine ⟨b.bottom, b.top, ⟨hbisecting.bottom, hbisecting.top⟩, sub_pos.mp hpos, hbisecting.current,
      hwidth, ?_, ?_⟩
    · intro next bottom' top' hrange
      have hnext := hbisecting.narrow next
      rw [← List.cons_append, ← List.append_assoc, afterResults_append] at hrange
      obtain ⟨rfl, rfl⟩ := hrange.unique ⟨hnext.bottom, hnext.top⟩
      exact ⟨Bisection.bottom_le_narrow hpos _, Bisection.narrow_top_le hpos _⟩
    · intro hmany
      refine hbisecting.converges hload hbottom hpos ?_
      rw [hwidth, mul_div_assoc', div_lt_iff₀ (by positivity)]
      nlinarith
  · have hdoomed := afterResults_doomReason (doomReason_of_isDoomed (hranging.fail_first hfail)) later
    exact ⟨isDoomed_of_doomReason hdoomed, not_converged_of_doomed hdoomed⟩

def withScore (score : ℚ) : BenchmarkResult :=
  { metricEvaluations := [{ metricId := "latency-ns-mean".toList, thresholdScore := .num score, weight := .num 1 }] }

/-- From load 100 with the default factor 2, one passing score, a failing one and then six that
contradict each other. -/
theorem exponential_search_converges_contradictory :
    ∃ c, ExponentialSearchStepController.new builtinEnv { initialValue := .num 100 } {} = .ok c ∧
      (c.afterResults ([withScore 1] ++ withScore (-1) ::
        [withScore 1, withScore (-1), withScore 1, withScore (-1), withScore 1,
          withScore (-1)])).isConverged = true ∧
      (c.afterResults [withScore (-1), withScore 1]).isDoomed = some doomedAtInitialLoad := by
  obtain ⟨c, hnew, hfactor⟩ :
    ∃ c, ExponentialSearchStepController.new builtinEnv { initialValue := .num 100 } {} = .ok c ∧
      c.exponentialFactor = .num 2 := ⟨_, rfl, by with_unfolding_all rfl⟩
  have hpass : Passes (withScore 1) := by with_unfolding_all decide
  have hfail : ¬ Passes (withScore (-1)) := by with_unfolding_all decide
  obtain ⟨-, hafter, hfirst⟩ :=
    exponential_search_converges builtinEnv { initialValue := .num 100 } {} c hnew 100 2
    (by norm_num) (by norm_num) rfl hfactor
  obtain ⟨_, _, -, -, -, -, -, hconverged⟩ := hafter 0 [withScore 1] (withScore (-1))
    [withScore 1, withScore (-1), withScore 1, withScore (-1), withScore 1, withScore (-1)] rfl
      (by simpa using hpass) hfail
  refine ⟨c, hnew, hconverged (by norm_num), (hfirst (withScore (-1)) [withScore 1] hfail).1⟩

end Nighthawk.AdaptiveLoad
