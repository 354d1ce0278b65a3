import Mathlib.Algebra.Order.Field.Rat
import Mathlib.Data.List.Forall2
import Nighthawk.Lib.Moments
import Nighthawk.Statistic.Code

/-!
# The merged statistic and the samples

A streaming statistic is the summary of the samples it was fed with, and so is the merge of two
of them, unless both are empty. Merging two empty statistics leaves NaN behind, and no later
sample takes it out of the variance again.
-/

namespace Nighthawk.StreamingStatistic

/-- The statistic after it was fed with the samples. -/
def fed (samples : List UInt64) : StreamingStatistic := samples.foldl addValue {}

def values (samples : List UInt64) : List ℚ := samples.map fun v => (v.toNat : ℚ)

def minOf (samples : List UInt64) : UInt64 := samples.foldl Min.min 18446744073709551615

def maxOf (samples : List UInt64) : UInt64 := samples.foldl Max.max 0

theorem values_append (l m : List UInt64) : values (l ++ m) = values l ++ values m := List.map_append

@[simp] theorem length_values (l : List UInt64) : (values l).length = l.length := List.length_map _

/-! ## Extremes -/

theorem toNat_min (a b : UInt64) : (Min.min a b).toNat = Min.min a.toNat b.toNat := by
  show (if a ≤ b then a else b).toNat = _
  split <;> rename_i h <;> rw [UInt64.le_iff_toNat_le] at h <;> omega

theorem toNat_max (a b : UInt64) : (Max.max a b).toNat = Max.max a.toNat b.toNat := by
  show (if a ≤ b then b else a).toNat = _
  split <;> rename_i h <;> rw [UInt64.le_iff_toNat_le] at h <;> omega

theorem foldl_min_eq (a : UInt64) (l : List UInt64) : l.foldl Min.min a = Min.min a (minOf l) := by
  unfold minOf
  apply UInt64.toNat_inj.mp
  induction l using List.reverseRecOn with
  | nil =>
    have := a.toNat_lt
    simp only [List.foldl_nil, toNat_min, UInt64.reduceToNat]
    omega
  | append_singleton l x ih =>
    simp only [List.foldl_append, List.foldl_cons, List.foldl_nil, toNat_min] at ih ⊢
    omega

theorem foldl_max_eq (a : UInt64) (l : List UInt64) : l.foldl Max.max a = Max.max a (maxOf l) := by
  unfold maxOf
  apply UInt64.toNat_inj.mp
  induction l using List.reverseRecOn with
  | nil =>
    simp only [List.foldl_nil, toNat_max, UInt64.reduceToNat]
    omega
  | append_singleton l x ih =>
    simp only [List.foldl_append, List.foldl_cons, List.foldl_nil, toNat_max] at ih ⊢
    omega

theorem minOf_append (l m : List UInt64) : minOf (l ++ m) = Min.min (minOf l) (minOf m) := by
  rw [minOf, List.foldl_append, foldl_min_eq]
  rfl

theorem maxOf_append (l m : List UInt64) : maxOf (l ++ m) = Max.max (maxOf l) (maxOf m) := by
  rw [maxOf, List.foldl_append, foldl_max_eq]
  rfl

theorem minOf_singleton (x : UInt64) : minOf [x] = x := by
  have := x.toNat_lt
  apply UInt64.toNat_inj.mp
  simp only [minOf, List.foldl_cons, List.foldl_nil, toNat_min, UInt64.reduceToNat]
  omega

theorem maxOf_singleton (x : UInt64) : maxOf [x] = x := by
  apply UInt64.toNat_inj.mp
  simp only [maxOf, List.foldl_cons, List.foldl_nil, toNat_max, UInt64.reduceToNat]
  omega

/-! ## One statistic -/

/-- Count, extremes and mean are those of the samples. -/
structure Counts (s : StreamingStatistic) (samples : List UInt64) : Prop where
  count : s.count = samples.length
  min : s.min = minOf samples
  max : s.max = maxOf samples
  mean : samples ≠ [] → s.mean_ = .num (Moments.mean (values samples))

structure Summarises (s : StreamingStatistic) (samples : List UInt64) : Prop extends Counts s samples where
  variance : s.accumulatedVariance = .num (Moments.sqDev (values samples))

theorem mean_spec {s : StreamingStatistic} {l : List UInt64} (hs : Counts s l) :
    s.mean = if l = [] then .nan else .num (Moments.mean (values l)) := by
  unfold StreamingStatistic.mean
  rw [hs.count]
  by_cases hl : l = []
  · simp [hl]
  · rw [if_neg hl, if_neg (by simpa using hl), hs.mean hl]

theorem meanOrZero_spec {s : StreamingStatistic} {l : List UInt64} (hs : Counts s l) :
    s.meanOrZero = .num (Moments.mean (values l)) := by
  unfold meanOrZero
  rw [mean_spec hs]
  by_cases hl : l = []
  · simp [hl, values]
  · simp [hl]

theorem addValue_spec {s : StreamingStatistic} {l : List UInt64} (hs : Summarises s l)
    (hmean : s.mean_ = .num (Moments.mean (values l))) (x : UInt64) :
    (s.addValue x).mean_ = .num (Moments.mean (values (l ++ [x]))) ∧
      Summarises (s.addValue x) (l ++ [x]) := by
  obtain ⟨⟨hc, hmin, hmax, -⟩, hvar⟩ := hs
  have hn : ((l.length + 1 : ℕ) : ℚ) ≠ 0 := Nat.cast_ne_zero.mpr (by omega)
  have hn' : (l.length + 1 : ℚ) ≠ 0 := by exact_mod_cast hn
  have happ : values (l ++ [x]) = values l ++ [(x.toNat : ℚ)] := values_append l [x]
  have hmean' : (s.addValue x).mean_ = .num (Moments.mean (values (l ++ [x]))) := by
    simp only [addValue, hc, hmean, Nan.num_sub_num, Nan.num_div_num _ _ hn, Nan.num_add_num]
    rw [happ, Moments.mean_append]
    simp only [length_values, List.length_singleton, Moments.mean_singleton, Nat.cast_add, Nat.cast_one]
    congr 1
    field_simp
    ring
  refine ⟨hmean', ⟨⟨?_, ?_, ?_, fun _ => hmean'⟩, ?_⟩⟩
  · simp [addValue, hc]
  · rw [minOf_append, ← hmin, minOf_singleton]
    rfl
  · rw [maxOf_append, ← hmax, maxOf_singleton]
    rfl
  · -- The new sample is a list of its own, without deviations.
    simp only [addValue, hc, hmean, hvar, Nan.num_sub_num, Nan.num_div_num _ _ hn, Nan.num_mul_num,
      Nan.num_add_num]
    rw [happ, Moments.sqDev_append _ _ (by simp)]
    simp only [length_values, List.length_singleton, Moments.mean_singleton, Moments.sqDev_singleton,
      Nat.cast_add, Nat.cast_one]
    congr 1
    field_simp
    ring

theorem fed_spec (l : List UInt64) :
    (fed l).mean_ = .num (Moments.mean (values l)) ∧ Summarises (fed l) l := by
  induction l using List.reverseRecOn with
  | nil => exact ⟨by simp [fed, values], ⟨⟨rfl, rfl, rfl, fun h => absurd rfl h⟩, rfl⟩⟩
  | append_singleton l x ih =>
    rw [fed, List.foldl_append]
    exact addValue_spec ih.2 ih.1 x

/-! ## Two statistics -/

theorem combine_counts {a b : StreamingStatistic} {l m : List UInt64} (ha : Counts a l) (hb : Counts b m) :
    Counts (a.combine b) (l ++ m) where
  count := by simp [combine, ha.count, hb.count]
  min := by rw [minOf_append, ← ha.min, ← hb.min]; rfl
  max := by rw [maxOf_append, ← ha.max, ← hb.max]; rfl
  mean := by
    intro hne
    have hn : ((l.length + m.length : ℕ) : ℚ) ≠ 0 := by
      rw [← List.length_append]
      exact Nat.cast_ne_zero.mpr (by simpa using hne)
    simp only [combine, meanOrZero_spec ha, meanOrZero_spec hb, ha.count, hb.count, Nan.num_mul_num,
      Nan.num_add_num, Nan.num_div_num _ _ hn]
    rw [values_append, Moments.mean_append]
    simp only [length_values]

theorem combine_summarises {a b : StreamingStatistic} {l m : List UInt64} (ha : Summarises a l)
    (hb : Summarises b m) (hne : l ++ m ≠ []) : Summarises (a.combine b) (l ++ m) := by
  refine ⟨combine_counts ha.toCounts hb.toCounts, ?_⟩
  have hlen : l.length + m.length ≠ 0 := by
    rw [← List.length_append]
    simpa using hne
  have hn : ((l.length + m.length : ℕ) : ℚ) ≠ 0 := Nat.cast_ne_zero.mpr hlen
  simp only [combine, meanOrZero_spec ha.toCounts, meanOrZero_spec hb.toCounts, ha.count, hb.count,
    ha.variance, hb.variance, Nan.num_sub_num, Nan.num_mul_num, Nan.num_add_num, Nan.num_div_num _ _ hn]
  rw [values_append, Moments.sqDev_append _ _ (by simpa using hlen)]
  simp only [length_values, pow_two]

/-- Two empty statistics divide zero by zero. -/
theorem combine_nan_of_empty {a b : StreamingStatistic} (ha : a.count = 0) (hb : b.count = 0) :
    (a.combine b).accumulatedVariance = .nan := by
  simp [combine, ha, hb]

theorem combine_nan {a b : StreamingStatistic} (ha : a.accumulatedVariance = .nan) :
    (a.combine b).accumulatedVariance = .nan := by
  simp [combine, ha]

/-! ## All workers -/

/-- The merged statistic of one id, after another worker. -/
def mergeOne (s : StreamingStatistic) (samples : List UInt64) : StreamingStatistic :=
  Statistic.setId (Statistic.combine s (fed samples)) (Statistic.id s)

theorem foldl_counts {s : StreamingStatistic} {l : List UInt64} (hs : Counts s l) (ws : List (List UInt64)) :
    Counts (ws.foldl mergeOne s) (l ++ ws.flatten) := by
  induction ws generalizing s l with
  | nil => simpa using hs
  | cons w ws ih =>
    have hw := combine_counts hs (fed_spec w).2.toCounts
    have := ih (s := mergeOne s w) ⟨hw.count, hw.min, hw.max, hw.mean⟩
    simpa using this

theorem foldl_summarises {s : StreamingStatistic} {l : List UInt64} (hs : Summarises s l) (hne : l ≠ [])
    (ws : List (List UInt64)) : Summarises (ws.foldl mergeOne s) (l ++ ws.flatten) := by
  induction ws generalizing s l with
  | nil => simpa using hs
  | cons w ws ih =>
    have hw := combine_summarises hs (fed_spec w).2 (by simp [hne])
    have := ih (s := mergeOne s w) ⟨⟨hw.count, hw.min, hw.max, hw.mean⟩, hw.variance⟩ (by simp [hne])
    simpa using this

theorem foldl_id (s : StreamingStatistic) (ws : List (List UInt64)) : (ws.foldl mergeOne s).id = s.id := by
  induction ws generalizing s with
  | nil => rfl
  | cons w ws ih => exact ih (mergeOne s w)

theorem foldl_nan {s : StreamingStatistic} (hs : s.accumulatedVariance = .nan) (ws : List (List UInt64)) :
    (ws.foldl mergeOne s).accumulatedVariance = .nan := by
  induction ws generalizing s with
  | nil => exact hs
  | cons w ws ih => exact ih (combine_nan hs)

/-- The two statistics show the same numbers. -/
structure Same (a b : StreamingStatistic) : Prop where
  count : a.count = b.count
  min : a.min = b.min
  max : a.max = b.max
  mean : a.mean = b.mean
  pvariance : a.pvariance = b.pvariance

theorem pvariance_spec {s : StreamingStatistic} {l : List UInt64} (hs : Summarises s l) :
    s.pvariance = if l = [] then .nan else .num (Moments.sqDev (values l) / l.length) := by
  unfold pvariance
  rw [hs.count, hs.variance]
  by_cases hl : l = []
  · simp [hl]
  · have hn : (l.length : ℚ) ≠ 0 := Nat.cast_ne_zero.mpr (by simpa using hl)
    rw [if_neg hl, if_neg (by simpa using hl), Nan.num_div_num _ _ hn]

theorem same_iff {a b : StreamingStatistic} {l : List UInt64} (ha : Counts a l) (hb : Counts b l) :
    Same a b ↔ a.pvariance = b.pvariance := by
  refine ⟨Same.pvariance, fun h => ⟨?_, ?_, ?_, ?_, h⟩⟩
  · rw [ha.count, hb.count]
  · rw [ha.min, hb.min]
  · rw [ha.max, hb.max]
  · rw [mean_spec ha, mean_spec hb]

theorem same_foldl_iff (i : Str) (w : List UInt64) (ws : List (List UInt64)) :
    Same ((w :: ws).foldl mergeOne { id := i }) (fed (w :: ws).flatten) ↔ w ≠ [] ∨ ∀ v ∈ ws, v = [] := by
  have hinit : Summarises { id := i } [] := ⟨⟨rfl, rfl, rfl, fun h => absurd rfl h⟩, rfl⟩
  have hcounts : Counts ((w :: ws).foldl mergeOne { id := i }) (w :: ws).flatten :=
    foldl_counts hinit.toCounts (w :: ws)
  have hfed := (fed_spec (w :: ws).flatten).2
  rw [same_iff hcounts hfed.toCounts, pvariance_spec hfed]
  by_cases hw : w = []
  · -- The first merge was of two empty statistics.
    have hnan : ((w :: ws).foldl mergeOne { id := i }).accumulatedVariance = .nan := by
      have hempty : (fed w).count = 0 := by rw [(fed_spec w).2.count, hw]; rfl
      have hfirst := combine_nan_of_empty (a := { id := i }) rfl hempty
      exact foldl_nan (s := mergeOne { id := i } w) hfirst ws
    have hpv : ((w :: ws).foldl mergeOne { id := i }).pvariance = .nan := by
      unfold pvariance
      rw [hnan, Nan.nan_div, ite_self]
    rw [hpv]
    by_cases hall : ∀ v ∈ ws, v = []
    · have hnil : (w :: ws).flatten = [] := by simpa [hw] using hall
      rw [if_pos hnil]
      exact ⟨fun _ => .inr hall, fun _ => rfl⟩
    · have hne : (w :: ws).flatten ≠ [] := by simpa [hw] using hall
      rw [if_neg hne]
      simp [hw, hall]
  · have hsum : Summarises ((w :: ws).foldl mergeOne { id := i }) (w :: ws).flatten := by
      have hfirst := combine_summarises hinit (fed_spec w).2 (by simpa using hw)
      have := foldl_summarises (s := mergeOne { id := i } w) (l := w)
        ⟨⟨hfirst.count, hfirst.min, hfirst.max, hfirst.mean⟩, hfirst.variance⟩ hw ws
      simpa using this
    rw [pvariance_spec hsum]
    exact ⟨fun _ => .inl hw, fun _ => rfl⟩

/-- The statistics of a worker that was fed with `samples id` for each id. -/
def statistics (ids : List Str) (samples : Str → List UInt64) : StatisticPtrMap StreamingStatistic :=
  ids.map fun id => (id, { fed (samples id) with id := id })

theorem mergeWorker_spec (ids : List Str) (f : Str → StreamingStatistic) (w : Str → List UInt64) :
    mergeWorker (ids.map f) (statistics ids w) = some (ids.map fun i => mergeOne (f i) (w i)) := by
  unfold statistics
  induction ids with
  | nil => rfl
  | cons i ids ih =>
    simp only [List.map_cons, mergeWorker, ih, Option.map_some]
    rfl

theorem mergeWorkers_spec (ids : List Str) (f : Str → StreamingStatistic)
    (workers : List (Str → List UInt64)) :
    (workers.map (statistics ids)).foldlM mergeWorker (ids.map f) =
      some (ids.map fun i => (workers.map (· i)).foldl mergeOne (f i)) := by
  induction workers generalizing f with
  | nil => rfl
  | cons w workers ih =>
    rw [List.map_cons, List.foldlM_cons, mergeWorker_spec]
    exact ih fun i => mergeOne (f i) (w i)

/-- Each merged statistic is the one of all samples exactly when the first worker has a sample of
it, or no worker has. -/
theorem merged_same_iff (ids : List Str) (w : Str → List UInt64) (ws : List (Str → List UInt64)) :
    ∃ merged, mergeWorkerStatistics ((w :: ws).map (statistics ids)) = some merged ∧
      List.Forall₂ (fun i m => m.id = i ∧
        (Same m (fed ((w :: ws).flatMap (· i))) ↔ w i ≠ [] ∨ ∀ v ∈ ws, v i = [])) ids merged := by
  have hinit : (statistics ids w).map (fun s => Statistic.setId
      (Statistic.createNewInstanceOfSameType s.2) s.1) = ids.map fun i => { id := i } := by
    unfold statistics
    rw [List.map_map]
    rfl
  refine ⟨ids.map fun i => ((w :: ws).map (· i)).foldl mergeOne { id := i }, ?_, ?_⟩
  · show ((w :: ws).map (statistics ids)).foldlM mergeWorker ((statistics ids w).map _) = _
    rw [hinit]
    exact mergeWorkers_spec ids _ (w :: ws)
  · rw [List.forall₂_map_right_iff, List.forall₂_same]
    intro i _
    refine ⟨foldl_id _ _, ?_⟩
    rw [List.flatMap_def]
    refine (same_foldl_iff i (w i) (ws.map (· i))).trans ?_
    simp only [List.forall_mem_map]

/-- The first worker has no sample, the second has one. -/
def lateSamples : List (Str → List UInt64) := [fun _ => [], fun _ => [1]]

theorem late_sample_variance_nan :
    ∃ m, mergeWorkerStatistics (lateSamples.map (statistics ["latency".toList])) = some [m] ∧
      m.count = 1 ∧ m.mean = .num 1 ∧ m.pvariance = .nan ∧ (fed [1]).pvariance = .num 0 ∧
      ¬ Same m (fed (lateSamples.flatMap (· "latency".toList))) := by
  refine ⟨_, rfl, rfl, by decide +kernel, by decide +kernel, by decide +kernel, fun h => ?_⟩
  exact absurd h.pvariance (by decide +kernel)

end Nighthawk.StreamingStatistic
