import Nighthawk.Statistic.Merge

/-!
# Statistics that agree

Three statistics keep different moments of their samples. Along every tree of merges they report
the same, which is what the samples themselves say.
-/

namespace Nighthawk

open StreamingStatistic (values minOf maxOf)

/-! ## What a statistic reports -/

structure Report where
  count : ℕ
  min : UInt64
  max : UInt64
  mean : Double
  pvariance : Double
  deriving DecidableEq

/-- The numbers are those of the samples. -/
structure Describes (r : Report) (samples : List UInt64) : Prop where
  count : r.count = samples.length
  min : r.min ∈ samples ∧ ∀ x ∈ samples, r.min ≤ x
  max : r.max ∈ samples ∧ ∀ x ∈ samples, x ≤ r.max
  mean : r.mean = .num (Moments.mean (values samples))
  pvariance : r.pvariance = .num (Moments.sqDev (values samples) / samples.length)

theorem Describes.unique {r r' : Report} {l m : List UInt64} (h : Describes r l) (h' : Describes r' m)
    (hperm : l.Perm m) : r = r' := by
  have hvalues : (values l).Perm (values m) := hperm.map _
  obtain ⟨count, min, max, mean, pvariance⟩ := r
  obtain ⟨count', min', max', mean', pvariance'⟩ := r'
  congr
  · exact h.count.trans (hperm.length_eq.trans h'.count.symm)
  · exact UInt64.le_antisymm (h.min.2 _ (hperm.mem_iff.mpr h'.min.1)) (h'.min.2 _ (hperm.mem_iff.mp h.min.1))
  · exact UInt64.le_antisymm (h'.max.2 _ (hperm.mem_iff.mp h.max.1)) (h.max.2 _ (hperm.mem_iff.mpr h'.max.1))
  · refine h.mean.trans (Eq.trans ?_ h'.mean.symm)
    rw [Moments.mean_perm hvalues]
  · refine h.pvariance.trans (Eq.trans ?_ h'.pvariance.symm)
    rw [Moments.sqDev_perm hvalues, hperm.length_eq]

/-- A statistic that samples are added to. -/
class Sampled (σ : Type) extends Statistic σ where
  empty : σ
  addValue : σ → UInt64 → σ
  report : σ → Report

instance : Sampled SimpleStatistic where
  empty := {}
  addValue := SimpleStatistic.addValue
  report s := ⟨s.count, s.min, s.max, s.mean, s.pvariance⟩

instance : Sampled StreamingStatistic where
  empty := {}
  addValue := StreamingStatistic.addValue
  report s := ⟨s.count, s.min, s.max, s.mean, s.pvariance⟩

instance : Sampled InMemoryStatistic where
  empty := {}
  addValue := InMemoryStatistic.addValue
  report s := ⟨s.count, s.min, s.max, s.mean, s.pvariance⟩

/-! ## Trees of merges -/

/-- Each leaf is a statistic with at least one sample. -/
inductive MergeTree where
  | leaf (first : UInt64) (rest : List UInt64)
  | combine (a b : MergeTree)

namespace MergeTree

def samples : MergeTree → List UInt64
  | leaf first rest => first :: rest
  | combine a b => a.samples ++ b.samples

def built (σ : Type) [Sampled σ] : MergeTree → σ
  | leaf first rest => (first :: rest).foldl Sampled.addValue Sampled.empty
  | combine a b => Statistic.combine (a.built σ) (b.built σ)

theorem samples_ne_nil (t : MergeTree) : t.samples ≠ [] := by
  induction t with
  | leaf first rest => simp [samples]
  | combine a b iha ihb => simp [samples, iha]

end MergeTree

/-- A statistic whose state sums up its samples, once there are some. -/
class LawfulSampled (σ : Type) [Sampled σ] where
  Sums : σ → List UInt64 → Prop
  fed : ∀ l : List UInt64, l ≠ [] → Sums (l.foldl Sampled.addValue Sampled.empty) l
  combine : ∀ {a b : σ} {l m : List UInt64}, l ≠ [] → m ≠ [] → Sums a l → Sums b m →
    Sums (Statistic.combine a b) (l ++ m)
  report : ∀ {s : σ} {l : List UInt64}, l ≠ [] → Sums s l → Describes (Sampled.report s) l

section

variable {σ : Type} [Sampled σ] [LawfulSampled σ]

theorem MergeTree.built_sums (t : MergeTree) : LawfulSampled.Sums (t.built σ) t.samples := by
  induction t with
  | leaf first rest => exact LawfulSampled.fed _ (List.cons_ne_nil first rest)
  | combine a b iha ihb => exact LawfulSampled.combine a.samples_ne_nil b.samples_ne_nil iha ihb

theorem MergeTree.describes (σ : Type) [Sampled σ] [LawfulSampled σ] (t : MergeTree) :
    Describes (Sampled.report (t.built σ)) t.samples :=
  LawfulSampled.report t.samples_ne_nil t.built_sums

end

/-! ## The extremes -/

theorem min_spec (a b : UInt64) :
    (Min.min a b = a ∨ Min.min a b = b) ∧ Min.min a b ≤ a ∧ Min.min a b ≤ b := by
  refine ⟨?_, ?_⟩
  · show (if a ≤ b then a else b) = a ∨ (if a ≤ b then a else b) = b
    split
    · exact Or.inl rfl
    · exact Or.inr rfl
  · rw [UInt64.le_iff_toNat_le, UInt64.le_iff_toNat_le, StreamingStatistic.toNat_min]
    omega

theorem max_spec (a b : UInt64) :
    (Max.max a b = a ∨ Max.max a b = b) ∧ a ≤ Max.max a b ∧ b ≤ Max.max a b := by
  refine ⟨?_, ?_⟩
  · show (if a ≤ b then b else a) = a ∨ (if a ≤ b then b else a) = b
    split
    · exact Or.inr rfl
    · exact Or.inl rfl
  · rw [UInt64.le_iff_toNat_le, UInt64.le_iff_toNat_le, StreamingStatistic.toNat_max]
    omega

theorem minOf_spec {l : List UInt64} (h : l ≠ []) : minOf l ∈ l ∧ ∀ x ∈ l, minOf l ≤ x := by
  induction l using List.reverseRecOn with
  | nil => exact absurd rfl h
  | append_singleton l x ih =>
    by_cases hl : l = []
    · rw [hl, List.nil_append, StreamingStatistic.minOf_singleton]
      simp
    · obtain ⟨hmem, hle⟩ := ih hl
      obtain ⟨heither, hleft, hright⟩ := min_spec (minOf l) x
      rw [StreamingStatistic.minOf_append, StreamingStatistic.minOf_singleton]
      refine ⟨?_, fun y hy => ?_⟩
      · rcases heither with heq | heq
        · rw [heq]
          exact List.mem_append_left _ hmem
        · rw [heq]
          simp
      · rcases List.mem_append.mp hy with hy | hy
        · exact UInt64.le_trans hleft (hle y hy)
        · rwa [List.mem_singleton.mp hy]

theorem maxOf_spec {l : List UInt64} (h : l ≠ []) : maxOf l ∈ l ∧ ∀ x ∈ l, x ≤ maxOf l := by
  induction l using List.reverseRecOn with
  | nil => exact absurd rfl h
  | append_singleton l x ih =>
    by_cases hl : l = []
    · rw [hl, List.nil_append, StreamingStatistic.maxOf_singleton]
      simp
    · obtain ⟨hmem, hle⟩ := ih hl
      obtain ⟨heither, hleft, hright⟩ := max_spec (maxOf l) x
      rw [StreamingStatistic.maxOf_append, StreamingStatistic.maxOf_singleton]
      refine ⟨?_, fun y hy => ?_⟩
      · rcases heither with heq | heq
        · rw [heq]
          exact List.mem_append_left _ hmem
        · rw [heq]
          simp
      · rcases List.mem_append.mp hy with hy | hy
        · exact UInt64.le_trans (hle y hy) hleft
        · rwa [List.mem_singleton.mp hy]

/-- A statistic starts with the greatest number as its minimum and with 0 as its maximum, so it
reports the extremes once it has a sample. -/
theorem describes_of_folds {r : Report} {l : List UInt64} (hl : l ≠ []) (hcount : r.count = l.length)
    (hmin : r.min = minOf l) (hmax : r.max = maxOf l) (hmean : r.mean = .num (Moments.mean (values l)))
    (hpvariance : r.pvariance = .num (Moments.sqDev (values l) / l.length)) : Describes r l where
  count := hcount
  min := by
    rw [hmin]
    exact minOf_spec hl
  max := by
    rw [hmax]
    exact maxOf_spec hl
  mean := hmean
  pvariance := hpvariance

/-! ## The three statistics -/

theorem streaming_report {s : StreamingStatistic} {l : List UInt64} (hl : l ≠ [])
    (h : StreamingStatistic.Summarises s l) : Describes (Sampled.report s) l :=
  describes_of_folds hl h.count h.min h.max ((StreamingStatistic.mean_spec h.toCounts).trans (if_neg hl))
    ((StreamingStatistic.pvariance_spec h).trans (if_neg hl))

instance : LawfulSampled StreamingStatistic where
  Sums := StreamingStatistic.Summarises
  fed l _ := (StreamingStatistic.fed_spec l).2
  combine hl _ ha hb := StreamingStatistic.combine_summarises ha hb (by simp [hl])
  report := streaming_report

namespace SimpleStatistic

structure Sums (s : SimpleStatistic) (l : List UInt64) : Prop where
  count : s.count = l.length
  min : s.min = minOf l
  max : s.max = maxOf l
  sumX : s.sumX = .num (values l).sum
  sumX2 : s.sumX2 = .num ((values l).map (· ^ 2)).sum

theorem addValue_sums {s : SimpleStatistic} {l : List UInt64} (h : Sums s l) (x : UInt64) :
    Sums (s.addValue x) (l ++ [x]) := by
  have happ : values (l ++ [x]) = values l ++ [(x.toNat : ℚ)] := StreamingStatistic.values_append l [x]
  constructor
  · simp [addValue, h.count]
  · rw [StreamingStatistic.minOf_append, StreamingStatistic.minOf_singleton, ← h.min]
    rfl
  · rw [StreamingStatistic.maxOf_append, StreamingStatistic.maxOf_singleton, ← h.max]
    rfl
  · rw [happ, List.sum_append, List.sum_singleton, addValue, h.sumX]
    rfl
  · rw [happ, List.map_append, List.sum_append, addValue, h.sumX2]
    simp [pow_two]

theorem fed_sums (l : List UInt64) : Sums (l.foldl addValue {}) l := by
  induction l using List.reverseRecOn with
  | nil => exact ⟨rfl, rfl, rfl, rfl, rfl⟩
  | append_singleton l x ih =>
    rw [List.foldl_append]
    exact addValue_sums ih x

theorem combine_sums {a b : SimpleStatistic} {l m : List UInt64} (ha : Sums a l) (hb : Sums b m) :
    Sums (a.combine b) (l ++ m) where
  count := by simp [combine, ha.count, hb.count]
  min := by rw [StreamingStatistic.minOf_append, ← ha.min, ← hb.min]; rfl
  max := by rw [StreamingStatistic.maxOf_append, ← ha.max, ← hb.max]; rfl
  sumX := by
    rw [StreamingStatistic.values_append, List.sum_append, combine, ha.sumX, hb.sumX]
    rfl
  sumX2 := by
    rw [StreamingStatistic.values_append, List.map_append, List.sum_append, combine, ha.sumX2, hb.sumX2]
    rfl

theorem mean_of_sums {s : SimpleStatistic} {l : List UInt64} (hl : l ≠ []) (h : Sums s l) :
    s.mean = .num (Moments.mean (values l)) := by
  have hn : (l.length : ℚ) ≠ 0 := Nat.cast_ne_zero.mpr (by simpa using hl)
  rw [mean, h.count, if_neg (by simpa using hl), h.sumX, Nan.num_div_num _ _ hn, Moments.mean,
    StreamingStatistic.length_values]

theorem pvariance_of_sums {s : SimpleStatistic} {l : List UInt64} (hl : l ≠ []) (h : Sums s l) :
    s.pvariance = .num (Moments.sqDev (values l) / l.length) := by
  have hn : (l.length : ℚ) ≠ 0 := Nat.cast_ne_zero.mpr (by simpa using hl)
  rw [pvariance, mean_of_sums hl h, h.count, if_neg (by simpa using hl), h.sumX2, Nan.num_div_num _ _ hn,
    Moments.sqDev_eq, StreamingStatistic.length_values, Nan.num_mul_num, Nan.num_sub_num]
  congr 1
  field_simp

theorem report_of_sums {s : SimpleStatistic} {l : List UInt64} (hl : l ≠ []) (h : Sums s l) :
    Describes (Sampled.report s) l :=
  describes_of_folds hl h.count h.min h.max (mean_of_sums hl h) (pvariance_of_sums hl h)

end SimpleStatistic

instance : LawfulSampled SimpleStatistic where
  Sums := SimpleStatistic.Sums
  fed l _ := SimpleStatistic.fed_sums l
  combine _ _ := SimpleStatistic.combine_sums
  report := SimpleStatistic.report_of_sums

namespace InMemoryStatistic

/-- The kept samples only count. -/
structure Sums (s : InMemoryStatistic) (l : List UInt64) : Prop where
  count : s.count = l.length
  samples : s.samples.length = l.length
  min : s.min = minOf l
  max : s.max = maxOf l
  streaming : StreamingStatistic.Summarises s.streamingStats l

theorem streamingStats_fed (l : List UInt64) :
    (l.foldl addValue {}).streamingStats = StreamingStatistic.fed l := by
  induction l using List.reverseRecOn with
  | nil => rfl
  | append_singleton l x ih =>
    rw [List.foldl_append, StreamingStatistic.fed, List.foldl_append]
    exact congrArg (StreamingStatistic.addValue · x) ih

theorem fed_sums (l : List UInt64) : Sums (l.foldl addValue {}) l := by
  induction l using List.reverseRecOn with
  | nil => exact ⟨rfl, rfl, rfl, rfl, (StreamingStatistic.fed_spec []).2⟩
  | append_singleton l x ih =>
    have hstreaming := streamingStats_fed (l ++ [x])
    constructor
    case streaming =>
      rw [hstreaming]
      exact (StreamingStatistic.fed_spec _).2
    all_goals rw [List.foldl_append, List.foldl_cons, List.foldl_nil]
    case count => simp [addValue, ih.count]
    case samples => simp [addValue, ih.samples]
    case min =>
      rw [StreamingStatistic.minOf_append, StreamingStatistic.minOf_singleton, ← ih.min]
      rfl
    case max =>
      rw [StreamingStatistic.maxOf_append, StreamingStatistic.maxOf_singleton, ← ih.max]
      rfl

theorem combine_sums {a b : InMemoryStatistic} {l m : List UInt64} (hl : l ≠ []) (ha : Sums a l)
    (hb : Sums b m) :
    Sums (a.combine b) (l ++ m) where
  count := by simp [combine, ha.samples, hb.samples]
  samples := by simp [combine, ha.samples, hb.samples]
  min := by rw [StreamingStatistic.minOf_append, ← ha.min, ← hb.min]; rfl
  max := by rw [StreamingStatistic.maxOf_append, ← ha.max, ← hb.max]; rfl
  streaming := StreamingStatistic.combine_summarises ha.streaming hb.streaming (by simp [hl])

theorem report_of_sums {s : InMemoryStatistic} {l : List UInt64} (hl : l ≠ []) (h : Sums s l) :
    Describes (Sampled.report s) l :=
  have hstreaming := streaming_report hl h.streaming
  describes_of_folds hl h.count h.min h.max hstreaming.mean hstreaming.pvariance

end InMemoryStatistic

instance : LawfulSampled InMemoryStatistic where
  Sums := InMemoryStatistic.Sums
  fed l _ := InMemoryStatistic.fed_sums l
  combine hl _ := InMemoryStatistic.combine_sums hl
  report := InMemoryStatistic.report_of_sums

/-! ## Agreement -/

/-- Along every tree of merges it reports what the samples say, in whatever order and grouping
they are merged. -/
structure Faithful (σ : Type) [Sampled σ] : Prop where
  describes : ∀ t : MergeTree, Describes (Sampled.report (t.built σ)) t.samples
  comm : ∀ a b : MergeTree, Sampled.report (Statistic.combine (a.built σ) (b.built σ)) =
    Sampled.report (Statistic.combine (b.built σ) (a.built σ))
  assoc : ∀ a b c : MergeTree,
    Sampled.report (Statistic.combine (Statistic.combine (a.built σ) (b.built σ)) (c.built σ)) =
      Sampled.report (Statistic.combine (a.built σ) (Statistic.combine (b.built σ) (c.built σ)))

theorem faithful (σ : Type) [Sampled σ] [LawfulSampled σ] : Faithful σ where
  describes := MergeTree.describes σ
  comm a b := (MergeTree.describes σ (.combine a b)).unique
    (MergeTree.describes σ (.combine b a)) List.perm_append_comm
  assoc a b c := by
    refine (MergeTree.describes σ (.combine (.combine a b) c)).unique
      (MergeTree.describes σ (.combine a (.combine b c))) ?_
    rw [MergeTree.samples, MergeTree.samples, MergeTree.samples, MergeTree.samples, List.append_assoc]

theorem statistics_agree :
    Faithful SimpleStatistic ∧ Faithful StreamingStatistic ∧ Faithful InMemoryStatistic ∧
      ∀ t : MergeTree, Sampled.report (t.built SimpleStatistic) =
        Sampled.report (t.built StreamingStatistic) ∧
        Sampled.report (t.built StreamingStatistic) = Sampled.report (t.built InMemoryStatistic) := by
  refine ⟨faithful _, faithful _, faithful _, fun t => ⟨?_, ?_⟩⟩
  · exact (MergeTree.describes _ t).unique (MergeTree.describes _ t) (List.Perm.refl _)
  · exact (MergeTree.describes _ t).unique (MergeTree.describes _ t) (List.Perm.refl _)

example : Sampled.report ((MergeTree.combine (.leaf 1 [2]) (.leaf 6 [])).built SimpleStatistic) =
    ⟨3, 1, 6, .num 3, .num (14 / 3)⟩ := by decide +kernel

end Nighthawk
