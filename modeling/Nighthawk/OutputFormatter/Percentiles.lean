import Mathlib.Tactic.NormNum
import Nighthawk.OutputFormatter.Code

/-!
# Reported percentiles

Of entries in ascending order, the smallest one that reaches a target is reported for it or was
reported for an earlier target.
-/

namespace Nighthawk.OutputFormatter

open Results

def Ascending (percentiles : List Percentile) : Prop :=
  percentiles.Pairwise fun a b => a.percentile ≤ b.percentile

/-- Of the entries, `r` has the smallest percentile that is at least `p`. -/
def IsSmallest (percentiles : List Percentile) (p : Double) (r : Percentile) : Prop :=
  r ∈ percentiles ∧ p ≤ r.percentile ∧ ∀ e ∈ percentiles, p ≤ e.percentile → r.percentile ≤ e.percentile

theorem double_le_trans {x y z : Double} : x ≤ y → y ≤ z → x ≤ z :=
  Nan.Compares.trans (r := (· ≤ ·)) (s := (· ≤ ·)) fun _ _ _ => le_trans

theorem double_lt_trans {x y z : Double} : x < y → y < z → x < z :=
  Nan.Compares.trans (r := (· < ·)) (s := (· < ·)) fun _ _ _ => lt_trans

theorem double_lt_of_lt_of_le {x y z : Double} : x < y → y ≤ z → x < z :=
  Nan.Compares.trans (r := (· < ·)) (s := (· ≤ ·)) fun _ _ _ => lt_of_lt_of_le

/-! ## One target -/

variable {percentiles : List Percentile} {last p : Double} {e : Percentile}

theorem find_spec (h : percentiles.find? (fun e => p ≤ e.percentile ∧ last < e.percentile) = some e) :
    p ≤ e.percentile ∧ last < e.percentile := by
  simpa using List.find?_some h

theorem find_le (hsorted : Ascending percentiles)
    (h : percentiles.find? (fun e => p ≤ e.percentile ∧ last < e.percentile) = some e) {e' : Percentile}
    (he' : e' ∈ percentiles) (hp : p ≤ e'.percentile) (hlast : last < e'.percentile) :
    e.percentile ≤ e'.percentile := by
  obtain ⟨-, before, after, rfl, hbefore⟩ := List.find?_eq_some_iff_append.mp h
  obtain he' | he' := List.mem_append.mp he'
  · have hfails := hbefore e' he'
    simp [hp, hlast] at hfails
  · obtain rfl | he' := List.mem_cons.mp he'
    · exact Nan.le_self hp
    · exact (List.pairwise_cons.mp (List.pairwise_append.mp hsorted).2.1).1 e' he'

/-! ## All targets -/

theorem iteratePercentilesFrom_nil (last : Double) (targets : List Double) :
    iteratePercentilesFrom [] last targets = [] := by
  induction targets with
  | nil => rfl
  | cons p targets ih => exact ih

theorem mem_of_reported {targets : List Double} (h : e ∈ iteratePercentilesFrom percentiles last targets) :
    e ∈ percentiles := by
  induction targets generalizing last with
  | nil => exact absurd h List.not_mem_nil
  | cons p targets ih =>
    rw [iteratePercentilesFrom] at h
    split at h
    next r hfind =>
      obtain rfl | h := List.mem_cons.mp h
      · exact List.mem_of_find?_eq_some hfind
      · exact ih h
    next => exact ih h

theorem iteratePercentilesFrom_increasing (percentiles : List Percentile) (last : Double)
    (targets : List Double) :
    (∀ e ∈ iteratePercentilesFrom percentiles last targets, last < e.percentile) ∧
      (iteratePercentilesFrom percentiles last targets).Pairwise fun a b => a.percentile < b.percentile := by
  induction targets generalizing last with
  | nil => exact ⟨fun e he => absurd he List.not_mem_nil, List.Pairwise.nil⟩
  | cons p targets ih =>
    rw [iteratePercentilesFrom]
    split
    next e hfind =>
      obtain ⟨-, hlast⟩ := find_spec hfind
      obtain ⟨habove, hpairs⟩ := ih e.percentile
      refine ⟨fun e' he' => ?_, List.pairwise_cons.mpr ⟨habove, hpairs⟩⟩
      obtain rfl | he' := List.mem_cons.mp he'
      · exact hlast
      · exact double_lt_trans hlast (habove e' he')
    next => exact ih last

/-- As long as `last` is below every entry that reaches `p`, the smallest of them is still to come. -/
theorem exists_reported (hsorted : Ascending percentiles) {targets : List Double}
    (htargets : targets.Pairwise (· ≤ ·)) (hp : p ∈ targets) (hreached : ∃ e ∈ percentiles, p ≤ e.percentile)
    (hlast : ∀ e ∈ percentiles, p ≤ e.percentile → last < e.percentile) :
    ∃ r ∈ iteratePercentilesFrom percentiles last targets, IsSmallest percentiles p r := by
  induction targets generalizing last with
  | nil => exact absurd hp List.not_mem_nil
  | cons t targets ih =>
    obtain ⟨hfirst, htargets⟩ := List.pairwise_cons.mp htargets
    have ht : ∀ e ∈ percentiles, p ≤ e.percentile → t ≤ e.percentile := by
      intro e _ he
      obtain rfl | hp := List.mem_cons.mp hp
      · exact he
      · exact double_le_trans (hfirst p hp) he
    rw [iteratePercentilesFrom]
    split
    next r hfind =>
      have hsmallest : ∀ e ∈ percentiles, p ≤ e.percentile → r.percentile ≤ e.percentile :=
        fun e he hpe => find_le hsorted hfind he (ht e he hpe) (hlast e he hpe)
      by_cases hpr : p ≤ r.percentile
      · exact ⟨r, List.mem_cons_self, List.mem_of_find?_eq_some hfind, hpr, hsmallest⟩
      · -- `r` was found for an earlier target, and lies below what reaches `p`.
        have hp : p ∈ targets := by
          obtain rfl | hp := List.mem_cons.mp hp
          · exact absurd (find_spec hfind).1 hpr
          · exact hp
        obtain ⟨r', hr', hsmallest'⟩ := ih htargets hp fun e he hpe =>
          Nan.lt_of_le_ne (hsmallest e he hpe) fun h => hpr (h ▸ hpe)
        exact ⟨r', List.mem_cons_of_mem r hr', hsmallest'⟩
    next hfind =>
      obtain ⟨e, he, hpe⟩ := hreached
      have hfails := List.find?_eq_none.mp hfind e he
      simp [ht e he hpe, hlast e he hpe] at hfails

theorem targetPercentiles_ascending : targetPercentiles.Pairwise (· ≤ ·) := by
  unfold targetPercentiles
  simp only [List.pairwise_cons, List.mem_cons, List.not_mem_nil, or_false, forall_eq_or_imp, forall_eq,
    Nan.num_le_num, IsEmpty.forall_iff, implies_true, List.Pairwise.nil, and_true]
  norm_num

theorem neg_one_lt_target : ∀ p ∈ targetPercentiles, (.num (-1) : Double) < p := by
  intro p hp
  have hzero : (.num 0 : Double) ≤ p := by
    obtain rfl | hp := List.mem_cons.mp hp
    · exact le_refl (0 : ℚ)
    · exact (List.pairwise_cons.mp targetPercentiles_ascending).1 p hp
  exact double_lt_of_lt_of_le (show (-1 : ℚ) < 0 by norm_num) hzero

/-- The reported entries are entries of the statistic, increase strictly, and cover each target that
some entry reaches. -/
theorem iteratePercentiles_covers (statistic : Results.Statistic)
    (hsorted : Ascending statistic.percentiles) :
    (∀ r ∈ iteratePercentiles statistic, r ∈ statistic.percentiles) ∧
    (iteratePercentiles statistic).Pairwise (fun a b => a.percentile < b.percentile) ∧
    ∀ p ∈ targetPercentiles, (∃ e ∈ statistic.percentiles, p ≤ e.percentile) →
      ∃ r ∈ iteratePercentiles statistic, IsSmallest statistic.percentiles p r := by
  refine ⟨fun r hr => mem_of_reported hr, (iteratePercentilesFrom_increasing _ _ _).2,
    fun p hp hreached => ?_⟩
  exact exists_reported hsorted targetPercentiles_ascending hp hreached fun e _ he =>
    double_lt_of_lt_of_le (neg_one_lt_target p hp) he

def halfTwice : Results.Statistic :=
  { id := [], percentiles := [⟨none, .num (1 / 2), 1⟩, ⟨none, .num (1 / 2), 2⟩, ⟨none, .num 1, 3⟩] }

theorem iteratePercentiles_covers_halfTwice :
    Ascending halfTwice.percentiles ∧ (∀ r ∈ iteratePercentiles halfTwice, r ∈ halfTwice.percentiles) ∧
      ∃ r ∈ iteratePercentiles halfTwice, IsSmallest halfTwice.percentiles (.num (3 / 4)) r := by
  have hsorted : Ascending halfTwice.percentiles := by
    unfold Ascending halfTwice
    simp only [List.pairwise_cons, List.mem_cons, List.not_mem_nil, or_false, forall_eq_or_imp, forall_eq,
      Nan.num_le_num, IsEmpty.forall_iff, implies_true, List.Pairwise.nil, and_true]
    norm_num
  have hlast : (.num (3 / 4) : Double) ≤ .num 1 := by
    rw [Nan.num_le_num]
    norm_num
  obtain ⟨hmem, -, hcovers⟩ := iteratePercentiles_covers halfTwice hsorted
  refine ⟨hsorted, hmem, hcovers _ ?_ ⟨⟨none, .num 1, 3⟩, ?_, hlast⟩⟩
  · exact List.mem_cons_of_mem _ (List.mem_cons_of_mem _ List.mem_cons_self)
  · exact List.mem_cons_of_mem _ (List.mem_cons_of_mem _ List.mem_cons_self)

/-! ## The Fortio histogram -/

namespace Fortio

theorem dataEntries_chain (count : UInt64) (prevEnd : Option Double) (percentiles : List Percentile) :
    (dataEntries count prevEnd percentiles).IsChain fun a b => b.start = a.endValue := by
  induction percentiles generalizing count prevEnd with
  | nil => exact List.IsChain.nil
  | cons p rest ih =>
    cases rest with
    | nil => exact List.IsChain.singleton _
    | cons q rest => exact List.isChain_cons_cons.mpr ⟨rfl, ih p.count (some (percentileValue p))⟩

theorem dataEntries_count_sum (count : UInt64) (prevEnd : Option Double) (percentiles : List Percentile) :
    ((dataEntries count prevEnd percentiles).map DataEntry.count).foldr (· + ·) 0 + count =
      (percentiles.getLast?.map Percentile.count).getD count := by
  induction percentiles generalizing count prevEnd with
  | nil => exact UInt64.zero_add count
  | cons p rest ih =>
    have hrest := ih p.count (some (percentileValue p))
    have hlast : (((p :: rest).getLast?).map Percentile.count).getD count =
        (rest.getLast?.map Percentile.count).getD p.count := by
      rw [List.getLast?_cons]
      cases rest.getLast? <;> rfl
    rw [hlast, ← hrest, dataEntries, List.map_cons, List.foldr_cons]
    grind

theorem exists_histogram_percentile {nhStat : Results.Statistic}
    (hsorted : Ascending nhStat.percentiles) {p : Double}
    (hp : p ∈ targetPercentiles) (hpos : .num 0 < p) {e : Percentile} (he : e ∈ nhStat.percentiles)
    (hpe : p ≤ e.percentile) (hlt : e.percentile < .num 1) :
    ∃ r, IsSmallest nhStat.percentiles p r ∧
      ∃ h ∈ (renderFortioDurationHistogram nhStat).percentiles, h.value = percentileValue r := by
  obtain ⟨r, hr, hsmallest⟩ :=
    exists_reported hsorted targetPercentiles_ascending hp ⟨e, he, hpe⟩ fun e _ he =>
    double_lt_of_lt_of_le (neg_one_lt_target p hp) he
  have hr0 : .num 0 < r.percentile := double_lt_of_lt_of_le hpos hsmallest.2.1
  have hr1 : r.percentile < .num 1 :=
    Nan.Compares.trans (r := (· ≤ ·)) (s := (· < ·)) (fun _ _ _ => lt_of_le_of_lt)
      (hsmallest.2.2 e he hpe) hlt
  have hfilter : r ∈ (iteratePercentiles nhStat).filter fun p => .num 0 < p.percentile ∧
      p.percentile < .num 1 := by
    rw [List.mem_filter]
    exact ⟨hr, decide_eq_true ⟨hr0, hr1⟩⟩
  exact ⟨r, hsmallest, _, List.mem_map_of_mem hfilter, rfl⟩

end Fortio

end Nighthawk.OutputFormatter
