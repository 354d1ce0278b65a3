import Mathlib.Algebra.Order.Archimedean.Basic
import Mathlib.Tactic.Linarith
import Mathlib.Tactic.Ring

/-!
# Bisection

An interval that holds a threshold is halved at its midpoint, again and again.
-/

/-- The threshold is at or above `bottom` and below `top`. -/
structure Bisection (K : Type*) where
  bottom : K
  top : K

namespace Bisection

variable {K : Type*} [Field K] [LinearOrder K]

def mid (b : Bisection K) : K := (b.bottom + b.top) / 2

def width (b : Bisection K) : K := b.top - b.bottom

/-- The upper half, or the lower half. -/
def narrow (b : Bisection K) (higher : Bool) : Bisection K :=
  if higher then ⟨b.mid, b.top⟩ else ⟨b.bottom, b.mid⟩

def Holds (b : Bisection K) (t : K) : Prop := b.bottom ≤ t ∧ t < b.top

variable {b : Bisection K} {t : K}

theorem Holds.narrow (h : b.Holds t) {higher : Bool} (hhigher : higher = true ↔ b.mid ≤ t) :
    (b.narrow higher).Holds t := by
  cases higher with
  | true => exact ⟨hhigher.mp rfl, h.2⟩
  | false => exact ⟨h.1, lt_of_not_ge fun hle => Bool.false_ne_true (hhigher.mpr hle)⟩

variable [IsStrictOrderedRing K]

theorem width_narrow (b : Bisection K) (higher : Bool) : (b.narrow higher).width = b.width / 2 := by
  unfold narrow width mid
  cases higher with
  | true =>
    simp only [if_true]
    grind
  | false =>
    simp only [Bool.false_eq_true, if_false]
    grind

theorem Holds.width_pos (h : b.Holds t) : 0 < b.width := sub_pos.mpr (lt_of_le_of_lt h.1 h.2)

theorem bottom_le_mid (h : 0 < b.width) : b.bottom ≤ b.mid := by
  unfold width at h
  unfold mid
  linarith

theorem mid_le_top (h : 0 < b.width) : b.mid ≤ b.top := by
  unfold width at h
  unfold mid
  linarith

theorem bottom_le_narrow (h : 0 < b.width) (higher : Bool) : b.bottom ≤ (b.narrow higher).bottom := by
  cases higher with
  | true => exact bottom_le_mid h
  | false => exact le_refl _

theorem narrow_top_le (h : 0 < b.width) (higher : Bool) : (b.narrow higher).top ≤ b.top := by
  cases higher with
  | true => exact le_refl _
  | false => exact mid_le_top h

theorem narrow_width_pos (h : 0 < b.width) (higher : Bool) : 0 < (b.narrow higher).width := by
  rw [width_narrow]
  exact half_pos h

theorem foldl_narrow (h : 0 < b.width) (answers : List Bool) :
    (answers.foldl narrow b).width = b.width / 2 ^ answers.length ∧
      b.bottom ≤ (answers.foldl narrow b).bottom := by
  induction answers generalizing b with
  | nil => exact ⟨by simp, le_refl _⟩
  | cons higher answers ih =>
    obtain ⟨hwidth, hbottom⟩ := ih (narrow_width_pos h higher)
    refine ⟨?_, (bottom_le_narrow h higher).trans hbottom⟩
    rw [List.foldl_cons, hwidth, width_narrow, List.length_cons, pow_succ, div_div, mul_comm (2 ^ _)]

theorem Holds.abs_mid_sub_le (h : b.Holds t) : |b.mid - t| ≤ b.width / 2 := by
  obtain ⟨hbottom, htop⟩ := h
  rw [abs_le]
  unfold mid width
  constructor <;> linarith

theorem abs_mid_sub_end (h : 0 < b.width) {p : K} (hp : p = b.bottom ∨ p = b.top) :
    |b.mid - p| = b.width / 2 := by
  unfold width at h ⊢
  unfold mid
  rcases hp with rfl | rfl
  · rw [abs_of_nonneg (by linarith)]
    ring
  · rw [abs_of_nonpos (by linarith)]
    ring

theorem exists_width_lt [Archimedean K] (w : K) {ε : K} (hε : 0 < ε) : ∃ n : ℕ, w / 2 ^ n < ε := by
  obtain ⟨n, hn⟩ := pow_unbounded_of_one_lt (w / ε) (one_lt_two : (1 : K) < 2)
  refine ⟨n, ?_⟩
  rw [div_lt_iff₀ hε] at hn
  rw [div_lt_iff₀ (by positivity), mul_comm]
  exact hn

end Bisection
