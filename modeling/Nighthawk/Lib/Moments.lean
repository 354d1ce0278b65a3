import Mathlib.Algebra.BigOperators.Group.List.Basic
import Mathlib.Algebra.CharZero.Defs
import Mathlib.Tactic.FieldSimp
import Mathlib.Tactic.LinearCombination
import Mathlib.Tactic.Ring

/-!
# Mean and variance of a list

The sum of squared deviations from the mean, and how it is made up from the parts of a list.
-/

namespace Moments

variable {K : Type*} [Field K]

def mean (l : List K) : K := l.sum / l.length

def sqDev (l : List K) : K := (l.map fun x => (x - mean l) ^ 2).sum

@[simp] theorem mean_nil : mean ([] : List K) = 0 := by simp [mean]

@[simp] theorem mean_singleton (x : K) : mean [x] = x := by simp [mean]

@[simp] theorem sqDev_singleton (x : K) : sqDev [x] = 0 := by simp [sqDev]

theorem mean_perm {l m : List K} (h : l.Perm m) : mean l = mean m := by
  rw [mean, mean, h.sum_eq, h.length_eq]

theorem sqDev_perm {l m : List K} (h : l.Perm m) : sqDev l = sqDev m := by
  rw [sqDev, sqDev, mean_perm h]
  exact (h.map _).sum_eq

theorem sum_map_sub_sq (c : K) (l : List K) :
    (l.map fun x => (x - c) ^ 2).sum = (l.map (· ^ 2)).sum - 2 * c * l.sum + l.length * c ^ 2 := by
  induction l with
  | nil => simp
  | cons x l ih =>
    simp only [List.map_cons, List.sum_cons, ih, List.length_cons, Nat.cast_succ]
    ring

variable [CharZero K]

theorem length_mul_mean (l : List K) : l.length * mean l = l.sum := by
  unfold mean
  cases l with
  | nil => simp
  | cons x l =>
    have : ((x :: l).length : K) ≠ 0 := Nat.cast_ne_zero.mpr (by simp)
    field_simp

theorem sqDev_eq (l : List K) : sqDev l = (l.map (· ^ 2)).sum - l.length * mean l ^ 2 := by
  have hsum := length_mul_mean l
  rw [sqDev, sum_map_sub_sq]
  linear_combination 2 * mean l * hsum

theorem mean_append (l m : List K) :
    mean (l ++ m) = (l.length * mean l + m.length * mean m) / (l.length + m.length : ℕ) := by
  rw [length_mul_mean, length_mul_mean, mean, List.sum_append, List.length_append]

theorem sqDev_append (l m : List K) (h : l.length + m.length ≠ 0) :
    sqDev (l ++ m) = sqDev l + sqDev m +
      (mean l - mean m) ^ 2 * l.length * m.length / (l.length + m.length : ℕ) := by
  have hn : (l.length + m.length : K) ≠ 0 := by exact_mod_cast h
  rw [sqDev_eq, sqDev_eq, sqDev_eq, mean_append]
  simp only [List.map_append, List.sum_append, List.length_append, Nat.cast_add]
  field_simp
  ring

end Moments
