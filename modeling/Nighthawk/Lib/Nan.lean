import Mathlib.Algebra.Field.Defs
import Mathlib.Order.Basic

/-!
# Numbers with NaN

Exact numbers of a field, extended with a NaN that every operation passes on. A division by zero
is NaN. A comparison with NaN is false.
-/

inductive Nan (K : Type*) where
  | nan
  | num (x : K)
  deriving DecidableEq, Repr

namespace Nan

variable {K : Type*}

def isNan : Nan K → Bool
  | nan => true
  | num _ => false

def map (f : K → K) : Nan K → Nan K
  | nan => nan
  | num x => num (f x)

/-- Applies an operation to two numbers. -/
def lift (f : K → K → K) : Nan K → Nan K → Nan K
  | num x, num y => num (f x y)
  | _, _ => nan

instance [Add K] : Add (Nan K) := ⟨lift (· + ·)⟩
instance [Sub K] : Sub (Nan K) := ⟨lift (· - ·)⟩
instance [Mul K] : Mul (Nan K) := ⟨lift (· * ·)⟩

instance [Div K] [Zero K] [DecidableEq K] : Div (Nan K) :=
  ⟨fun x y => if y = num 0 then nan else lift (· / ·) x y⟩

/-- Compares two numbers. -/
def Compares (r : K → K → Prop) : Nan K → Nan K → Prop
  | num x, num y => r x y
  | _, _ => False

instance (r : K → K → Prop) [DecidableRel r] : DecidableRel (Compares r)
  | num x, num y => inferInstanceAs (Decidable (r x y))
  | nan, _ => isFalse nofun
  | num _, nan => isFalse nofun

instance [LT K] : LT (Nan K) := ⟨Compares (· < ·)⟩
instance [LE K] : LE (Nan K) := ⟨Compares (· ≤ ·)⟩
instance [LT K] [DecidableLT K] : DecidableLT (Nan K) := inferInstanceAs (DecidableRel (Compares (· < ·)))
instance [LE K] [DecidableLE K] : DecidableLE (Nan K) := inferInstanceAs (DecidableRel (Compares (· ≤ ·)))

@[simp] theorem isNan_nan : (nan : Nan K).isNan = true := rfl
@[simp] theorem isNan_num (x : K) : (num x).isNan = false := rfl

@[simp] theorem num_add_num [Add K] (x y : K) : num x + num y = num (x + y) := rfl
@[simp] theorem num_sub_num [Sub K] (x y : K) : num x - num y = num (x - y) := rfl
@[simp] theorem num_mul_num [Mul K] (x y : K) : num x * num y = num (x * y) := rfl
@[simp] theorem num_lt_num [LT K] (x y : K) : num x < num y ↔ x < y := Iff.rfl
@[simp] theorem nan_add [Add K] (y : Nan K) : nan + y = nan := rfl

@[simp] theorem add_nan [Add K] (x : Nan K) : x + nan = nan := by
  cases x <;> rfl

@[simp] theorem num_le_num [LE K] (x y : K) : num x ≤ num y ↔ x ≤ y := Iff.rfl

theorem Compares.trans {r s t : K → K → Prop} (h : ∀ x y z, r x y → s y z → t x z) {a b c : Nan K}
    (hab : Compares r a b) (hbc : Compares s b c) : Compares t a c := by
  match a, b, c, hab, hbc with
  | num x, num y, num z, hxy, hyz => exact h x y z hxy hyz

theorem le_self [Preorder K] {a b : Nan K} (h : a ≤ b) : b ≤ b := by
  match a, b, h with
  | num _, num y, _ => exact le_refl y

theorem ne_of_nan_lt [Preorder K] {a b : Nan K} (h : a < b) : a ≠ b := by
  match a, b, h with
  | num x, num y, h =>
    intro heq
    exact lt_irrefl x (Nan.num.inj heq ▸ h)

theorem lt_of_le_ne [PartialOrder K] {a b : Nan K} (hle : a ≤ b) (hne : a ≠ b) : a < b := by
  match a, b, hle, hne with
  | num x, num y, hle, hne => exact lt_of_le_of_ne hle fun h => hne (congrArg num h)

section

variable [Div K] [Zero K] [DecidableEq K]

@[simp] theorem div_zero (x : Nan K) : x / num 0 = nan := if_pos rfl

theorem num_div_num (x y : K) (hy : y ≠ 0) : num x / num y = num (x / y) := by
  show (if num y = num 0 then nan else num (x / y)) = _
  rw [if_neg (by simpa using hy)]

theorem ite_num_div_num {c : Prop} [Decidable c] (x y z : K) (hy : c → y ≠ 0) :
    (if c then num x / num y else num z) = num (if c then x / y else z) := by
  split_ifs with h
  · exact num_div_num x y (hy h)
  · rfl

@[simp] theorem nan_div (y : Nan K) : nan / y = nan := by
  show (if y = num 0 then nan else nan) = _
  split <;> rfl

end

end Nan
