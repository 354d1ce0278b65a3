import Mathlib.Data.List.Perm.Basic
import Nighthawk.Lib.Fallible

/-!
# Python lists and random choices

What `random` answers is an input: every draw is numbered, and may be anything in its range.
-/

namespace Py

open Fallible

variable {α β : Type}

inductive Exception where
  | indexError | valueError
  deriving DecidableEq, Repr

/-! ## Lists -/

/-- `l.pop()`. -/
def pop (l : List α) : Except Exception (α × List α) :=
  match l.getLast? with
  | some a => .ok (a, l.dropLast)
  | none => .error .indexError

/-- `l.pop(i)`. -/
def popAt (l : List α) (i : ℕ) : Except Exception (α × List α) :=
  match l[i]? with
  | some a => .ok (a, l.eraseIdx i)
  | none => .error .indexError

theorem pop_spec {l : List α} (h : 0 < l.length) :
    Returns (pop l) fun p => ∃ a rest, p = (a, rest) ∧ l = rest ++ [a] := by
  have hne : l ≠ [] := List.ne_nil_of_length_pos h
  refine ⟨_, ?_, l.getLast hne, l.dropLast, rfl, (List.dropLast_append_getLast hne).symm⟩
  rw [pop, List.getLast?_eq_some_getLast hne]

theorem popAt_spec {l : List α} {i : ℕ} (h : i < l.length) :
    Returns (popAt l i) fun p => ∃ a rest, p = (a, rest) ∧ (a :: rest).Perm l := by
  refine ⟨_, ?_, l[i], l.eraseIdx i, rfl, List.getElem_cons_eraseIdx_perm h⟩
  rw [popAt, List.getElem?_eq_getElem h]

/-! ## Random choices -/

/-- `draw k n` is the `k`-th number that is drawn, from `0` to `n`. -/
structure Random (α : Type) where
  draw : ℕ → (n : ℕ) → Fin (n + 1)
  shuffle : List α → List α
  shuffle_perm : ∀ l, (shuffle l).Perm l

/-- `random.choice(l)`. -/
def Random.choice (r : Random α) (k : ℕ) : List β → Except Exception β
  | [] => .error .indexError
  | b :: rest => .ok ((b :: rest).get (r.draw k rest.length))

/-- `random.randrange(0, n)`. -/
def Random.randrange (r : Random α) (k : ℕ) : ℕ → Except Exception ℕ
  | 0 => .error .valueError
  | n + 1 => .ok (r.draw k n)

theorem Random.choice_spec (r : Random α) (k : ℕ) (b : β) (l : List β) :
    Returns (r.choice k (b :: l)) (· ∈ b :: l) :=
  Returns.ok (List.get_mem _ _)

theorem Random.randrange_spec (r : Random α) (k : ℕ) {n : ℕ} (h : 0 < n) :
    Returns (r.randrange k n) (· < n) := by
  cases n with
  | zero => omega
  | succ n => exact Returns.ok (r.draw k n).isLt

end Py
