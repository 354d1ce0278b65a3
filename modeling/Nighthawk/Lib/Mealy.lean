import Mathlib.Data.List.Basic

/-!
# Machines with outputs

A machine answers each input and goes to a next state.
-/

namespace Mealy

variable {σ ι ο : Type*} (gen : σ → ι → ο × σ)

/-- The state after the inputs. -/
def after (s : σ) (inputs : List ι) : σ := inputs.foldl (fun s i => (gen s i).2) s

/-- The answers, in order. -/
def outputs : σ → List ι → List ο
  | _, [] => []
  | s, i :: inputs => (gen s i).1 :: outputs (gen s i).2 inputs

theorem after_snoc (s : σ) (inputs : List ι) (i : ι) :
    after gen s (inputs ++ [i]) = (gen (after gen s inputs) i).2 := by
  simp [after]

theorem outputs_snoc (s : σ) (inputs : List ι) (i : ι) :
    outputs gen s (inputs ++ [i]) = outputs gen s inputs ++ [(gen (after gen s inputs) i).1] := by
  induction inputs generalizing s with
  | nil => rfl
  | cons j inputs ih =>
    rw [List.cons_append, outputs, ih]
    rfl

theorem length_outputs (s : σ) (inputs : List ι) : (outputs gen s inputs).length = inputs.length := by
  induction inputs generalizing s with
  | nil => rfl
  | cons i inputs ih => rw [outputs, List.length_cons, ih, List.length_cons]

theorem getElem?_outputs (s : σ) (inputs : List ι) (k : ℕ) :
    (outputs gen s inputs)[k]? = (inputs[k]?).map fun i => (gen (after gen s (inputs.take k)) i).1 := by
  induction inputs generalizing s k with
  | nil => rfl
  | cons i inputs ih =>
    cases k with
    | zero => rfl
    | succ k => exact ih (gen s i).2 k

end Mealy
