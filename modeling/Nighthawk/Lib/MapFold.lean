import Mathlib.Algebra.BigOperators.Group.List.Basic
import Mathlib.Data.List.Induction
import Mathlib.Logic.Function.Basic

/-!
# Maps that are built by a loop

A loop over a list sets or adds the values of the elements under their keys.
-/

namespace MapFold

variable {α κ β : Type*} [DecidableEq κ] (p : α → Bool) (key : α → κ) (val : α → β)

/-- The later element replaces the earlier one. -/
def assign (l : List α) : κ → Option β :=
  l.foldl (fun m a => if p a then Function.update m (key a) (some (val a)) else m) fun _ => none

/-- The elements that a key's value comes from. -/
def sources (l : List α) (k : κ) : List α := l.filter fun a => p a && key a = k

section

variable {p key} {a : α} {k : κ}

theorem sources_snoc_of_pos (hp : p a = true) (hk : key a = k) (l : List α) :
    sources p key (l ++ [a]) k = sources p key l k ++ [a] := by
  simp [sources, hp, hk]

theorem sources_snoc_of_neg (h : ¬ (p a = true ∧ key a = k)) (l : List α) :
    sources p key (l ++ [a]) k = sources p key l k := by
  have hnot : (p a && decide (key a = k)) = false := by simpa using h
  unfold sources
  rw [List.filter_append, List.filter_cons_of_neg (by simp [hnot]), List.filter_nil, List.append_nil]

end

theorem assign_eq (l : List α) (k : κ) : assign p key val l k = (sources p key l k).getLast?.map val := by
  induction l using List.reverseRecOn with
  | nil => rfl
  | append_singleton l a ih =>
    unfold assign at ih ⊢
    rw [List.foldl_append, List.foldl_cons, List.foldl_nil]
    by_cases hp : p a = true
    · rw [if_pos hp]
      by_cases hk : key a = k
      · rw [sources_snoc_of_pos hp hk, ← hk, Function.update_self, List.getLast?_concat]
        rfl
      · rw [sources_snoc_of_neg fun h => hk h.2, Function.update_of_ne (Ne.symm hk), ih]
    · rw [if_neg hp, sources_snoc_of_neg fun h => hp h.1, ih]

variable [AddMonoid β]

/-- The elements are added up. -/
def accumulate (l : List α) : κ → Option β :=
  l.foldl (fun m a => if p a then
    Function.update m (key a) (some ((m (key a)).getD 0 + val a)) else m) fun _ => none

theorem accumulate_eq (l : List α) (k : κ) :
    accumulate p key val l k =
      if sources p key l k = [] then none else some ((sources p key l k).map val).sum := by
  induction l using List.reverseRecOn with
  | nil => rfl
  | append_singleton l a ih =>
    unfold accumulate at ih ⊢
    rw [List.foldl_append, List.foldl_cons, List.foldl_nil]
    by_cases hp : p a = true
    · rw [if_pos hp]
      by_cases hk : key a = k
      · rw [sources_snoc_of_pos hp hk, hk, Function.update_self, ih, if_neg (by simp : ¬ _ ++ [a] = [])]
        by_cases hempty : sources p key l k = []
        · simp [hempty]
        · simp [hempty]
      · rw [sources_snoc_of_neg fun h => hk h.2, Function.update_of_ne (Ne.symm hk), ih]
    · rw [if_neg hp, sources_snoc_of_neg fun h => hp h.1, ih]

end MapFold
