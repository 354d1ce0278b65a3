import Mathlib.Data.List.Basic

/-! # Lists of parties, each at a position of its own -/

namespace Positions

variable {α : Type*} (f : α → Nat)

/-- What the parties have together. -/
def total : List α → Nat
  | [] => 0
  | a :: l => f a + total l

@[simp] theorem total_nil : total f [] = 0 := rfl

@[simp] theorem total_cons (a : α) (l : List α) : total f (a :: l) = f a + total f l := rfl

@[simp] theorem total_append (l m : List α) : total f (l ++ m) = total f l + total f m := by
  induction l with
  | nil => simp
  | cons a l ih => simp [ih, Nat.add_assoc]

theorem total_set {l : List α} {i : Nat} {a : α} (h : l[i]? = some a) (b : α) :
    total f (l.set i b) + f a = total f l + f b := by
  induction l generalizing i with
  | nil => simp at h
  | cons c l ih =>
    cases i with
    | zero =>
      simp only [List.getElem?_cons_zero, Option.some.injEq] at h
      simp only [List.set_cons_zero, total_cons, h]
      omega
    | succ i =>
      have := ih (List.getElem?_cons_succ ▸ h)
      simp only [List.set_cons_succ, total_cons]
      omega

theorem le_total {l : List α} {i : Nat} {a : α} (h : l[i]? = some a) : f a ≤ total f l := by
  obtain ⟨before, after, rfl⟩ := List.append_of_mem (List.mem_of_getElem? h)
  simp only [total_append, total_cons]
  omega

theorem getElem?_set {l : List α} {i : Nat} {a : α} (h : l[i]? = some a) (b : α) : (l.set i b)[i]? = some b :=
  List.getElem?_set_self (List.getElem?_eq_some_iff.mp h).1

theorem forall_set {P Q : Nat → α → Prop} {l : List α} {i : Nat} {b : α} (h : ∀ j a, l[j]? = some a → P j a)
    (hi : Q i b) (hrest : ∀ j a, j ≠ i → P j a → Q j a) : ∀ j a, (l.set i b)[j]? = some a → Q j a := by
  intro j a hj
  by_cases hji : j = i
  · subst hji
    rw [List.getElem?_set_self' ] at hj
    obtain ⟨_, -, rfl⟩ := Option.map_eq_some_iff.mp hj
    exact hi
  · rw [List.getElem?_set_ne (Ne.symm hji)] at hj
    exact hrest j a hji (h j a hj)

theorem forall_append {P : Nat → α → Prop} {l : List α} {b : α} (h : ∀ j a, l[j]? = some a → P j a)
    (hb : P l.length b) : ∀ j a, (l ++ [b])[j]? = some a → P j a := by
  intro j a hj
  rw [List.getElem?_append] at hj
  split_ifs at hj with hlt
  · exact h j a hj
  · obtain ⟨hlt', rfl⟩ := List.getElem?_eq_some_iff.mp hj
    obtain rfl : j = l.length := by
      simp only [List.length_singleton] at hlt'
      omega
    simpa using hb

end Positions
