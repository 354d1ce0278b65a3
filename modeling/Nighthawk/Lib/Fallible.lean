import Mathlib.Data.List.Forall2
import Mathlib.Tactic.SplitIfs

/-! # Computations that may throw -/

namespace Fallible

variable {ε α β : Type}

theorem bind_eq_ok {x : Except ε α} {f : α → Except ε β} {b : β} :
    (x >>= f) = .ok b ↔ ∃ a, x = .ok a ∧ f a = .ok b := by
  cases x with
  | error e => simp [bind, Except.bind]
  | ok a => simp [bind, Except.bind]

theorem check_bind_eq_ok {x : Except ε Unit} {y : Except ε β} {b : β} :
    (x >>= fun _ => y) = .ok b ↔ x = .ok () ∧ y = .ok b := by
  rw [bind_eq_ok]
  exact ⟨fun ⟨_, hx, hy⟩ => ⟨hx, hy⟩, fun ⟨hx, hy⟩ => ⟨(), hx, hy⟩⟩

theorem of_ite_checks {c : Prop} [Decidable c] {x y : Except ε Unit} {k : Unit → Except ε β} {b : β}
    (h : (if c then x >>= fun _ => y >>= k else k ()) = .ok b) : k () = .ok b := by
  split_ifs at h
  · obtain ⟨-, h⟩ := check_bind_eq_ok.mp h
    obtain ⟨_, -, h⟩ := bind_eq_ok.mp h
    exact h
  · exact h

theorem map_eq_ok {x : Except ε α} {f : α → β} {b : β} : x.map f = .ok b ↔ ∃ a, x = .ok a ∧ f a = b := by
  cases x with
  | error e => simp [Except.map]
  | ok a => simp [Except.map]

theorem mapError_eq_ok {δ : Type} {x : Except ε α} {f : ε → δ} {a : α} :
    x.mapError f = .ok a ↔ x = .ok a := by
  cases x with
  | error e => simp [Except.mapError]
  | ok a => simp [Except.mapError]

theorem mapM_eq_ok {f : α → Except ε β} {l : List α} {r : List β} :
    l.mapM f = .ok r ↔ List.Forall₂ (fun a b => f a = .ok b) l r := by
  induction l generalizing r with
  | nil =>
    rw [List.mapM_nil, List.forall₂_nil_left_iff]
    exact ⟨fun h => (Except.ok.inj h).symm, fun h => h ▸ rfl⟩
  | cons a l ih =>
    rw [List.mapM_cons, bind_eq_ok, List.forall₂_cons_left_iff]
    constructor
    · rintro ⟨b, hb, h⟩
      obtain ⟨bs, hbs, h⟩ := bind_eq_ok.mp h
      exact ⟨b, bs, hb, ih.mp hbs, (Except.ok.inj h).symm⟩
    · rintro ⟨b, bs, hb, hbs, rfl⟩
      exact ⟨b, hb, bind_eq_ok.mpr ⟨bs, ih.mpr hbs, rfl⟩⟩

/-! ## Total correctness -/

/-- The computation returns, and what it returns satisfies `P`. -/
def Returns (x : Except ε α) (P : α → Prop) : Prop := ∃ a, x = .ok a ∧ P a

theorem Returns.ok {P : α → Prop} {a : α} (h : P a) : Returns (.ok a : Except ε α) P := ⟨a, rfl, h⟩

theorem Returns.mono {x : Except ε α} {P Q : α → Prop} (hx : Returns x P) (h : ∀ a, P a → Q a) :
    Returns x Q := by
  obtain ⟨a, ha, hp⟩ := hx
  exact ⟨a, ha, h a hp⟩

theorem Returns.bind {x : Except ε α} {f : α → Except ε β} {P : α → Prop} {Q : β → Prop} (hx : Returns x P)
    (hf : ∀ a, P a → Returns (f a) Q) : Returns (x >>= f) Q := by
  obtain ⟨a, rfl, hp⟩ := hx
  exact hf a hp

/-- A loop whose invariant counts the turns. -/
theorem Returns.foldlM {f : β → α → Except ε β} {I : ℕ → β → Prop}
    (hf : ∀ n b a, I n b → Returns (f b a) (I (n + 1))) {n : ℕ} {b : β} (hb : I n b) (l : List α) :
    Returns (l.foldlM f b) (I (n + l.length)) := by
  induction l generalizing n b with
  | nil => exact Returns.ok hb
  | cons a l ih =>
    rw [List.foldlM_cons, List.length_cons]
    apply (hf n b a hb).bind
    intro c hc
    have := ih hc
    rwa [Nat.add_assoc, Nat.add_comm 1] at this

end Fallible
