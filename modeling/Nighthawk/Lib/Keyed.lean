import Mathlib.Data.List.Nodup

/-! # Lists whose entries have distinct keys -/

namespace Keyed

variable {α κ : Type*} [DecidableEq κ]

theorem length_filter_ne (key : α → κ) {l : List α} (hn : (l.map key).Nodup) {a : α} (ha : a ∈ l) :
    (l.filter (key · ≠ key a)).length + 1 = l.length := by
  have hone : (l.filter (key · = key a)).length = 1 := by
    have := List.count_eq_one_of_mem hn (List.mem_map_of_mem ha)
    rwa [List.count, List.countP_map, List.countP_eq_length_filter] at this
  have hsplit := List.length_eq_length_filter_add (l := l) (key · = key a)
  simp only [ne_eq, decide_not] at hsplit ⊢
  omega

theorem filter_middle (key : α → κ) {before after : List α} {a : α}
    (hn : ((before ++ a :: after).map key).Nodup) :
    (before ++ a :: after).filter (key · ≠ key a) = before ++ after := by
  rw [List.map_append, List.map_cons, List.nodup_middle, List.nodup_cons, List.mem_append, not_or] at hn
  have hkeep : ∀ part : List α, key a ∉ part.map key → part.filter (key · ≠ key a) = part := by
    intro part hpart
    rw [List.filter_eq_self]
    intro x hx
    exact decide_eq_true fun heq => hpart (heq ▸ List.mem_map_of_mem hx)
  rw [List.filter_append, List.filter_cons_of_neg (by simp), hkeep before hn.1.1, hkeep after hn.1.2]

theorem lookup_split {β : Type*} {l : List (κ × β)} (hn : (l.map Prod.fst).Nodup) {k : κ} {b : β}
    (h : l.lookup k = some b) :
    ∃ before after, l = before ++ (k, b) :: after ∧ l.filter (·.1 ≠ k) = before ++ after := by
  obtain ⟨before, after, rfl, -⟩ := List.lookup_eq_some_iff.mp h
  exact ⟨before, after, rfl, filter_middle Prod.fst hn⟩

section

variable {β : Type*} {k k' : κ} {b : β}

theorem lookup_filter_ne [BEq κ] [LawfulBEq κ] (l : List (κ × β)) (h : k' ≠ k) :
    (l.filter (·.1 ≠ k)).lookup k' = l.lookup k' := by
  induction l with
  | nil => rfl
  | cons entry l ih =>
    by_cases hk : entry.1 = k
    · rw [List.filter_cons_of_neg (by simpa using hk), ih, List.lookup_cons,
        show (k' == entry.1) = false from beq_false_of_ne (hk ▸ h)]
    · rw [List.filter_cons_of_pos (by simpa using hk), List.lookup_cons, List.lookup_cons, ih]

omit [DecidableEq κ] in
theorem lookup_of_mem [BEq κ] [LawfulBEq κ] {l : List (κ × β)} (hn : (l.map Prod.fst).Nodup)
    (h : (k, b) ∈ l) :
    l.lookup k = some b := by
  induction l with
  | nil => cases h
  | cons entry l ih =>
    rw [List.map_cons, List.nodup_cons] at hn
    rcases List.mem_cons.mp h with rfl | h
    · exact List.lookup_cons_self
    · have hne : k ≠ entry.1 := by
        rintro rfl
        exact hn.1 (List.mem_map.mpr ⟨_, h, rfl⟩)
      rw [List.lookup_cons, beq_false_of_ne hne]
      exact ih hn.2 h

end

section

variable {l : List α} {i : ℕ} {a b : α} (key : α → κ)

omit [DecidableEq κ] in
theorem mem_set_iff (hn : (l.map key).Nodup) (hi : l[i]? = some a) {d : α} :
    d ∈ l.set i b ↔ d = b ∨ (d ∈ l ∧ key d ≠ key a) := by
  obtain ⟨hlt, rfl⟩ := List.getElem?_eq_some_iff.mp hi
  have hsplit : l = l.take i ++ l[i] :: l.drop (i + 1) := by simp
  rw [hsplit, List.map_append, List.map_cons, List.nodup_middle, List.nodup_cons,
    List.mem_append, not_or] at hn
  have hne : ∀ d, d ∈ l.take i ∨ d ∈ l.drop (i + 1) → key d ≠ key l[i] := by
    rintro d (hd | hd) heq
    · exact hn.1.1 (heq ▸ List.mem_map_of_mem hd)
    · exact hn.1.2 (heq ▸ List.mem_map_of_mem hd)
  have hmem : d ∈ l ↔ d ∈ l.take i ∨ d = l[i] ∨ d ∈ l.drop (i + 1) := by
    conv_lhs => rw [hsplit]
    rw [List.mem_append, List.mem_cons]
  rw [List.set_eq_take_append_cons_drop, if_pos hlt, List.mem_append, List.mem_cons, hmem]
  constructor
  · rintro (hd | rfl | hd)
    · exact Or.inr ⟨Or.inl hd, hne d (Or.inl hd)⟩
    · exact Or.inl rfl
    · exact Or.inr ⟨Or.inr (Or.inr hd), hne d (Or.inr hd)⟩
  · rintro (rfl | ⟨hd | rfl | hd, hkey⟩)
    · exact Or.inr (Or.inl rfl)
    · exact Or.inl hd
    · exact absurd rfl hkey
    · exact Or.inr (Or.inr hd)

omit [DecidableEq κ] in
theorem map_set_eq (hi : l[i]? = some a) (hkey : key b = key a) : (l.set i b).map key = l.map key := by
  obtain ⟨hlt, rfl⟩ := List.getElem?_eq_some_iff.mp hi
  have hget : (l.map key)[i]? = some (key l[i]) := by simp [hlt]
  obtain ⟨hlt', heq⟩ := List.getElem?_eq_some_iff.mp hget
  rw [List.map_set, hkey, ← heq, List.set_getElem_self]

end

end Keyed
