import Mathlib.Order.Defs.LinearOrder
import Mathlib.Data.List.Induction
import Mathlib.Data.List.Sort

/-! # Maps as lists sorted by key -/

namespace SortedMap

variable {κ β : Type*} [LinearOrder κ]

/-- The key now has this value. -/
def set (k : κ) (v : β) : List (κ × β) → List (κ × β)
  | [] => [(k, v)]
  | (k', v') :: rest =>
    if k < k' then (k, v) :: (k', v') :: rest
    else if k = k' then (k, v) :: rest
    else (k', v') :: set k v rest

def setAll (m l : List (κ × β)) : List (κ × β) := l.foldl (fun m e => set e.1 e.2 m) m

def Sorted (m : List (κ × β)) : Prop := m.Pairwise fun a b => a.1 < b.1

theorem mem_set {k : κ} {v : β} {m : List (κ × β)} {e : κ × β} (h : e ∈ set k v m) : e = (k, v) ∨ e ∈ m := by
  induction m with
  | nil => exact Or.inl (List.mem_singleton.mp h)
  | cons a rest ih =>
    unfold set at h
    split_ifs at h
    · exact List.mem_cons.mp h
    · rcases List.mem_cons.mp h with h | h
      · exact Or.inl h
      · exact Or.inr (List.mem_cons_of_mem _ h)
    · rcases List.mem_cons.mp h with h | h
      · exact Or.inr (by rw [h]; exact List.mem_cons_self)
      · exact (ih h).imp_right (List.mem_cons_of_mem _)

theorem sorted_set {m : List (κ × β)} (hm : Sorted m) (k : κ) (v : β) : Sorted (set k v m) := by
  induction m with
  | nil => exact List.pairwise_singleton _ _
  | cons a rest ih =>
    obtain ⟨hhead, hrest⟩ := List.pairwise_cons.mp hm
    unfold set
    split_ifs with hlt heq
    · refine List.pairwise_cons.mpr ⟨?_, hm⟩
      intro e he
      rcases List.mem_cons.mp he with rfl | he
      · exact hlt
      · exact hlt.trans (hhead e he)
    · exact List.pairwise_cons.mpr ⟨fun e he => heq ▸ hhead e he, hrest⟩
    · refine List.pairwise_cons.mpr ⟨?_, ih hrest⟩
      intro e he
      rcases mem_set he with rfl | he
      · exact lt_of_le_of_ne (not_lt.mp hlt) (Ne.symm heq)
      · exact hhead e he

theorem sorted_setAll {m : List (κ × β)} (hm : Sorted m) (l : List (κ × β)) : Sorted (setAll m l) := by
  induction l generalizing m with
  | nil => exact hm
  | cons e l ih => exact ih (sorted_set hm e.1 e.2)

theorem set_ne_nil (k : κ) (v : β) (m : List (κ × β)) : set k v m ≠ [] := by
  cases m with
  | nil => simp [set]
  | cons a rest =>
    unfold set
    split_ifs <;> simp

theorem setAll_ne_nil {m l : List (κ × β)} (h : m ≠ [] ∨ l ≠ []) : setAll m l ≠ [] := by
  induction l generalizing m with
  | nil => exact h.resolve_right fun h => h rfl
  | cons e l ih => exact ih (Or.inl (set_ne_nil e.1 e.2 m))

theorem set_of_forall_lt {m : List (κ × β)} {k : κ} (v : β) (h : ∀ e ∈ m, e.1 < k) :
    set k v m = m ++ [(k, v)] := by
  induction m with
  | nil => rfl
  | cons a rest ih =>
    have ha := h a List.mem_cons_self
    unfold set
    rw [if_neg (not_lt_of_gt ha), if_neg (Ne.symm (ne_of_lt ha)),
      ih fun e he => h e (List.mem_cons_of_mem _ he)]
    rfl

theorem setAll_append {m l : List (κ × β)} (h : Sorted (m ++ l)) : setAll m l = m ++ l := by
  induction l generalizing m with
  | nil => exact (List.append_nil m).symm
  | cons e l ih =>
    have hlast : ∀ a ∈ m, a.1 < e.1 := fun a ha => (List.pairwise_append.mp h).2.2 a ha e List.mem_cons_self
    show setAll (set e.1 e.2 m) l = m ++ e :: l
    rw [set_of_forall_lt e.2 hlast, List.append_cons m e l]
    exact ih (by rw [← List.append_cons]; exact h)

theorem setAll_nil {m : List (κ × β)} (h : Sorted m) : setAll [] m = m := setAll_append h

/-! ## Streams under a key -/

/-- What the key has is continued. -/
def extend (k : κ) (v : List β) : List (κ × List β) → List (κ × List β)
  | [] => [(k, v)]
  | (k', v') :: rest =>
    if k < k' then (k, v) :: (k', v') :: rest
    else if k = k' then (k, v' ++ v) :: rest
    else (k', v') :: extend k v rest

theorem exists_extend (k : κ) (v : List β) {g : κ → List β} {ks : List κ} (hks : ks.Pairwise (· < ·))
    (hg : k ∉ ks → g k = []) :
    ∃ ks' : List κ, ks'.Pairwise (· < ·) ∧ (∀ j, j ∈ ks' ↔ j = k ∨ j ∈ ks) ∧
      extend k v (ks.map fun j => (j, g j)) = ks'.map fun j => (j, if j = k then g j ++ v else g j) := by
  -- Only the entry of `k` changes.
  have hsame : ∀ l : List κ, k ∉ l →
      (l.map fun j => (j, if j = k then g j ++ v else g j)) = l.map fun j => (j, g j) := by
    intro l hl
    apply List.map_congr_left
    intro j hj
    rw [if_neg fun h : j = k => hl (h ▸ hj)]
  induction ks with
  | nil =>
    refine ⟨[k], List.pairwise_singleton _ _, fun j => by simp, ?_⟩
    rw [List.map_singleton, if_pos rfl, hg List.not_mem_nil]
    rfl
  | cons a ks ih =>
    obtain ⟨ha, hrest⟩ := List.pairwise_cons.mp hks
    rw [List.map_cons, extend]
    split_ifs with hlt heq
    · have hnotin : k ∉ a :: ks := by
        rw [List.mem_cons, not_or]
        exact ⟨hlt.ne, fun hk => lt_asymm hlt (ha k hk)⟩
      refine ⟨k :: a :: ks, List.pairwise_cons.mpr ⟨?_, hks⟩, fun j => by simp, ?_⟩
      · intro j hj
        obtain rfl | hj := List.mem_cons.mp hj
        · exact hlt
        · exact hlt.trans (ha j hj)
      · rw [List.map_cons, hsame _ hnotin, if_pos rfl, hg hnotin]
        rfl
    · subst heq
      refine ⟨k :: ks, hks, fun j => by simp, ?_⟩
      rw [List.map_cons, hsame ks fun hk => lt_irrefl k (ha k hk), if_pos rfl]
    · obtain ⟨ks', hsorted, hmem, hext⟩ := ih hrest fun hk => hg (by simp [heq, hk])
      refine ⟨a :: ks', List.pairwise_cons.mpr ⟨?_, hsorted⟩, ?_, ?_⟩
      · intro j hj
        obtain rfl | hj := (hmem j).mp hj
        · exact lt_of_le_of_ne (not_lt.mp hlt) (Ne.symm heq)
        · exact ha j hj
      · intro j
        rw [List.mem_cons, List.mem_cons, hmem]
        exact or_left_comm
      · rw [hext, List.map_cons, if_neg (Ne.symm heq)]

theorem exists_foldl_extend (l : List (κ × List β)) :
    ∃ ks : List κ, ks.Pairwise (· < ·) ∧ (∀ k, k ∈ ks ↔ k ∈ l.map Prod.fst) ∧
      l.foldl (fun m e => extend e.1 e.2 m) [] = ks.map fun k =>
        (k, (l.filter (·.1 = k)).flatMap Prod.snd) := by
  induction l using List.reverseRecOn with
  | nil => exact ⟨[], List.Pairwise.nil, fun k => Iff.rfl, rfl⟩
  | append_singleton l e ih =>
    obtain ⟨ks, hsorted, hmem, hfold⟩ := ih
    have hempty : e.1 ∉ ks → (l.filter (·.1 = e.1)).flatMap Prod.snd = [] := by
      intro hnotin
      have hnone : l.filter (·.1 = e.1) = [] := by
        rw [List.filter_eq_nil_iff]
        intro e' he' heq
        exact hnotin ((hmem e.1).mpr (of_decide_eq_true heq ▸ List.mem_map_of_mem he'))
      rw [hnone]
      rfl
    obtain ⟨ks', hsorted', hmem', hext⟩ :=
      exists_extend e.1 e.2 (g := fun k => (l.filter (·.1 = k)).flatMap Prod.snd) hsorted hempty
    refine ⟨ks', hsorted', fun k => ?_, ?_⟩
    · rw [hmem', hmem, List.map_append, List.mem_append, List.map_singleton, List.mem_singleton]
      exact or_comm
    · rw [List.foldl_append, hfold, List.foldl_cons, List.foldl_nil, hext]
      apply List.map_congr_left
      intro k _
      rw [List.filter_append, List.flatMap_append]
      split_ifs with hk
      · simp [hk]
      · simp [Ne.symm hk]

end SortedMap
