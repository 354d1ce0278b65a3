import Nighthawk.Counters.Code
import Nighthawk.Lib.MapFold
import Mathlib.Data.UInt
import Mathlib.Algebra.BigOperators.Group.Finset.Piecewise
import Mathlib.Algebra.Order.BigOperators.Group.Finset
import Mathlib.Algebra.Order.BigOperators.Group.List

/-!
# The global counters against the workers' snapshots

Both loops read the same name and worker out of a counter's name. The global one adds up what it
finds. A snapshot keeps the last value, so it loses one where a worker counts the same name under
both prefixes.
-/

namespace Nighthawk.Counters

/-! ## Names -/

inductive Scope where
  | cluster
  | worker
  deriving DecidableEq, Repr

def Scope.text : Scope → Str
  | cluster => "cluster".toList
  | worker => "worker".toList

structure WorkerCounter where
  scope : Scope
  workerNumber : Nat
  name : Str
  value : UInt64
  deriving DecidableEq, Repr

namespace WorkerCounter

/-- What is left without the scope. -/
def numbered (c : WorkerCounter) : Str := Text.decimal c.workerNumber ++ '.' :: c.name

def counter (c : WorkerCounter) : Counter := ⟨c.scope.text ++ '.' :: c.numbered, c.value⟩

end WorkerCounter

open WorkerCounter

theorem dot_notMem_decimal (n : Nat) : '.' ∉ Text.decimal n :=
  fun h => absurd (Text.isDigit_of_mem_decimal h) (by decide)

theorem dot_notMem_scope (s : Scope) : '.' ∉ s.text := by
  cases s <;> decide

theorem globalName_counter (c : WorkerCounter) (h : c.workerNumber < 2 ^ 31) :
    globalName c.counter.name = c.name := by
  have hsplit : c.counter.name.splitOn '.' =
      c.scope.text :: Text.decimal c.workerNumber :: c.name.splitOn '.' := by
    unfold WorkerCounter.counter WorkerCounter.numbered
    rw [List.splitOn_append_cons_self_of_not_mem (dot_notMem_scope _),
      List.splitOn_append_cons_self_of_not_mem (dot_notMem_decimal _)]
  have hscope : c.scope.text = "cluster".toList ∨ c.scope.text = "worker".toList := by
    cases c.scope with
    | cluster => exact .inl rfl
    | worker => exact .inr rfl
  have hnumber : (simpleAtoi (Text.decimal c.workerNumber)).isSome := by
    unfold simpleAtoi
    rw [Text.parseSigned_decimal (by omega) (by omega)]
    rfl
  unfold globalName
  rw [hsplit, eraseScope, if_pos hscope, eraseNumber, if_pos hnumber]
  exact List.intercalate_splitOn _

theorem stripPrefix_append (pre s : Str) : stripPrefix (pre ++ s) pre = s := by
  unfold stripPrefix
  rw [if_pos (List.isPrefixOf_iff_prefix.mpr (List.prefix_append _ _)), List.drop_left]

theorem stripPrefix_of_ne {pre s : Str} (h : ¬ pre <+: s) : stripPrefix s pre = s := by
  unfold stripPrefix
  rw [if_neg (by rwa [List.isPrefixOf_iff_prefix])]

/-- No scope is before the number any more. -/
theorem not_scope_prefix_numbered (c : WorkerCounter) {d : Char} {pre : Str} (hd : d.isDigit = false) :
    ¬ (d :: pre) <+: c.numbered := by
  rintro ⟨t, ht⟩
  have hne : Text.decimal c.workerNumber ≠ [] := Nat.toDigits_ne_nil
  obtain ⟨e, digits, hdecimal⟩ := List.exists_cons_of_ne_nil hne
  have he : e.isDigit = true := Text.isDigit_of_mem_decimal (n := c.workerNumber) (by rw [hdecimal]; simp)
  rw [numbered, hdecimal] at ht
  obtain rfl : d = e := (List.cons.inj ht).1
  rw [hd] at he
  cases he

theorem strip_counter (c : WorkerCounter) :
    stripPrefix (stripPrefix c.counter.name "cluster.".toList) "worker.".toList = c.numbered := by
  have hworker : stripPrefix c.numbered "worker.".toList = c.numbered :=
    stripPrefix_of_ne (not_scope_prefix_numbered c (d := 'w') (by decide))
  obtain ⟨scope, workerNumber, name, value⟩ := c
  cases scope with
  | cluster =>
    refine Eq.trans ?_ hworker
    exact congrArg (stripPrefix · "worker.".toList) (stripPrefix_append "cluster.".toList _)
  | worker =>
    have hcluster : stripPrefix ("worker.".toList ++ numbered ⟨.worker, workerNumber, name, value⟩)
      "cluster.".toList =
        "worker.".toList ++ numbered ⟨.worker, workerNumber, name, value⟩ := by
      apply stripPrefix_of_ne
      rintro ⟨t, ht⟩
      exact absurd (List.cons.inj ht).1 (by decide)
    refine Eq.trans (congrArg (stripPrefix · "worker.".toList) hcluster) ?_
    exact stripPrefix_append "worker.".toList _

theorem decimal_injective {n m : Nat} (h : Text.decimal n = Text.decimal m) : n = m := by
  have := congrArg Text.digitsVal h
  rw [Text.digitsVal_decimal, Text.digitsVal_decimal] at this
  exact Option.some.inj this

theorem workerPrefix_iff (c : WorkerCounter) (w : Nat) :
    (workerPrefix w).isPrefixOf c.numbered = true ↔ c.workerNumber = w := by
  rw [List.isPrefixOf_iff_prefix]
  constructor
  · rintro ⟨t, ht⟩
    have hcut : Text.cut '.' (Text.decimal w ++ '.' :: t) = some (Text.decimal w, t) :=
      Text.cut_append (dot_notMem_decimal w) t
    have heq : Text.decimal w ++ '.' :: t = c.numbered := by
      rw [← ht, workerPrefix]
      simp
    rw [heq, numbered, Text.cut_append (dot_notMem_decimal _)] at hcut
    exact decimal_injective (Prod.mk.inj (Option.some.inj hcut)).1
  · rintro rfl
    exact ⟨c.name, by simp [workerPrefix, numbered]⟩

theorem stripPrefix_numbered (c : WorkerCounter) :
    stripPrefix c.numbered (workerPrefix c.workerNumber) = c.name := by
  have h := stripPrefix_append (workerPrefix c.workerNumber) c.name
  unfold workerPrefix numbered at *
  simpa using h

/-! ## The two loops -/

/-- Worker numbers are of type `int`. -/
structure Workers where
  count : Nat
  count_le : count ≤ 2 ^ 31

def store (entries : List WorkerCounter) : List Counter := entries.map counter

/-- The counters that a name's value comes from. -/
def counted (entries : List WorkerCounter) (name : Str) : List WorkerCounter :=
  MapFold.sources (fun e => 0 < e.value) WorkerCounter.name entries name

def countedBy (w : Nat) (entries : List WorkerCounter) (name : Str) : List WorkerCounter :=
  MapFold.sources (fun e => e.value ≠ 0 ∧ e.workerNumber = w) WorkerCounter.name entries name

theorem globalCounters_store {workers : Workers} {entries : List WorkerCounter}
    (hnumber : ∀ e ∈ entries, e.workerNumber < workers.count) (name : Str) :
    globalCounters (store entries) name =
      if counted entries name = [] then
        none else some ((counted entries name).map WorkerCounter.value).sum := by
  unfold counted
  rw [← MapFold.accumulate_eq]
  unfold globalCounters mapCountersFromStore MapFold.accumulate store
  rw [List.foldl_map]
  refine congrFun (List.foldl_ext _ _ _ fun m e he => ?_) name
  rw [globalName_counter e (lt_of_lt_of_le (hnumber e he) workers.count_le)]
  rfl

theorem threadLocalCounterValues_store (w : Nat) (entries : List WorkerCounter) (name : Str) :
    threadLocalCounterValues w (store entries) name =
      (countedBy w entries name).getLast?.map WorkerCounter.value := by
  unfold countedBy
  rw [← MapFold.assign_eq]
  unfold threadLocalCounterValues MapFold.assign store
  rw [List.foldl_map]
  refine congrFun (List.foldl_ext _ _ _ fun m e _ => ?_) name
  dsimp only
  rw [strip_counter]
  have hiff : (e.counter.value ≠ 0 ∧ (workerPrefix w).isPrefixOf e.numbered = true) ↔
      e.value ≠ 0 ∧ e.workerNumber = w := and_congr_right fun _ => workerPrefix_iff e w
  by_cases h : e.value ≠ 0 ∧ e.workerNumber = w
  · rw [if_pos (hiff.mpr h), if_pos (decide_eq_true h), ← h.2, stripPrefix_numbered]
    rfl
  · rw [if_neg fun h' => h (hiff.mp h'), if_neg (by simpa using h)]

/-! ## Sums -/

/-- A value that is not reported is zero. -/
def reported (value : Option UInt64) : Nat := (value.getD 0).toNat

def total (l : List WorkerCounter) : Nat := (l.map fun e => e.value.toNat).sum

theorem toNat_sum {l : List WorkerCounter} (h : total l < 2 ^ 64) :
    ((l.map WorkerCounter.value).sum).toNat = total l := by
  induction l with
  | nil => rfl
  | cons e l ih =>
    have hcons : total (e :: l) = e.value.toNat + total l := by simp [total]
    rw [hcons] at h ⊢
    rw [List.map_cons, List.sum_cons, UInt64.toNat_add, ih (by omega), Nat.mod_eq_of_lt h]

theorem countedBy_eq (w : Nat) (entries : List WorkerCounter) (name : Str) :
    countedBy w entries name = (counted entries name).filter fun e => e.workerNumber = w := by
  unfold countedBy counted MapFold.sources
  rw [List.filter_filter]
  apply List.filter_congr
  intro e _
  have hpos : (0 < e.value) ↔ e.value ≠ 0 := UInt64.pos_iff_ne_zero
  by_cases hw : e.workerNumber = w <;> simp [hw, hpos, and_comm]

theorem total_eq_sum {n : Nat} {l : List WorkerCounter} (h : ∀ e ∈ l, e.workerNumber < n) :
    total l = ∑ w ∈ Finset.range n, total (l.filter fun e => e.workerNumber = w) := by
  induction l with
  | nil => simp [total]
  | cons e l ih =>
    obtain ⟨he, hl⟩ := List.forall_mem_cons.mp h
    have hcons : ∀ w, total ((e :: l).filter fun e => e.workerNumber = w) =
        (if e.workerNumber = w then e.value.toNat else 0) + total (l.filter fun e => e.workerNumber = w) := by
      intro w
      by_cases hw : e.workerNumber = w
      · simp [total, hw]
      · simp [total, hw]
    simp only [hcons]
    rw [Finset.sum_add_distrib, ← ih hl, Finset.sum_ite_eq, if_pos (Finset.mem_range.mpr he)]
    simp [total]

theorem total_snoc (l : List WorkerCounter) (e : WorkerCounter) :
    total (l ++ [e]) = total l + e.value.toNat := by
  simp [total]

theorem last_eq_total_iff {l : List WorkerCounter} (hpos : ∀ e ∈ l, e.value ≠ 0) :
    reported (l.getLast?.map WorkerCounter.value) ≤ total l ∧
      (reported (l.getLast?.map WorkerCounter.value) = total l ↔ l.length ≤ 1) := by
  induction l using List.reverseRecOn with
  | nil => simp [reported, total]
  | append_singleton l e _ =>
    have hlast : reported ((l ++ [e]).getLast?.map WorkerCounter.value) = e.value.toNat := by
      simp [reported]
    have hzero : total l = 0 ↔ l = [] := by
      constructor
      · intro h
        by_contra hne
        obtain ⟨d, rest, rfl⟩ := List.exists_cons_of_ne_nil hne
        have hd : d.value ≠ 0 := hpos d (by simp)
        have hd' : d.value.toNat ≠ 0 := fun h0 => hd (UInt64.toNat_inj.mp h0)
        have : total (d :: rest) = d.value.toNat + total rest := by simp [total]
        omega
      · rintro rfl
        rfl
    rw [hlast, total_snoc, List.length_append]
    refine ⟨by omega, ?_⟩
    constructor
    · intro h
      have := hzero.mp (by omega)
      simp [this]
    · intro h
      rw [List.length_singleton] at h
      have := hzero.mpr (List.length_eq_zero_iff.mp (by omega))
      omega

/-! ## The law -/

/-- No worker counts the same name under both prefixes. -/
def CountedOnce (entries : List WorkerCounter) : Prop :=
  ∀ e ∈ entries, ∀ e' ∈ entries, e.scope = .cluster → e'.scope = .worker → e.workerNumber = e'.workerNumber →
    e.name = e'.name → e.value = 0 ∨ e'.value = 0

theorem mem_countedBy {w : Nat} {entries : List WorkerCounter} {name : Str} {e : WorkerCounter} :
    e ∈ countedBy w entries name ↔ e ∈ entries ∧ e.value ≠ 0 ∧ e.workerNumber = w ∧ e.name = name := by
  simp [countedBy, MapFold.sources, and_assoc]

theorem counter_name_eq {e e' : WorkerCounter} (hscope : e.scope = e'.scope)
    (hnumber : e.workerNumber = e'.workerNumber) (hname : e.name = e'.name) :
    e.counter.name = e'.counter.name := by
  unfold WorkerCounter.counter numbered
  rw [hscope, hnumber, hname]

theorem countedBy_length_iff {entries : List WorkerCounter}
    (hnodup : (entries.map fun e => e.counter.name).Nodup) :
    (∀ name w, (countedBy w entries name).length ≤ 1) ↔ CountedOnce entries := by
  constructor
  · intro h e he e' he' hscope hscope' hnumber hname
    by_contra hvalues
    push Not at hvalues
    have hmem : e ∈ countedBy e.workerNumber entries e.name := mem_countedBy.mpr ⟨he, hvalues.1, rfl, rfl⟩
    have hmem' : e' ∈ countedBy e.workerNumber entries e.name :=
      mem_countedBy.mpr ⟨he', hvalues.2, hnumber.symm, hname.symm⟩
    have heq : e = e' := by
      obtain ⟨d, hd⟩ := List.length_eq_one_iff.mp
        (le_antisymm (h e.name e.workerNumber) (List.length_pos_of_mem hmem))
      rw [hd, List.mem_singleton] at hmem hmem'
      rw [hmem, hmem']
    rw [heq, hscope'] at hscope
    cases hscope
  · intro h name w
    rcases hlist : countedBy w entries name with _ | ⟨a, _ | ⟨b, rest⟩⟩
    · simp
    · simp
    · exfalso
      obtain ⟨ha, havalue, hanumber, haname⟩ :=
        mem_countedBy.mp (hlist ▸ List.mem_cons_self : a ∈ countedBy w entries name)
      obtain ⟨hb, hbvalue, hbnumber, hbname⟩ := mem_countedBy.mp
        (hlist ▸ List.mem_cons_of_mem _ List.mem_cons_self : b ∈ countedBy w entries name)
      have hne : a.counter.name ≠ b.counter.name := by
        have hsub : (countedBy w entries name).Sublist entries := List.filter_sublist
        have hnodup' := hnodup.sublist (hsub.map fun e => e.counter.name)
        rw [hlist, List.map_cons, List.map_cons] at hnodup'
        exact fun heq => (List.nodup_cons.mp hnodup').1 (heq ▸ List.mem_cons_self)
      have hnumber := hanumber.trans hbnumber.symm
      have hname := haname.trans hbname.symm
      -- Two counters of the same name and worker differ in their scopes.
      cases hascope : a.scope with
      | cluster =>
        cases hbscope : b.scope with
        | cluster => exact hne (counter_name_eq (hascope.trans hbscope.symm) hnumber hname)
        | worker =>
          rcases h a ha b hb hascope hbscope hnumber hname with h0 | h0
          · exact havalue h0
          · exact hbvalue h0
      | worker =>
        cases hbscope : b.scope with
        | cluster =>
          rcases h b hb a ha hbscope hascope hnumber.symm hname.symm with h0 | h0
          · exact hbvalue h0
          · exact havalue h0
        | worker => exact hne (counter_name_eq (hascope.trans hbscope.symm) hnumber hname)

theorem total_counted_le (entries : List WorkerCounter) (name : Str) :
    total (counted entries name) ≤ total (entries.filter fun e => e.name = name) := by
  have hsub : (counted entries name).Sublist (entries.filter fun e => e.name = name) :=
    List.monotone_filter_right _ fun e he => (Bool.and_eq_true_iff.mp he).2
  exact (hsub.map _).sum_le_sum fun _ _ => Nat.zero_le _

theorem reported_names {workers : Workers} {entries : List WorkerCounter}
    (hnumber : ∀ e ∈ entries, e.workerNumber < workers.count) (name : Str) :
    (globalCounters (store entries) name).isSome ↔
      ∃ w < workers.count, (threadLocalCounterValues w (store entries) name).isSome := by
  have hglobal : (globalCounters (store entries) name).isSome ↔ counted entries name ≠ [] := by
    rw [globalCounters_store hnumber]
    split <;> simp_all
  have hlocal : ∀ w, (threadLocalCounterValues w (store entries) name).isSome ↔
      countedBy w entries name ≠ [] := by
    intro w
    rw [threadLocalCounterValues_store, Option.isSome_map, List.getLast?_isSome]
  rw [hglobal]
  simp only [hlocal, countedBy_eq]
  constructor
  · intro hne
    obtain ⟨e, he⟩ := List.exists_mem_of_ne_nil _ hne
    have hmem : e ∈ entries := (List.mem_filter.mp he).1
    exact ⟨e.workerNumber, hnumber e hmem, List.ne_nil_of_mem (List.mem_filter.mpr ⟨he, decide_eq_true rfl⟩)⟩
  · rintro ⟨w, -, hne⟩ hempty
    rw [hempty] at hne
    exact hne rfl

/-- For every store of worker counters, the global counters are the sums of the workers' snapshots
exactly when no worker counts the same name under both prefixes. -/
theorem global_counters_are_sums_iff (workers : Workers) (entries : List WorkerCounter)
    (hnumber : ∀ e ∈ entries, e.workerNumber < workers.count)
    (hnodup : (entries.map fun e => e.counter.name).Nodup)
    (hfit : ∀ name, total (entries.filter fun e => e.name = name) < 2 ^ 64) :
    ((∀ name, reported (globalCounters (store entries) name) =
        ∑ w ∈ Finset.range workers.count, reported (threadLocalCounterValues w (store entries) name)) ∧
      ∀ name, (globalCounters (store entries) name).isSome ↔
        ∃ w < workers.count, (threadLocalCounterValues w (store entries) name).isSome) ↔
      CountedOnce entries := by
  have hglobal : ∀ name, reported (globalCounters (store entries) name) =
      ∑ w ∈ Finset.range workers.count, total (countedBy w entries name) := by
    intro name
    have hsmall : total (counted entries name) < 2 ^ 64 :=
      lt_of_le_of_lt (total_counted_le entries name) (hfit name)
    have hcounted : ∀ e ∈ counted entries name, e.workerNumber < workers.count :=
      fun e he => hnumber e (List.mem_filter.mp he).1
    simp only [countedBy_eq]
    rw [← total_eq_sum hcounted, globalCounters_store hnumber]
    split
    · rename_i hempty
      rw [hempty]
      rfl
    · exact toNat_sum hsmall
  have hlast : ∀ name w, reported (threadLocalCounterValues w (store entries) name) ≤
    total (countedBy w entries name) ∧
      (reported (threadLocalCounterValues w (store entries) name) = total (countedBy w entries name) ↔
        (countedBy w entries name).length ≤ 1) := by
    intro name w
    rw [threadLocalCounterValues_store]
    exact last_eq_total_iff fun e he => (mem_countedBy.mp he).2.1
  rw [and_iff_left (reported_names hnumber), ← countedBy_length_iff hnodup]
  apply forall_congr'
  intro name
  rw [hglobal, eq_comm, Finset.sum_eq_sum_iff_of_le fun w _ => (hlast name w).1]
  constructor
  · intro h w
    by_cases hw : w < workers.count
    · exact (hlast name w).2.mp (h w (Finset.mem_range.mpr hw))
    · have hempty : countedBy w entries name = [] := by
        rw [List.eq_nil_iff_forall_not_mem]
        intro e he
        obtain ⟨hmem, -, rfl, -⟩ := mem_countedBy.mp he
        exact hw (hnumber e hmem)
      simp [hempty]
  · intro h w _
    exact (hlast name w).2.mpr (h w)

def bothPrefixes : List WorkerCounter := [⟨.cluster, 0, ['a'], 1⟩, ⟨.worker, 0, ['a'], 1⟩]

/-- The same with two workers, one of which counts each. The name begins with a number. -/
def twoWorkers : List WorkerCounter := [⟨.cluster, 0, "5.a".toList, 1⟩, ⟨.worker, 1, "5.a".toList, 2⟩]

theorem total_filter_le (entries : List WorkerCounter) (name : Str) :
    total (entries.filter fun e => e.name = name) ≤ total entries :=
  (List.filter_sublist.map _).sum_le_sum fun _ _ => Nat.zero_le _

theorem global_counters_are_sums_two_workers :
    (∀ name, reported (globalCounters (store twoWorkers) name) =
        ∑ w ∈ Finset.range 2, reported (threadLocalCounterValues w (store twoWorkers) name)) ∧
      ∀ name, (globalCounters (store twoWorkers) name).isSome ↔
        ∃ w < 2, (threadLocalCounterValues w (store twoWorkers) name).isSome :=
  (global_counters_are_sums_iff ⟨2, by omega⟩ twoWorkers (by decide) (by decide) fun name =>
    lt_of_le_of_lt (total_filter_le _ name) (by decide)).mpr (by unfold CountedOnce; decide)

theorem both_prefixes_lose_a_count :
    reported (globalCounters (store bothPrefixes) ['a']) = 2 ∧
      ∑ w ∈ Finset.range 1, reported (threadLocalCounterValues w (store bothPrefixes) ['a']) = 1 := by
  decide

end Nighthawk.Counters
