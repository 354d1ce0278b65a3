import Mathlib.Data.Nat.Periodic
import Nighthawk.Lib.Mealy
import Nighthawk.RequestSource.Yields

/-!
# The generators of a source

`get` may be called any number of times, and the generators it returns in any order. Those of the
options list count for themselves, and those of the other sources share the source's members.
-/

namespace Nighthawk.RequestSource

open Options
open BenchmarkClient (Request)

/-! ## Calls -/

/-- The generator captures a copy of its counter. -/
def Source.countsAlone : Source → Bool
  | .optionsList .. => true
  | .static .. | .remote _ | .llm .. => false

theorem countsAlone_generate (s : Source) (input : Input) :
    (s.generate input).2.countsAlone = s.countsAlone := by
  cases s with
  | optionsList header options totalRequests counter =>
    simp only [Source.generate]
    split_ifs <;> rfl
  | static | remote | llm => rfl

/-- A source, the generators that `get` returned, and the answers with the number of the
generator. -/
structure Generators where
  source : Source
  generators : List Source
  answers : List (ℕ × Option Request)

inductive Event where
  | get
  | call (generator : ℕ) (input : Input)

namespace Generators

def init (source : Source) : Generators := ⟨source, [], []⟩

def step (s : Generators) : Event → Option Generators
  | .get => some { s with generators := s.generators ++ [s.source] }
  | .call i input =>
    (s.generators[i]?).map fun g =>
      if g.countsAlone then
        { s with generators := s.generators.set i (g.generate input).2
                 answers := s.answers ++ [(i, (g.generate input).1)] }
      else
        { s with source := (s.source.generate input).2
                 answers := s.answers ++ [(i, (s.source.generate input).1)] }

def answersOf (s : Generators) (i : ℕ) : List (Option Request) := (s.answers.filter (·.1 = i)).map (·.2)

end Generators

def Event.input : Event → Option Input
  | .get => none
  | .call _ input => some input

def Event.inputTo (i : ℕ) : Event → Option Input
  | .get => none
  | .call j input => if j = i then some input else none

/-- What the calls of all generators find, in order. -/
def inputs (events : List Event) : List Input := events.filterMap Event.input

def inputsTo (i : ℕ) (events : List Event) : List Input := events.filterMap (Event.inputTo i)

namespace Generators

theorem step_cases {s t : Generators} {e : Event} (h : step s e = some t) :
    (e = .get ∧ t = { s with generators := s.generators ++ [s.source] }) ∨
      ∃ i input g, e = .call i input ∧ s.generators[i]? = some g ∧
        ((g.countsAlone = true ∧
            t = { s with generators := s.generators.set i (g.generate input).2
                         answers := s.answers ++ [(i, (g.generate input).1)] }) ∨
          (g.countsAlone = false ∧
            t = { s with source := (s.source.generate input).2
                         answers := s.answers ++ [(i, (s.source.generate input).1)] })) := by
  cases e with
  | get => exact .inl ⟨rfl, (Option.some.inj h).symm⟩
  | call i input =>
    obtain ⟨g, hg, rfl⟩ := Option.map_eq_some_iff.mp h
    refine .inr ⟨i, input, g, rfl, hg, ?_⟩
    split_ifs with halone
    · exact .inl ⟨halone, rfl⟩
    · exact .inr ⟨by simpa using halone, rfl⟩

/-! ## Interleavings -/

theorem inputs_snoc (events : List Event) (e : Event) :
    inputs (events ++ [e]) = inputs events ++ e.input.toList := by
  cases e <;> simp [inputs, Event.input]

theorem inputsTo_snoc (i : ℕ) (events : List Event) (e : Event) :
    inputsTo i (events ++ [e]) = inputsTo i events ++ (e.inputTo i).toList := by
  rw [inputsTo, List.filterMap_append, inputsTo]
  cases h : e.inputTo i <;> simp [h]

/-- The generators share the source, and the answers are those of one machine. -/
structure Shared (source : Source) (events : List Event) (s : Generators) : Prop where
  source_eq : s.source = Mealy.after Source.generate source (inputs events)
  source_shared : s.source.countsAlone = false
  generators_shared : ∀ g ∈ s.generators, g.countsAlone = false
  answers_eq : s.answers.map (·.2) = Mealy.outputs Source.generate source (inputs events)

theorem shared_step {source : Source} {events : List Event} {s t : Generators} {e : Event}
    (hs : Shared source events s)
    (h : step s e = some t) : Shared source (events ++ [e]) t := by
  rcases step_cases h with ⟨rfl, rfl⟩ | ⟨i, input, g, rfl, hg, ⟨halone, -⟩ | ⟨-, rfl⟩⟩
  · have hinputs : inputs (events ++ [.get]) = inputs events := by
      rw [inputs_snoc]
      exact List.append_nil _
    refine ⟨hinputs ▸ hs.source_eq, hs.source_shared, fun g hg => ?_, hinputs ▸ hs.answers_eq⟩
    rcases List.mem_append.mp hg with hg | hg
    · exact hs.generators_shared g hg
    · rw [List.mem_singleton.mp hg]
      exact hs.source_shared
  · rw [hs.generators_shared g (List.mem_of_getElem? hg)] at halone
    cases halone
  · have hinputs : inputs (events ++ [.call i input]) = inputs events ++ [input] := inputs_snoc _ _
    refine ⟨?_, ?_, hs.generators_shared, ?_⟩
    · rw [hinputs, Mealy.after_snoc, ← hs.source_eq]
    · rw [countsAlone_generate, hs.source_shared]
    · rw [hinputs, Mealy.outputs_snoc, ← hs.source_eq, ← hs.answers_eq, List.map_append]
      rfl

theorem shared_run {source : Source} (hsource : source.countsAlone = false) {events : List Event}
    {s : Generators}
    (h : Runs.exec step (init source) events = some s) : Shared source events s :=
  Runs.exec_history ⟨rfl, hsource, by simp [init], rfl⟩ (fun _ _ _ _ _ hu ht => shared_step hu ht) h

/-- Each generator is a machine of its own. -/
structure Alone (source : Source) (events : List Event) (s : Generators) : Prop where
  source_eq : s.source = source
  generator_eq : ∀ i g, s.generators[i]? = some g → g = Mealy.after Source.generate source (inputsTo i events)
  generators_alone : ∀ g ∈ s.generators, g.countsAlone = true
  uncalled : ∀ i, s.generators.length ≤ i → inputsTo i events = []
  answersOf_eq : ∀ i, s.answersOf i = Mealy.outputs Source.generate source (inputsTo i events)

theorem alone_step {source : Source} {events : List Event} {s t : Generators} {e : Event}
    (hsource : source.countsAlone = true) (hs : Alone source events s) (h : step s e = some t) :
    Alone source (events ++ [e]) t := by
  rcases step_cases h with ⟨rfl, rfl⟩ | ⟨i, input, g, rfl, hg, ⟨-, rfl⟩ | ⟨hshared, -⟩⟩
  · have hinputs : ∀ j, inputsTo j (events ++ [.get]) = inputsTo j events := by
      intro j
      rw [inputsTo_snoc]
      exact List.append_nil _
    refine ⟨hs.source_eq, ?_, ?_, ?_, fun j => hinputs j ▸ hs.answersOf_eq j⟩
    · intro j g hg
      rw [hinputs]
      rcases Nat.lt_or_ge j s.generators.length with hj | hj
      · rw [List.getElem?_append_left hj] at hg
        exact hs.generator_eq j g hg
      · -- The new generator has not been called.
        rw [hs.uncalled j hj]
        rw [List.getElem?_append_right hj] at hg
        rw [← hs.source_eq]
        exact (List.mem_singleton.mp (List.mem_of_getElem? hg))
    · intro g hg
      rcases List.mem_append.mp hg with hg | hg
      · exact hs.generators_alone g hg
      · rw [List.mem_singleton.mp hg, hs.source_eq, hsource]
    · intro j hj
      rw [hinputs]
      exact hs.uncalled j (by simp at hj; omega)
  · have hinputs : ∀ j, inputsTo j (events ++ [.call i input]) =
        if j = i then inputsTo i events ++ [input] else inputsTo j events := by
      intro j
      rw [inputsTo_snoc]
      split_ifs with hj
      · simp [Event.inputTo, hj]
      · simp [Event.inputTo, Ne.symm hj]
    have hlt : i < s.generators.length := (List.getElem?_eq_some_iff.mp hg).1
    refine ⟨hs.source_eq, ?_, ?_, ?_, ?_⟩
    · intro j g' hg'
      rw [hinputs]
      split_ifs with hj
      · subst hj
        rw [List.getElem?_set_self hlt] at hg'
        rw [Mealy.after_snoc, ← hs.generator_eq j g hg]
        exact (Option.some.inj hg').symm
      · rw [List.getElem?_set_ne (Ne.symm hj)] at hg'
        exact hs.generator_eq j g' hg'
    · intro g' hg'
      rcases List.mem_or_eq_of_mem_set hg' with hg' | rfl
      · exact hs.generators_alone g' hg'
      · rw [countsAlone_generate, hs.generators_alone g (List.mem_of_getElem? hg)]
    · intro j hj
      rw [List.length_set] at hj
      rw [hinputs, if_neg (by omega), hs.uncalled j hj]
    · intro j
      rw [hinputs]
      simp only [answersOf, List.filter_append, List.map_append]
      split_ifs with hj
      · subst hj
        rw [Mealy.outputs_snoc, ← hs.answersOf_eq, ← hs.generator_eq j g hg]
        simp [answersOf]
      · rw [← hs.answersOf_eq]
        simp [answersOf, Ne.symm hj]
  · rw [hs.generators_alone g (List.mem_of_getElem? hg)] at hshared
    cases hshared

theorem alone_run {source : Source} (hsource : source.countsAlone = true) {events : List Event}
    {s : Generators}
    (h : Runs.exec step (init source) events = some s) : Alone source events s :=
  Runs.exec_history ⟨rfl, by simp [init], by simp [init], fun _ _ => rfl, fun _ => rfl⟩
    (fun _ _ _ _ _ hu ht => alone_step hsource hu ht) h

end Generators

open Generators

/-! ## The static source -/

theorem after_static (header : HeaderMap) (maxYields : UInt64) (inputs : List Input) :
    Mealy.after Source.generate (.static header maxYields) inputs =
      .static header (maxYields - UInt64.ofNat inputs.length) := by
  induction inputs using List.reverseRecOn with
  | nil => simp [Mealy.after]
  | append_singleton inputs input ih =>
    have hcount : maxYields - UInt64.ofNat inputs.length - 1 =
        maxYields - (UInt64.ofNat inputs.length + UInt64.ofNat 1) := by grind
    rw [Mealy.after_snoc, ih, List.length_append, UInt64.ofNat_add, List.length_singleton, ← hcount]
    rfl

/-- The count wraps, so only every `2 ^ 64`th call answers nothing. -/
theorem static_answer {header : HeaderMap} {maxYields : UInt64} {inputs : List Input} {k : ℕ}
    {answer : Option Request}
    (h : (Mealy.outputs Source.generate (.static header maxYields) inputs)[k]? = some answer) :
    answer = if k % 2 ^ 64 ≠ maxYields.toNat then some ⟨header, []⟩ else none := by
  rw [Mealy.getElem?_outputs] at h
  obtain ⟨input, hinput, rfl⟩ := Option.map_eq_some_iff.mp h
  have hk : k < inputs.length := (List.getElem?_eq_some_iff.mp hinput).1
  have hzero : maxYields - UInt64.ofNat k ≠ 0 ↔ k % 2 ^ 64 ≠ maxYields.toNat := by
    have hsub : maxYields - UInt64.ofNat k = 0 ↔ UInt64.ofNat k = maxYields := by grind
    rw [ne_eq, ne_eq, hsub, ← UInt64.toNat_inj, UInt64.toNat_ofNat']
  rw [after_static, List.length_take_of_le hk.le, Source.generate]
  simp only [hzero]

/-- Whatever the generators and the order of their calls, the source is bounded exactly when it is
called at most once after its last request. The call after that starts over. -/
theorem static_bounded_iff (header : HeaderMap) (maxYields : UInt64) (events : List Event) (s : Generators)
    (h : Runs.exec step (init (.static header maxYields)) events = some s) :
    (∀ k answer, (s.answers.map (·.2))[k]? = some answer →
        answer = if k < maxYields.toNat then some ⟨header, []⟩ else none) ↔
      s.answers.length ≤ maxYields.toNat + 1 := by
  have hshared := shared_run rfl h
  have hmax := maxYields.toNat_lt
  constructor
  · intro hbounded
    by_contra hlong
    obtain ⟨answer, hanswer⟩ : ∃ answer, (s.answers.map (·.2))[maxYields.toNat + 1]? = some answer :=
      ⟨_, List.getElem?_eq_getElem (by rw [List.length_map]; omega)⟩
    have hnone := hbounded _ _ hanswer
    rw [hshared.answers_eq] at hanswer
    rw [static_answer hanswer, if_pos (by omega), if_neg (by omega)] at hnone
    cases hnone
  · intro hshort k answer hanswer
    have hk := (List.getElem?_eq_some_iff.mp hanswer).1
    rw [List.length_map] at hk
    rw [hshared.answers_eq] at hanswer
    have hlt : k % 2 ^ 64 ≠ maxYields.toNat ↔ k < maxYields.toNat := by omega
    simp only [static_answer hanswer, hlt]

def idle : Input := ⟨none, fun _ => Fin.last 61⟩

theorem static_bounded_two_generators :
    ∃ s, Runs.exec step (init (.static [] 1)) [.get, .get, .call 1 idle, .call 0 idle] = some s ∧
      ∀ k answer, (s.answers.map (·.2))[k]? = some answer → answer = if k < 1 then some ⟨[], []⟩ else none :=
  ⟨_, rfl, (static_bounded_iff [] 1 [.get, .get, .call 1 idle, .call 0 idle] _ rfl).mpr (by decide)⟩

/-- The second call after the last request yields one more. -/
theorem static_starts_over :
    ∃ s, Runs.exec step (init (.static [] 1)) [.get, .call 0 idle, .call 0 idle, .call 0 idle] = some s ∧
      s.answers = [(0, some ⟨[], []⟩), (0, none), (0, some ⟨[], []⟩)] :=
  ⟨_, rfl, rfl⟩

/-! ## The options list -/

/-- The request for one position of the list that is repeated forever. -/
def replayed (header : HeaderMap) (options : List RequestOptions) (k : ℕ) : Request :=
  match options[k % options.length]? with
  | none => ⟨header, []⟩
  | some option => optionToRequest header option

theorem map_optionToRequest {options : List RequestOptions} (hne : options ≠ [])
    (header : HeaderMap) (k : ℕ) :
    (options[k % options.length]?).map (optionToRequest header) = some (replayed header options k) := by
  have hlt : k % options.length < options.length := Nat.mod_lt k (List.length_pos_of_ne_nil hne)
  rw [replayed, List.getElem?_eq_getElem hlt]
  rfl

theorem replayed_periodic {options : List RequestOptions} {n : ℕ} (h : options.length ∣ n)
    (header : HeaderMap) :
    Function.Periodic (replayed header options) n := by
  intro k
  obtain ⟨m, rfl⟩ := h
  rw [replayed, replayed, Nat.add_mul_mod_self_left]

def counterAfter (options : List RequestOptions) (totalRequests : UInt32) (n : ℕ) : UInt32 :=
  if options = [] then 0 else if totalRequests = 0 then
    UInt32.ofNat n else UInt32.ofNat (min n totalRequests.toNat)

section

variable {header : HeaderMap} {options : List RequestOptions} {totalRequests : UInt32}

theorem toNat_counterAfter (hne : options ≠ []) (n : ℕ) :
    (counterAfter options totalRequests n).toNat =
      if totalRequests = 0 then n % 2 ^ 32 else min n totalRequests.toNat := by
  have hlt := totalRequests.toNat_lt
  rw [counterAfter, if_neg hne]
  split_ifs
  · exact UInt32.toNat_ofNat'
  · exact UInt32.toNat_ofNat_of_lt' (by show _ < 2 ^ 32; omega)

theorem stops_iff (n : ℕ) :
    (counterAfter options totalRequests n ≥ totalRequests ∧ totalRequests ≠ 0) ↔
      options ≠ [] ∧ totalRequests ≠ 0 ∧ totalRequests.toNat ≤ n := by
  by_cases hzero : totalRequests = 0
  · simp [hzero]
  by_cases hne : options = []
  · refine iff_of_false ?_ fun hcond => hcond.1 hne
    rintro ⟨hle, -⟩
    rw [counterAfter, if_pos hne] at hle
    exact hzero (UInt32.le_zero_iff.mp hle)
  · rw [ge_iff_le, UInt32.le_iff_toNat_le, toNat_counterAfter hne, if_neg hzero]
    simp [hzero, hne]

theorem after_optionsList (inputs : List Input) :
    Mealy.after Source.generate (.optionsList header options totalRequests 0) inputs =
      .optionsList header options totalRequests (counterAfter options totalRequests inputs.length) := by
  induction inputs using List.reverseRecOn with
  | nil => simp [Mealy.after, counterAfter]
  | append_singleton inputs input ih =>
    rw [Mealy.after_snoc, ih, List.length_append, List.length_singleton, Source.generate]
    simp only [stops_iff]
    split_ifs with hstop hnil
    · obtain ⟨hne, hzero, hle⟩ := hstop
      simp only [counterAfter, hne, hzero, if_false, min_eq_right hle, min_eq_right (Nat.le_succ_of_le hle)]
    · simp only [counterAfter, hnil, if_true]
    · have hmin : totalRequests ≠ 0 →
          min (inputs.length + 1) totalRequests.toNat = min inputs.length totalRequests.toNat + 1 := by
        intro hzero
        have hlt : inputs.length < totalRequests.toNat := by
          by_contra hge
          exact hstop ⟨hnil, hzero, by omega⟩
        omega
      simp only [counterAfter, hnil, if_false]
      split_ifs with hzero
      · rw [UInt32.ofNat_add]
        rfl
      · rw [hmin hzero, UInt32.ofNat_add]
        rfl

theorem optionsList_answer {inputs : List Input} {k : ℕ} {answer : Option Request}
    (h : (Mealy.outputs Source.generate (.optionsList header options totalRequests 0) inputs)[k]? =
      some answer) :
    answer = if options = [] ∨ totalRequests = 0 ∨ k < totalRequests.toNat then
        some (replayed header options (if totalRequests = 0 then k % 2 ^ 32 else k))
      else none := by
  rw [Mealy.getElem?_outputs] at h
  obtain ⟨input, hinput, rfl⟩ := Option.map_eq_some_iff.mp h
  have hk : k < inputs.length := (List.getElem?_eq_some_iff.mp hinput).1
  rw [after_optionsList, List.length_take_of_le hk.le, Source.generate]
  simp only [stops_iff]
  by_cases hstop : options ≠ [] ∧ totalRequests ≠ 0 ∧ totalRequests.toNat ≤ k
  · obtain ⟨hne, hzero, hle⟩ := hstop
    simp only [hne, hzero, not_lt.mpr hle, hle, ne_eq, not_false_eq_true, and_self, or_self,
      if_true, if_false]
  have hgo : options = [] ∨ totalRequests = 0 ∨ k < totalRequests.toNat := by
    by_contra hnot
    simp only [not_or, not_lt] at hnot
    exact hstop hnot
  rw [if_neg hstop, if_pos hgo]
  by_cases hnil : options = []
  · subst hnil
    rfl
  · rw [if_neg hnil, map_optionToRequest hnil, toNat_counterAfter hnil]
    split_ifs with hzero
    · rfl
    · have hlt : k < totalRequests.toNat := (hgo.resolve_left hnil).resolve_left hzero
      rw [min_eq_left hlt.le]

end

theorem exec_calls (source : Source) (input : Input) (n : ℕ) :
    ∃ s, Runs.exec step (init source) (.get :: List.replicate n (.call 0 input)) = some s ∧
      s.generators.length = 1 := by
  induction n with
  | zero => exact ⟨_, rfl, rfl⟩
  | succ n ih =>
    obtain ⟨s, hs, hlength⟩ := ih
    have hzero : s.generators[0]? = some s.generators[0] := List.getElem?_eq_getElem (by omega)
    obtain ⟨t, ht⟩ : ∃ t, step s (.call 0 input) = some t := ⟨_, by rw [step, hzero]; rfl⟩
    refine ⟨t, ?_, ?_⟩
    · rw [List.replicate_succ', ← List.cons_append, Runs.exec_snoc_eq_some]
      exact ⟨s, hs, ht⟩
    · rcases step_cases ht with ⟨hget, -⟩ | ⟨_, _, _, -, -, ⟨-, rfl⟩ | ⟨-, rfl⟩⟩
      · cases hget
      · rw [List.length_set, hlength]
      · exact hlength

theorem exists_answer (source : Source) (hsource : source.countsAlone = true) (k : ℕ) :
    ∃ events s answer, Runs.exec step (init source) events = some s ∧ (s.answersOf 0)[k]? = some answer := by
  obtain ⟨s, hs, -⟩ := exec_calls source idle (k + 1)
  have hinputs : inputsTo 0 (.get :: List.replicate (k + 1) (.call 0 idle)) =
      List.replicate (k + 1) idle := by
    rw [inputsTo, List.filterMap_cons_none rfl]
    exact List.filterMap_replicate_of_some rfl
  have hlength : (s.answersOf 0).length = k + 1 := by
    rw [(alone_run hsource hs).answersOf_eq, Mealy.length_outputs, hinputs, List.length_replicate]
  exact ⟨_, s, _, hs, List.getElem?_eq_getElem (by omega)⟩

/-- The calls of each generator replay the list, whatever the others do. -/
def ReplaysList (header : HeaderMap) (options : List RequestOptions) (totalRequests : UInt32) : Prop :=
  ∀ events s i k answer, Runs.exec step (init (.optionsList header options totalRequests 0)) events = some s →
    (s.answersOf i)[k]? = some answer →
      answer = if totalRequests = 0 ∨ k < totalRequests.toNat then some (replayed header options k) else none

theorem replaysList_iff_forall {header : HeaderMap} {options : List RequestOptions} {totalRequests : UInt32} :
    ReplaysList header options totalRequests ↔ ∀ k,
      (if options = [] ∨ totalRequests = 0 ∨ k < totalRequests.toNat then
        some (replayed header options (if totalRequests = 0 then k % 2 ^ 32 else k)) else none) =
      if totalRequests = 0 ∨ k < totalRequests.toNat then some (replayed header options k) else none := by
  constructor
  · intro hreplays k
    obtain ⟨events, s, answer, hrun, hk⟩ := exists_answer (.optionsList header options totalRequests 0) rfl k
    rw [← hreplays events s 0 k answer hrun hk]
    rw [(alone_run rfl hrun).answersOf_eq] at hk
    exact (optionsList_answer hk).symm
  · intro hforall events s i k answer hrun hk
    rw [(alone_run rfl hrun).answersOf_eq] at hk
    rw [optionsList_answer hk, hforall]

/-- An empty list is never counted, so a limit has no effect on it. Without a limit the counter
wraps, and the list is replayed only if it comes out even after `2 ^ 32` calls. -/
theorem replaysList_iff (header : HeaderMap) (options : List RequestOptions) (totalRequests : UInt32) :
    ReplaysList header options totalRequests ↔ (options = [] → totalRequests = 0) ∧
      (totalRequests = 0 → Function.Periodic (replayed header options) (2 ^ 32)) := by
  rw [replaysList_iff_forall]
  by_cases hzero : totalRequests = 0
  · simp only [hzero, true_or, or_true, if_true, Option.some.injEq, implies_true, true_and, forall_const]
    constructor
    · intro hwraps k
      rw [← hwraps (k + 2 ^ 32), Nat.add_mod_right, hwraps]
    · intro hperiodic k
      exact hperiodic.map_mod_nat k
  · simp only [hzero, false_or, if_false, imp_false, false_implies, and_true]
    constructor
    · rintro hforall rfl
      have hlimit := hforall totalRequests.toNat
      simp at hlimit
    · intro hne k
      simp [hne]

theorem replaysList_limited :
    ReplaysList [] [{ requestMethod := .named .put }, {}, {}] 5 ∧
      ReplaysList [] [{ requestMethod := .named .put }, {}] 0 := by
  constructor
  · exact (replaysList_iff _ _ _).mpr ⟨by decide, fun h => absurd h (by decide)⟩
  · exact (replaysList_iff _ _ _).mpr ⟨by decide, fun _ => replayed_periodic ⟨2 ^ 31, rfl⟩ _⟩

/-- An empty list goes on after its limit, and three entries do not come out even. -/
theorem empty_list_never_stops :
    (∃ s, Runs.exec step (init (.optionsList [] [] 1 0)) [.get, .call 0 idle, .call 0 idle] = some s ∧
      s.answersOf 0 = [some ⟨[], []⟩, some ⟨[], []⟩]) ∧
      ¬ReplaysList [] [] 1 ∧ ¬ReplaysList [] [{ requestMethod := .named .put }, {}, {}] 0 := by
  refine ⟨⟨_, rfl, rfl⟩, fun hreplays => ?_, fun hreplays => ?_⟩
  · cases hreplays [.get, .call 0 idle, .call 0 idle] _ 0 1 _ rfl rfl
  · exact absurd (replaysList_iff_forall.mp hreplays (2 ^ 32)) (by decide)

end Nighthawk.RequestSource
