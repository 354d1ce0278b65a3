import Nighthawk.RequestSource.Code

/-!
# The requests of a source

A source is a generator with a state, but the requests that it can ever yield depend only on
what it was made with. `Offers` says which those are.
-/

namespace Nighthawk.RequestSource

open Options
open BenchmarkClient (Request)

variable {service : Option RequestSpecifier → Prop} {r : Request}

/-! ## The options list -/

/-- The number of entries that a counter of 32 bits reaches. -/
def reach (totalRequests : UInt32) : ℕ := if totalRequests = 0 then 2 ^ 32 else totalRequests.toNat

theorem reach_le (totalRequests : UInt32) : reach totalRequests ≤ 2 ^ 32 := by
  have hlt := totalRequests.toNat_lt
  unfold reach
  split_ifs <;> omega

theorem lt_reach_iff {totalRequests counter : UInt32} :
    counter.toNat < reach totalRequests ↔ ¬ (counter ≥ totalRequests ∧ totalRequests ≠ 0) := by
  have hlt := counter.toNat_lt
  unfold reach
  split_ifs with h
  · simp [h, hlt]
  · simp [h, UInt32.lt_iff_toNat_lt]

/-! ## What a source offers -/

def Source.Offers (service : Option RequestSpecifier → Prop) : Source → Request → Prop
  | .static header _, r => r = ⟨header, []⟩
  | .remote baseHeader, r => ∃ message, service message ∧ r = messageToRequest baseHeader message
  | .optionsList header options totalRequests _, r =>
    (options = [] ∧ r = ⟨header, []⟩) ∨
      ∃ option ∈ options.take (reach totalRequests), r = optionToRequest header option
  | .llm header modelName reqTokenCount respMaxTokens, r =>
    ∃ draw, r = llmRequest header (llmBody modelName respMaxTokens (generateRandomPrompt reqTokenCount draw))

theorem offers_step {s : Source} (input : Input) :
    (s.generate input).2.Offers service r ↔ s.Offers service r := by
  cases s with
  | optionsList header options totalRequests counter =>
    simp only [Source.generate]
    split_ifs <;> rfl
  | static | remote | llm => rfl

theorem offers_generate {s : Source} {input : Input} (hsent : input.Sent service)
    (h : (s.generate input).1 = some r) : s.Offers service r := by
  cases s with
  | static header yieldsLeft =>
    simp only [Source.generate] at h
    split_ifs at h
    exact (Option.some.inj h).symm
  | remote baseHeader =>
    obtain ⟨message, hmessage, rfl⟩ := Option.map_eq_some_iff.mp h
    exact ⟨message, hsent message hmessage, rfl⟩
  | llm header modelName reqTokenCount respMaxTokens => exact ⟨input.draw, (Option.some.inj h).symm⟩
  | optionsList header options totalRequests counter =>
    simp only [Source.generate] at h
    split_ifs at h with hstop hempty
    · exact Or.inl ⟨hempty, (Option.some.inj h).symm⟩
    · obtain ⟨option, hoption, rfl⟩ := Option.map_eq_some_iff.mp h
      obtain ⟨hlt, rfl⟩ := List.getElem?_eq_some_iff.mp hoption
      have hreach := lt_reach_iff.mpr hstop
      have hle := Nat.mod_le counter.toNat options.length
      refine Or.inr ⟨_, List.mem_take_iff_getElem.mpr ⟨_, ?_, rfl⟩, rfl⟩
      omega

/-- A source before its first call. -/
def Source.Fresh : Source → Prop
  | .static _ yieldsLeft => yieldsLeft ≠ 0
  | .optionsList _ _ _ counter => counter = 0
  | .remote _ | .llm .. => True

theorem exec_counter {header : HeaderMap} {options : List RequestOptions} {totalRequests : UInt32}
    (hne : options ≠ []) (input : Input) (n : ℕ) (hn : n ≤ reach totalRequests) :
    Runs.exec Source.step (.optionsList header options totalRequests 0) (List.replicate n input) =
      some (.optionsList header options totalRequests (UInt32.ofNat n)) := by
  induction n with
  | zero => rfl
  | succ n ih =>
    rw [List.replicate_succ', Runs.exec_snoc_eq_some]
    refine ⟨_, ih (by omega), ?_⟩
    have hbound := reach_le totalRequests
    have hcounter : (UInt32.ofNat n).toNat = n := UInt32.toNat_ofNat_of_lt' (by show n < 2 ^ 32; omega)
    have hgo := lt_reach_iff.mp (show (UInt32.ofNat n).toNat < reach totalRequests by omega)
    rw [Source.step, Source.generate, if_neg hgo, if_neg hne, UInt32.ofNat_add]
    rfl

theorem yields_of_offers {s : Source} (hfresh : s.Fresh) (h : s.Offers service r) : s.Yields service r := by
  -- A call for which the queue is empty.
  let idle : Input := ⟨none, fun _ => 0⟩
  have hidle : idle.Sent service := fun _ hnone => by cases hnone
  cases s with
  | static header yieldsLeft =>
    refine ⟨[], _, idle, by simpa using hidle, rfl, ?_⟩
    obtain rfl : r = _ := h
    exact if_pos hfresh
  | remote baseHeader =>
    obtain ⟨message, hmessage, rfl⟩ := h
    refine ⟨[], _, ⟨some message, fun _ => 0⟩, ?_, rfl, rfl⟩
    intro i hi m hm
    obtain rfl := List.mem_singleton.mp hi
    obtain rfl := Option.some.inj hm
    exact hmessage
  | llm header modelName reqTokenCount respMaxTokens =>
    obtain ⟨draw, rfl⟩ := h
    refine ⟨[], _, ⟨none, draw⟩, ?_, rfl, rfl⟩
    intro i hi m hm
    obtain rfl := List.mem_singleton.mp hi
    cases hm
  | optionsList header options totalRequests counter =>
    obtain rfl : counter = 0 := hfresh
    obtain ⟨hempty, rfl⟩ | ⟨option, hoption, rfl⟩ := h
    · refine ⟨[], _, idle, by simpa using hidle, rfl, ?_⟩
      have hgo := lt_reach_iff.mp (show (0 : UInt32).toNat < reach totalRequests by
        by_contra hzero
        have hreach : reach totalRequests = 0 := by simpa using hzero
        unfold reach at hreach
        split_ifs at hreach with h0
        exact h0 (UInt32.toNat_inj.mp hreach))
      rw [Source.generate, if_neg hgo, if_pos hempty]
    · obtain ⟨n, hn, rfl⟩ := List.mem_take_iff_getElem.mp hoption
      have hbound := reach_le totalRequests
      have hcounter : (UInt32.ofNat n).toNat = n := UInt32.toNat_ofNat_of_lt' (by show n < 2 ^ 32; omega)
      have hne : options ≠ [] := List.ne_nil_of_length_pos (by omega)
      have hgo := lt_reach_iff.mp (show (UInt32.ofNat n).toNat < reach totalRequests by omega)
      refine ⟨List.replicate n idle, _, idle, ?_, exec_counter hne idle n (by omega), ?_⟩
      · intro i hi
        obtain rfl : i = idle := by
          rcases List.mem_cons.mp hi with h | h
          · exact h
          · exact List.eq_of_mem_replicate h
        exact hidle
      · rw [Source.generate, if_neg hgo, if_neg hne, hcounter, Nat.mod_eq_of_lt (by omega),
          List.getElem?_eq_getElem (by omega)]
        rfl

theorem yields_iff_offers {s : Source} (hfresh : s.Fresh) : s.Yields service r ↔ s.Offers service r := by
  refine ⟨?_, yields_of_offers hfresh⟩
  rintro ⟨inputs, t, input, hsent, hrun, hanswer⟩
  have hoffers : t.Offers service r := offers_generate (hsent input (by simp)) hanswer
  have hback : ∀ u i v, (u.Offers service r → s.Offers service r) → Source.step u i = some v →
      (v.Offers service r → s.Offers service r) := by
    intro u i v hu hstep hv
    obtain rfl := Option.some.inj hstep
    exact hu ((offers_step i).mp hv)
  exact Runs.exec_inv hback id hrun hoffers

/-! ## The factory -/

theorem fresh_loadRequestSourcePlugin {plugins : PluginEnv} {config : TypedExtensionConfig}
    {header : HeaderMap}
    {s : Source} (h : loadRequestSourcePlugin plugins config header = some s) : s.Fresh := by
  unfold loadRequestSourcePlugin at h
  split_ifs at h
  · obtain ⟨c, -, h⟩ := Option.bind_eq_some_iff.mp h
    unfold createFileBased at h
    split_ifs at h
    obtain ⟨options, -, rfl⟩ := Option.map_eq_some_iff.mp h
    exact rfl
  · obtain ⟨c, -, rfl⟩ := Option.map_eq_some_iff.mp h
    exact rfl
  · obtain ⟨c, -, h⟩ := Option.bind_eq_some_iff.mp h
    unfold createLlm at h
    split_ifs at h
    obtain rfl := Option.some.inj h
    trivial

theorem fresh_create {plugins : PluginEnv} {o : OptionsImpl} {s : Source} (h : create plugins o = some s) :
    s.Fresh := by
  obtain ⟨header, -, h⟩ := Option.bind_eq_some_iff.mp h
  split_ifs at h
  · obtain rfl := Option.some.inj h
    trivial
  · split at h
    · exact fresh_loadRequestSourcePlugin h
    · obtain rfl := Option.some.inj h
      show UInt64.ofNat (2 ^ 64 - 1) ≠ 0
      decide

end Nighthawk.RequestSource
