import Nighthawk.DynamicConfig.Code

/-!
# Churn

No entry is lost or made twice, whatever the random choices are. The argument is made once, for
any kind of entry.
-/

namespace Nighthawk.DynamicConfig

open Py Fallible

section

variable {α β γ : Type} (entry : Entry α β γ) (random : Random α)

/-- The entries of both lists. -/
def listed (lists : List β × List α) : List α := lists.1.map entry.unpack ++ lists.2

theorem listed_activated (active : List β) (inactive : List α) (a : α) :
    (listed entry (active ++ [entry.pack a], inactive)).Perm (listed entry (active, inactive ++ [a])) := by
  unfold listed
  rw [List.map_append, List.map_singleton, entry.unpack_pack, List.append_assoc]
  exact List.perm_append_comm.append_left _

/-! ## The loops -/

theorem assignInitial_spec (k turns : ℕ) (entries : List α) (lists : List β × List α)
    (h : entries.length ≤ turns) :
    Returns (assignInitial entry random k turns (entries, lists))
      fun r => (listed entry r.2).Perm (entries ++ listed entry lists) := by
  induction turns generalizing k entries lists with
  | zero =>
    have hnil : entries = [] := List.length_eq_zero_iff.mp (by omega)
    subst hnil
    exact Returns.ok (List.Perm.refl _)
  | succ turns ih =>
    obtain ⟨active, inactive⟩ := lists
    rw [assignInitial]
    split
    next hnil =>
      subst hnil
      exact Returns.ok (List.Perm.refl _)
    next hne =>
      apply (random.choice_spec k true [false]).bind
      intro addAsActive _
      apply (pop_spec (List.length_pos_of_ne_nil hne)).bind
      rintro _ ⟨popped, rest, rfl, rfl⟩
      rw [List.length_append, List.length_singleton] at h
      apply (ih (k + 1) rest _ (by omega)).mono
      intro r hr
      -- Both branches list the popped entry once.
      have hlisted : (listed entry (if addAsActive = true then (active ++ [entry.pack popped], inactive)
          else (active, inactive ++ [popped]))).Perm (popped :: listed entry (active, inactive)) := by
        have hlast : (listed entry (active, inactive ++ [popped])).Perm
            (popped :: listed entry (active, inactive)) := by
          unfold listed
          rw [← List.append_assoc]
          exact List.perm_append_singleton popped _
        split
        · exact (listed_activated entry active inactive popped).trans hlast
        · exact hlast
      rw [List.append_assoc, List.singleton_append]
      exact hr.trans (hlisted.append_left rest)

theorem activate_spec (n : ℕ) (active : List β) (inactive : List α) (h : n ≤ inactive.length) :
    Returns (activate entry n (active, inactive))
      fun lists => (listed entry lists).Perm (listed entry (active, inactive)) := by
  induction n generalizing active inactive with
  | zero => exact Returns.ok (List.Perm.refl _)
  | succ n ih =>
    rw [activate]
    apply (pop_spec (by omega)).bind
    rintro _ ⟨popped, rest, rfl, rfl⟩
    rw [List.length_append, List.length_singleton] at h
    apply (ih _ rest (by omega)).mono
    intro lists hlists
    exact hlists.trans (listed_activated entry active rest popped)

theorem deactivate_spec (k n : ℕ) (active : List β) (inactive : List α) (h : n ≤ active.length) :
    Returns (deactivate entry random k n (active, inactive))
      fun lists => (listed entry lists).Perm (listed entry (active, inactive)) := by
  induction n generalizing k active inactive with
  | zero => exact Returns.ok (List.Perm.refl _)
  | succ n ih =>
    rw [deactivate]
    apply (random.randrange_spec k (by omega)).bind
    intro index hindex
    apply (popAt_spec hindex).bind
    rintro _ ⟨popped, rest, rfl, hperm⟩
    have hlength := hperm.length_eq
    rw [List.length_cons] at hlength
    apply (ih (k + 1) rest _ (by omega)).mono
    intro lists hlists
    apply hlists.trans
    have hmoved : (rest.map entry.unpack ++ (inactive ++ [entry.unpack popped])).Perm
        ((popped :: rest).map entry.unpack ++ inactive) := by
      rw [← List.append_assoc]
      exact List.perm_append_singleton _ _
    exact hmoved.trans ((hperm.map entry.unpack).append_right inactive)

/-! ## One call -/

/-- The manager holds the configured entries, and this is its version. -/
structure Holds (configured : List α) (version : ℕ) (m : Manager α β γ) : Prop where
  entries : (listed entry (m.active, m.inactive)).Perm configured
  versionInfo : m.versionInfo = Text.decimal version

variable {configured : List α} {version : ℕ} {m : Manager α β γ}

theorem create_spec (configured : List α) (outputFile : Str) :
    Returns (create entry random configured outputFile) (Holds entry configured 1) := by
  unfold create
  apply (assignInitial_spec entry random 0 configured.length configured ([], []) (Nat.le_refl _)).bind
  rintro ⟨_, active, inactive⟩ hlisted
  rw [show listed entry ([], []) = [] from rfl, List.append_nil] at hlisted
  exact Returns.ok ⟨hlisted, rfl⟩

theorem addRandom_spec (hm : Holds entry configured version m) :
    Returns (addRandom entry random m) (Holds entry configured version) := by
  unfold addRandom
  apply (random.randrange_spec 1 (Nat.succ_pos _)).bind
  intro numToAdd hnum
  split
  · exact Returns.ok hm
  · have hshuffle := random.shuffle_perm m.inactive
    have hlength := hshuffle.length_eq
    apply (activate_spec entry numToAdd m.active (random.shuffle m.inactive) (by omega)).bind
    rintro ⟨active, inactive⟩ hlisted
    exact Returns.ok ⟨(hlisted.trans (hshuffle.append_left _)).trans hm.entries, hm.versionInfo⟩

theorem removeRandom_spec (hm : Holds entry configured version m) :
    Returns (removeRandom entry random m) (Holds entry configured version) := by
  unfold removeRandom
  apply (random.randrange_spec 1 (Nat.succ_pos _)).bind
  intro numToRemove hnum
  split
  · exact Returns.ok hm
  · apply (deactivate_spec entry random 2 numToRemove m.active m.inactive (by omega)).bind
    rintro ⟨active, inactive⟩ hlisted
    exact Returns.ok ⟨hlisted.trans hm.entries, hm.versionInfo⟩

theorem mutateWith_spec (hm : Holds entry configured version m) :
    Returns (mutateWith random (addRandom entry) (removeRandom entry) m)
      (Holds entry configured version) := by
  unfold mutateWith
  apply (random.choice_spec 0 Action.add [Action.remove]).bind
  intro action _
  have hset : Holds entry configured version { m with lastMutateAction := some action } :=
    ⟨hm.entries, hm.versionInfo⟩
  cases action with
  | add => exact addRandom_spec entry random hset
  | remove => exact removeRandom_spec entry random hset

theorem executeWith_spec (hm : Holds entry configured version m) :
    Returns (executeWith entry random (fun r => mutateWith r (addRandom entry) (removeRandom entry)) m)
      (Holds entry configured (version + 1)) := by
  unfold executeWith
  apply (mutateWith_spec entry random hm).bind
  intro m hm
  rw [nextVersion, hm.versionInfo, Text.parseNumber_decimal]
  exact Returns.ok ⟨hm.entries, rfl⟩

/-! ## Every sequence of calls -/

/-- Whatever was drawn, the calls return, the entries are those configured, and the next call
returns and takes the version one higher. -/
def LosesNothing (configured : List α) (run : List (Random α) → Except Exception (Manager α β γ))
    (execute : Manager α β γ → Random α → Except Exception (Manager α β γ)) : Prop :=
  ∀ calls, ∃ m version, run calls = .ok m ∧
    (m.active.map entry.unpack ++ m.inactive).Perm configured ∧
      Text.parseNumber m.versionInfo = some version ∧
    ∀ random, ∃ t, execute m random = .ok t ∧ Text.parseNumber t.versionInfo = some (version + 1)

theorem losesNothing {execute : Manager α β γ → Random α → Except Exception (Manager α β γ)}
    {run : List (Random α) → Except Exception (Manager α β γ)} {start : Except Exception (Manager α β γ)}
    (hstart : Returns start (Holds entry configured 1))
    (hexecute : ∀ version m random, Holds entry configured version m →
      Returns (execute m random) (Holds entry configured (version + 1)))
    (hrun : ∀ calls, run calls = start >>= fun m => calls.foldlM execute m) :
    LosesNothing entry configured run execute := by
  intro calls
  have hcalls : Returns (run calls) (Holds entry configured (1 + calls.length)) := by
    rw [hrun]
    exact hstart.bind fun m hm => Returns.foldlM hexecute hm calls
  obtain ⟨m, hm, holds⟩ := hcalls
  refine ⟨m, 1 + calls.length, hm, holds.entries, ?_, fun random => ?_⟩
  · rw [holds.versionInfo, Text.parseNumber_decimal]
  · obtain ⟨t, ht, holdsNext⟩ := hexecute _ m random holds
    exact ⟨t, ht, by rw [holdsNext.versionInfo, Text.parseNumber_decimal]⟩

end

/-- Neither manager loses an entry or pops from an empty list. -/
theorem managers_lose_nothing (Any : Type) :
    (∀ (any : Packing Cluster Any) config random,
      LosesNothing (DynamicClusterConfigManager.entry any) (parseAvailableClusters config)
        (DynamicClusterConfigManager.run any config random) (DynamicClusterConfigManager.execute any)) ∧
    (∀ (pack : ClusterLoadAssignment → Any) config random,
      LosesNothing (DynamicEndpointsConfigManager.entry config.cluster.name pack)
        (parseAvailableEndpoints config.cluster.endpoints)
        (DynamicEndpointsConfigManager.run pack config random)
          (DynamicEndpointsConfigManager.execute pack config)) := by
  constructor
  · intro any config random
    apply losesNothing _ (create_spec _ random _ _) _ fun _ => rfl
    intro version m r hm
    exact executeWith_spec _ r hm
  · intro pack config random
    apply losesNothing _ (create_spec _ random _ _) _ fun _ => rfl
    intro version m r hm
    exact executeWith_spec _ r hm

end Nighthawk.DynamicConfig
