import Nighthawk.Lib.Positions
import Nighthawk.Sink.Interleaving

/-!
# What a load returns while responses are stored

A load misses no response that was stored before it began, returns none twice, and never meets a
file that is half written.
-/

namespace Nighthawk.Sink

open Results

variable {B : Type} {wire : Wire (List B)} {s t : Sinks B} {fs fs' : FileSystem (List B)}
    {stores : List StoreCall} {old : Set StoreCall}
  {executionId : Str} {c c' : StoreCall} {l l' : LoadCall}

/-- The call has stored its response under the key. -/
def Kept (stores : List StoreCall) (executionId : Str) (c : StoreCall) : Prop :=
  c ∈ stores ∧ c.Stored ∧ c.response.executionId = executionId

theorem StoreCall.step_eq {bytes : ℕ} (h : c.step wire fs bytes = some (c', fs')) :
    ¬c.Stored ∧ ∃ pc, c' = { c with pc } := by
  unfold StoreCall.Stored
  unfold StoreCall.step at h
  split at h
  · rename_i hpc
    refine ⟨by rw [hpc]; exact StorePc.noConfusion, ?_⟩
    split at h
    · cases h
      exact ⟨_, rfl⟩
    · cases h
      exact ⟨_, rfl⟩
  case h_6 => cases h
  all_goals
    rename_i hpc
    cases h
    exact ⟨by rw [hpc]; exact StorePc.noConfusion, _, rfl⟩

theorem moves_kept (h : Visible wire s.fs s.stores) (hmoves : SinkMoves wire s t)
    (hkept : Kept s.stores executionId c) : Kept t.stores executionId c := by
  refine ⟨?_, hkept.2⟩
  cases hmoves with
  | startStore hreference huuid hfresh hpc => exact List.mem_append_left _ hkept.1
  | store hi hstep =>
    obtain ⟨hopen, pc, rfl⟩ := StoreCall.step_eq hstep
    exact h.stored_mem_set hi hopen hkept.1 hkept.2.1
  | startLoad l => exact hkept.1
  | load hj hmoves => exact hkept.1

/-- The iteration has returned the files `seen`, which are those of distinct stores, and has yet to
return the others of `old`. -/
structure Listed (stores : List StoreCall) (executionId : Str) (old : Set StoreCall) (seen pending : List Str)
    (responses : List ExecutionResponse) : Prop where
  calls : ∃ calls : List StoreCall, (∀ c ∈ calls, Kept stores executionId c) ∧
    seen = calls.map (fileName ·.uuid) ∧ responses = calls.map StoreCall.response
  distinct : seen.Nodup
  awaits : ∀ name ∈ pending, name ∉ seen ∧ ∃ c, Kept stores executionId c ∧ name = fileName c.uuid
  covers : ∀ c ∈ old, fileName c.uuid ∈ pending ∨ fileName c.uuid ∈ seen

/-- What holds of a load that began when the stores `old` had stored under its key. -/
def LoadCall.Sound (stores : List StoreCall) (old : Set StoreCall) (l : LoadCall) : Prop :=
  match l.pc with
  | .validating | .opening => l.seen = []
  | .listing pending responses => Listed stores l.executionId old l.seen pending responses
  | .done (.ok responses) => Listed stores l.executionId old l.seen [] responses
  | .done (.error st) => st.code ≠ .internal ∧ (HasUuidShape l.executionId → ∀ c, c ∉ old)

theorem Listed.mono {stores' : List StoreCall} {seen pending : List Str}
    {responses : List ExecutionResponse} (h : Listed stores executionId old seen pending responses)
    (hkept : ∀ c, Kept stores executionId c → Kept stores' executionId c) :
    Listed stores' executionId old seen pending responses := by
  obtain ⟨calls, hcalls, hseen, hresponses⟩ := h.calls
  refine ⟨⟨calls, fun c hc => hkept c (hcalls c hc), hseen, hresponses⟩, h.distinct, ?_, h.covers⟩
  intro name hname
  obtain ⟨hnew, c, hc, rfl⟩ := h.awaits name hname
  exact ⟨hnew, c, hkept c hc, rfl⟩

theorem LoadCall.Sound.mono {stores' : List StoreCall} (h : l.Sound stores old)
    (hkept : ∀ c, Kept stores l.executionId c → Kept stores' l.executionId c) : l.Sound stores' old := by
  unfold LoadCall.Sound at h ⊢
  split at h
  · exact h
  · exact h
  · exact h.mono hkept
  · exact h.mono hkept
  · exact h

theorem Visible.kept_of_mem (h : Visible wire fs stores) {file : Str × List B}
    (hfile : file ∈ fs.files (directoryOf executionId)) :
    ∃ c, Kept stores executionId c ∧ file = c.file wire := by
  obtain ⟨c, hc, hstored, hpath, rfl⟩ := h.files _ file hfile
  exact ⟨c, ⟨hc, hstored, (directoryOf_injective hpath).symm⟩, rfl⟩

theorem Listed.start (h : Visible wire fs stores) (hold : ∀ c ∈ old, Kept stores executionId c) :
    Listed stores executionId old [] ((fs.files (directoryOf executionId)).map Prod.fst) [] := by
  refine ⟨⟨[], by simp, rfl, rfl⟩, List.nodup_nil, ?_, ?_⟩
  · intro name hname
    obtain ⟨file, hfile, rfl⟩ := List.mem_map.mp hname
    obtain ⟨c, hc, rfl⟩ := h.kept_of_mem hfile
    exact ⟨List.not_mem_nil, c, hc, rfl⟩
  · intro c hc
    obtain ⟨hmem, hstored, rfl⟩ := hold c hc
    exact Or.inl (List.mem_map_of_mem (h.stored c hmem hstored))

theorem Listed.read {seen pending : List Str} {responses : List ExecutionResponse}
    (h : Listed stores executionId old seen pending responses) (hc : Kept stores executionId c)
    (hnew : fileName c.uuid ∉ seen) :
    Listed stores executionId old (seen ++ [fileName c.uuid]) (pending.filter (· ≠ fileName c.uuid))
      (responses ++ [c.response]) := by
  obtain ⟨calls, hcalls, hseen, hresponses⟩ := h.calls
  refine ⟨⟨calls ++ [c], ?_, ?_, ?_⟩, ?_, ?_, ?_⟩
  · exact List.forall_mem_append.mpr ⟨hcalls, List.forall_mem_singleton.mpr hc⟩
  · rw [hseen, List.map_append]
    rfl
  · rw [hresponses, List.map_append]
    rfl
  · exact List.nodup_append.mpr ⟨h.distinct, List.nodup_singleton _, by
      rintro name hname name' hname' rfl
      exact hnew (List.mem_singleton.mp hname' ▸ hname)⟩
  · intro name hname
    obtain ⟨hname, hne⟩ := List.mem_filter.mp hname
    obtain ⟨hunseen, hcall⟩ := h.awaits name hname
    refine ⟨?_, hcall⟩
    rw [List.mem_append, List.mem_singleton, not_or]
    exact ⟨hunseen, of_decide_eq_true hne⟩
  · intro d hd
    by_cases hname : fileName d.uuid = fileName c.uuid
    · rw [hname]
      exact Or.inr (by simp)
    · rcases h.covers d hd with hpending | hseen
      · exact Or.inl (List.mem_filter.mpr ⟨hpending, decide_eq_true hname⟩)
      · exact Or.inr (List.mem_append_left _ hseen)

theorem loadMoves_sound (h : Visible wire fs stores) (hold : ∀ c ∈ old, Kept stores l.executionId c)
    (hreference : HasUuidShape l.reference) (hl : l.Sound stores old) (hmoves : LoadMoves wire fs l l') :
    l'.Sound stores old := by
  unfold LoadCall.Sound at hl
  cases hmoves with
  | @reject st hpc hkey =>
    refine ⟨?_, ?_⟩
    · rw [validateKey_error hkey]
      decide
    · intro hshape
      rw [(validateKey_eq_ok hreference).mpr hshape] at hkey
      cases hkey
  | accept hpc hkey =>
    rw [hpc] at hl
    exact hl
  | missing hpc hdirectory =>
    refine ⟨by decide, ?_⟩
    intro _ c hc
    obtain ⟨hmem, hstored, hkey⟩ := hold c hc
    have hhoused := h.housed c hmem (by rw [show c.pc = _ from hstored]; rfl)
    rw [hkey, hdirectory] at hhoused
    cases hhoused
  | list hpc =>
    rw [hpc] at hl
    have hstart := Listed.start h hold
    rw [← hl] at hstart
    exact hstart
  | garbled st hpc hfile hparse =>
    obtain ⟨c, -, heq⟩ := h.kept_of_mem hfile
    cases heq
    rw [wire.parse_serialize] at hparse
    cases hparse
  | @read pending responses name content response hpc hnew hfile hparse =>
    rw [hpc] at hl
    obtain ⟨c, hc, heq⟩ := h.kept_of_mem hfile
    cases heq
    rw [wire.parse_serialize] at hparse
    cases hparse
    exact hl.read hc hnew
  | finish hpc =>
    rw [hpc] at hl
    exact hl

/-- The load at position `j` looks for `executionId`, and the stores `old` were over when it began. -/
structure Loading (wire : Wire (List B)) (j : ℕ) (executionId : Str) (old : Set StoreCall)
    (s : Sinks B) : Prop where
  visible : Visible wire s.fs s.stores
  kept : ∀ c ∈ old, Kept s.stores executionId c
  sound : ∃ l, s.loads[j]? = some l ∧ l.executionId = executionId ∧ HasUuidShape l.reference ∧
    l.Sound s.stores old

theorem LoadMoves.same (h : LoadMoves wire fs l l') :
    l'.executionId = l.executionId ∧ l'.reference = l.reference := by
  cases h <;> exact ⟨rfl, rfl⟩

theorem moves_loading {j : ℕ} (h : Loading wire j executionId old s) (hmoves : SinkMoves wire s t) :
    Loading wire j executionId old t := by
  obtain ⟨l, hj, rfl, hreference, hsound⟩ := h.sound
  have hkept : ∀ c, Kept s.stores l.executionId c → Kept t.stores l.executionId c :=
    fun c => moves_kept h.visible hmoves
  refine ⟨moves_visible h.visible hmoves, fun c hc => hkept c (h.kept c hc), ?_⟩
  cases hmoves with
  | startStore | store => exact ⟨l, hj, rfl, hreference, hsound.mono hkept⟩
  | startLoad new =>
    refine ⟨l, ?_, rfl, hreference, hsound⟩
    exact List.getElem?_append_left (List.getElem?_eq_some_iff.mp hj).1 ▸ hj
  | @load j' l₀ l' hj' hmoves =>
    by_cases heq : j' = j
    · obtain rfl : l₀ = l := by
        rw [heq, hj] at hj'
        exact (Option.some.inj hj').symm
      refine ⟨l', ?_, hmoves.same.1, by rwa [hmoves.same.2],
        loadMoves_sound h.visible h.kept hreference hsound hmoves⟩
      rw [heq]
      exact Positions.getElem?_set hj l'
    · refine ⟨l, ?_, rfl, hreference, hsound⟩
      rwa [List.getElem?_set_ne heq]

theorem step_loading {j : ℕ} (s : Sinks B) (e : SinkEvent) (t : Sinks B)
    (h : Loading wire j executionId old s)
    (hstep : s.step wire e = some t) : Loading wire j executionId old t :=
  moves_loading h (step_moves hstep)

/-! ## A load can end -/

/-- The event is an operation of the load at position `j`. -/
def SinkEvent.ofLoad (j : ℕ) : SinkEvent → Prop
  | .load k | .read k _ | .finish k => k = j
  | _ => False

/-- The load at position `j` has returned. -/
def Sinks.Loaded (s : Sinks B) (j : ℕ) : Prop := ∃ l result, s.loads[j]? = some l ∧ l.pc = .done result

/-- Operations of the load alone make it return. -/
def Ends (wire : Wire (List B)) (j : ℕ) (s : Sinks B) : Prop :=
  ∃ es u, Runs.exec (Sinks.step wire) s es = some u ∧ (∀ e ∈ es, e.ofLoad j) ∧ u.Loaded j

theorem Ends.cons {j : ℕ} {e : SinkEvent} (hstep : s.step wire e = some t) (he : e.ofLoad j)
    (h : Ends wire j t) :
    Ends wire j s := by
  obtain ⟨es, u, hu, hes, hloaded⟩ := h
  exact ⟨e :: es, u, (Runs.exec_cons_eq_some _).mpr ⟨t, hstep, hu⟩,
    List.forall_mem_cons.mpr ⟨he, hes⟩, hloaded⟩

theorem exists_read {j : ℕ} {name : Str} {pending : List Str} {responses : List ExecutionResponse}
    (h : Visible wire s.fs s.stores) (hj : s.loads[j]? = some l)
    (hpc : l.pc = .listing (name :: pending) responses)
    (hl : l.Sound s.stores old) : ∃ response, s.step wire (.read j name) = some { s with
      loads := s.loads.set j { l with
        seen := l.seen ++ [name]
        pc := .listing ((name :: pending).filter (· ≠ name)) (responses ++ [response]) } } := by
  unfold LoadCall.Sound at hl
  rw [hpc] at hl
  obtain ⟨hnew, c, ⟨hmem, hstored, hkey⟩, rfl⟩ := hl.awaits name List.mem_cons_self
  have hfile := h.stored c hmem hstored
  rw [hkey] at hfile
  have hlookup : ((s.fs.directories (directoryOf l.executionId)).getD []).lookup (fileName c.uuid) =
      some (wire.serialize c.response) := Keyed.lookup_of_mem (h.names _) hfile
  refine ⟨c.response, ?_⟩
  show (s.loads[j]?.bind fun l => (l.read wire s.fs (fileName c.uuid)).map _) = _
  rw [hj, Option.bind_some, LoadCall.read, hpc]
  have hfresh : l.seen.contains (fileName c.uuid) = false := by simpa using hnew
  simp only [hfresh, Bool.false_eq_true, if_false, hlookup, Option.map_some, wire.parse_serialize]

theorem set_loaded {j : ℕ} (hj : s.loads[j]? = some l) {result : Except Status (List ExecutionResponse)}
    (hpc : l'.pc = .done result) : Ends wire j { s with loads := s.loads.set j l' } := by
  exact ⟨[], _, rfl, by simp, l', result, Positions.getElem?_set hj l', hpc⟩

theorem listing_ends {j : ℕ} (n : ℕ) (s : Sinks B) (h : Loading wire j executionId old s) {pending : List Str}
    {responses : List ExecutionResponse} (hj : s.loads[j]? = some l) (hpc : l.pc = .listing pending responses)
    (hn : pending.length ≤ n) : Ends wire j s := by
  -- Every file that is read leaves `pending`.
  induction n generalizing s l pending responses with
  | zero =>
    obtain rfl := List.length_eq_zero_iff.mp (Nat.le_zero.mp hn)
    have hstep : s.step wire (.finish j) =
        some { s with loads := s.loads.set j { l with pc := .done (.ok responses) } } := by
      show (s.loads[j]?.bind fun l => l.finish.map _) = _
      rw [hj, Option.bind_some, LoadCall.finish, hpc]
      rfl
    exact .cons hstep rfl (set_loaded hj rfl)
  | succ n ih =>
    cases pending with
    | nil => exact ih s h hj hpc (Nat.zero_le n)
    | cons name pending =>
      obtain ⟨l₀, hj₀, rfl, -, hsound⟩ := h.sound
      obtain rfl : l₀ = l := Option.some.inj (hj₀.symm.trans hj)
      obtain ⟨response, hstep⟩ := exists_read h.visible hj hpc hsound
      refine .cons hstep rfl (ih _ (step_loading _ _ _ h hstep) (Positions.getElem?_set hj _) rfl ?_)
      rw [List.filter_cons_of_neg (by simp)]
      exact (List.length_filter_le _ _).trans (Nat.le_of_succ_le_succ hn)

theorem step_load (wire : Wire (List B)) {j : ℕ} (hj : s.loads[j]? = some l) (h : l.step s.fs = some l') :
    s.step wire (.load j) = some { s with loads := s.loads.set j l' } := by
  show (s.loads[j]?.bind fun l => (l.step s.fs).map _) = _
  rw [hj, Option.bind_some, h]
  rfl

theorem opening_ends {j : ℕ} (h : Loading wire j executionId old s) (hj : s.loads[j]? = some l)
    (hpc : l.pc = .opening) :
    Ends wire j s := by
  have hstep := step_load wire hj (by rw [LoadCall.step, hpc])
  cases hdirectory : s.fs.directories (directoryOf l.executionId) with
  | none =>
    rw [hdirectory] at hstep
    exact .cons hstep rfl (set_loaded hj rfl)
  | some files =>
    rw [hdirectory] at hstep
    exact .cons hstep rfl
      (listing_ends _ _ (step_loading _ _ _ h hstep) (Positions.getElem?_set hj _) rfl le_rfl)

theorem loading_ends {j : ℕ} (h : Loading wire j executionId old s) : Ends wire j s := by
  obtain ⟨l, hj, -, -, -⟩ := h.sound
  cases hpc : l.pc with
  | validating =>
    have hstep := step_load wire hj (by rw [LoadCall.step, hpc])
    cases hkey : validateKey l.reference l.executionId true with
    | error st =>
      rw [hkey] at hstep
      exact .cons hstep rfl (set_loaded hj rfl)
    | ok u =>
      rw [hkey] at hstep
      exact .cons hstep rfl (opening_ends (step_loading _ _ _ h hstep) (Positions.getElem?_set hj _) rfl)
  | opening => exact opening_ends h hj hpc
  | listing pending responses => exact listing_ends _ s h hj hpc le_rfl
  | done result => exact ⟨[], s, rfl, by simp, l, result, hj, hpc⟩

/-! ## Every load -/

theorem run_visible {es : List SinkEvent} (h : Runs.exec (Sinks.step wire) ({} : Sinks B) es = some s) :
    Visible wire s.fs s.stores :=
  @Runs.exec_inv _ _ _ (fun s => Visible wire s.fs s.stores)
    (fun _ _ _ hs hstep => moves_visible hs (step_moves hstep)) _ _ _
    visible_init h

theorem loading_start {es : List SinkEvent} {reference : Str}
    (hs : Runs.exec (Sinks.step wire) {} es = some s)
    {fs : List SinkEvent}
    (ht : Runs.exec (Sinks.step wire) s (.startLoad executionId reference :: fs) = some t) :
    Loading wire s.loads.length executionId (Kept s.stores executionId) t := by
  obtain ⟨u, hu, ht⟩ := (Runs.exec_cons_eq_some _).mp ht
  obtain ⟨hreference, heq⟩ := Option.ite_none_right_eq_some.mp hu
  have hvisible := run_visible hs
  have hstart : Loading wire s.loads.length executionId (Kept s.stores executionId) u := by
    cases heq
    refine ⟨hvisible, fun c hc => hc, { executionId, reference }, ?_, rfl, hreference, rfl⟩
    simp
  exact Runs.exec_inv step_loading hstart ht

/-- What a load has returned: the responses of distinct stores, among them all of `old`. -/
def Returned (stores : List StoreCall) (executionId : Str) (old : Set StoreCall)
    (responses : List ExecutionResponse) :
    Prop :=
  ∃ calls : List StoreCall, responses = calls.map StoreCall.response ∧ (calls.map StoreCall.uuid).Nodup ∧
    (∀ c ∈ calls, Kept stores executionId c) ∧ ∀ c ∈ old, c ∈ calls

theorem Loading.returned {j : ℕ} (h : Loading wire j executionId old s) (hj : s.loads[j]? = some l)
    {responses : List ExecutionResponse} (hpc : l.pc = .done (.ok responses)) :
    Returned s.stores executionId old responses := by
  obtain ⟨l', hj', rfl, -, hsound⟩ := h.sound
  obtain rfl : l' = l := Option.some.inj (hj'.symm.trans hj)
  unfold LoadCall.Sound at hsound
  rw [hpc] at hsound
  obtain ⟨calls, hcalls, hseen, hresponses⟩ := hsound.calls
  have hdistinct := hsound.distinct
  rw [hseen] at hdistinct
  refine ⟨calls, hresponses, List.Nodup.of_map fileName (by rwa [List.map_map]), hcalls, ?_⟩
  intro c hc
  have hname := (hsound.covers c hc).resolve_left List.not_mem_nil
  rw [hseen] at hname
  obtain ⟨d, hd, hname⟩ := List.mem_map.mp hname
  rw [← h.visible.eq_of_uuid (h.kept c hc).1 (hcalls d hd).1 (fileName_injective hname)]
  exact hd

/-- Whatever the other calls do, a load returns the responses of distinct stores under its key, and
among them all that were over when it began. Its errors are a bad key and a missing directory. From
any point on it can return. -/
theorem load_sees_stored (wire : Wire (List B)) {es fs : List SinkEvent} {s t : Sinks B}
    {executionId reference : Str}
    (hs : Runs.exec (Sinks.step wire) {} es = some s)
    (ht : Runs.exec (Sinks.step wire) s (.startLoad executionId reference :: fs) = some t) :
    ∃ l, t.loads[s.loads.length]? = some l ∧ Ends wire s.loads.length t ∧
      (∀ responses, l.pc = .done (.ok responses) →
        Returned t.stores executionId (Kept s.stores executionId) responses) ∧
      ∀ st, l.pc = .done (.error st) →
        st.code ≠ .internal ∧ (HasUuidShape executionId → ∀ c, ¬Kept s.stores executionId c) := by
  have h := loading_start hs ht
  obtain ⟨l, hj, rfl, -, hsound⟩ := h.sound
  refine ⟨l, hj, loading_ends h, fun responses => h.returned hj, ?_⟩
  intro st hpc
  unfold LoadCall.Sound at hsound
  rw [hpc] at hsound
  exact hsound

/-- A file holds a response as one byte. -/
def unitWire : Wire (List ExecutionResponse) where
  serialize r := [r]
  parse bytes := bytes.head?
  parse_serialize _ := rfl

def emptyResponse : ExecutionResponse := { executionId := secondUuid }

def storeOne : List SinkEvent :=
  .startStore emptyResponse firstUuid firstUuid :: List.replicate 5 (.store 0 1)

/-- The load reads while another store has opened its file. -/
def loadOne : List SinkEvent :=
  [.load 0, .startStore emptyResponse firstUuid secondUuid, .store 1 1, .load 0, .store 1 1, .store 1 1,
    .read 0 (fileName firstUuid), .finish 0]

theorem load_sees_stored_one :
    ∃ s t l, Runs.exec (Sinks.step unitWire) {} storeOne = some s ∧
      Runs.exec (Sinks.step unitWire) s (.startLoad secondUuid firstUuid :: loadOne) = some t ∧
      t.loads[s.loads.length]? = some l ∧ l.pc = .done (.ok [emptyResponse]) ∧
      Returned t.stores secondUuid (Kept s.stores secondUuid) [emptyResponse] := by
  have hrun : ∃ s t l, Runs.exec (Sinks.step unitWire) {} storeOne = some s ∧
      Runs.exec (Sinks.step unitWire) s (.startLoad secondUuid firstUuid :: loadOne) = some t ∧
      t.loads[s.loads.length]? = some l ∧ l.pc = .done (.ok [emptyResponse]) := ⟨_, _, _, rfl, rfl, rfl, rfl⟩
  obtain ⟨s, t, l, hs, ht, hl, hpc⟩ := hrun
  obtain ⟨l', hl', -, hok, -⟩ := load_sees_stored unitWire hs ht
  obtain rfl : l' = l := Option.some.inj (hl'.symm.trans hl)
  exact ⟨s, t, l', hs, ht, hl, hpc, hok [emptyResponse] hpc⟩

end Nighthawk.Sink
