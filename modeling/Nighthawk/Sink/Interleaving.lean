import Nighthawk.Lib.Keyed
import Nighthawk.Lib.Runs
import Nighthawk.Sink.Agreement

/-!
# Calls of the file sink that overlap

The threads of the sink service share the file system. A store writes its response to a temporary
file, chunk by chunk, and then renames the file into the directory of its key. A load goes through
that directory meanwhile. A step is one operation of one call on the file system.
-/

namespace Nighthawk.Sink

open Results

/-- Where a `StoreExecutionResultPiece` is. -/
inductive StorePc where
  | validating
  | creating
  | opening
  /-- So many bytes are in the temporary file. -/
  | writing (written : ℕ)
  | swapping
  | done (result : Except Status Unit)

/-- `reference` and `uuid` are drawn during the call. -/
structure StoreCall where
  response : ExecutionResponse
  reference : Str
  uuid : Str
  pc : StorePc := .validating

/-- Where a `LoadExecutionResult` is. `pending` are the files that the iteration has yet to return
because they were there when it began. -/
inductive LoadPc where
  | validating
  | opening
  | listing (pending : List Str) (responses : List ExecutionResponse)
  | done (result : Except Status (List ExecutionResponse))

/-- `seen` are the names that the iteration has returned. -/
structure LoadCall where
  executionId : Str
  reference : Str
  seen : List Str := []
  pc : LoadPc := .validating

variable {B : Type}

structure Sinks (B : Type) where
  fs : FileSystem (List B) := {}
  stores : List StoreCall := []
  loads : List LoadCall := []

/-- The next operation of a store. A write adds `bytes` bytes, and the last one closes the file. -/
def StoreCall.step (wire : Wire (List B)) (fs : FileSystem (List B)) (c : StoreCall) (bytes : ℕ) :
    Option (StoreCall × FileSystem (List B)) :=
  let directory := directoryOf c.response.executionId
  let path := temporaryPath c.uuid
  let content := wire.serialize c.response
  match c.pc with
  | .validating =>
    some (match validateKey c.reference c.response.executionId true with
      | .error s => ({ c with pc := .done (.error s) }, fs)
      | .ok () => ({ c with pc := .creating }, fs))
  | .creating => some ({ c with pc := .opening }, fs.createDirectories directory)
  | .opening => some ({ c with pc := .writing 0 }, fs.write path [])
  | .writing written =>
    let written := written + bytes
    some ({ c with pc := if written < content.length then .writing written else .swapping },
      fs.write path (content.take written))
  | .swapping => some ({ c with pc := .done (.ok ()) }, fs.rename path directory (filename path))
  | .done _ => none

/-- The next operation of a load, up to the iteration. -/
def LoadCall.step (fs : FileSystem (List B)) (l : LoadCall) : Option LoadCall :=
  match l.pc with
  | .validating =>
    some (match validateKey l.reference l.executionId true with
      | .error s => { l with pc := .done (.error s) }
      | .ok () => { l with pc := .opening })
  | .opening =>
    some (match fs.directories (directoryOf l.executionId) with
      | none => { l with pc := .done (.error ⟨.notFound, "No such file or directory".toList⟩) }
      | some files => { l with pc := .listing (files.map Prod.fst) [] })
  | _ => none

/-- The iteration returns a file that it has not returned yet, and the file is read. -/
def LoadCall.read (wire : Wire (List B)) (fs : FileSystem (List B)) (l : LoadCall) (name : Str) :
    Option LoadCall :=
  match l.pc with
  | .listing pending responses =>
    if l.seen.contains name then none
    else
      (((fs.directories (directoryOf l.executionId)).getD []).lookup name).map fun content =>
        match wire.parse content with
        | none =>
          { l with
            seen := l.seen ++ [name]
            pc := .done (.error ⟨.internal,
              "Failed to parse ExecutionResponse '".toList ++ directoryOf l.executionId ++ name ++
              "'.".toList⟩) }
        | some response =>
          { l with
            seen := l.seen ++ [name]
            pc := .listing (pending.filter (· ≠ name)) (responses ++ [response]) }
  | _ => none

/-- The iteration ends when it has returned all that was there when it began. -/
def LoadCall.finish (l : LoadCall) : Option LoadCall :=
  match l.pc with
  | .listing [] responses => some { l with pc := .done (.ok responses) }
  | _ => none

inductive SinkEvent where
  | startStore (response : ExecutionResponse) (reference uuid : Str)
  | store (i : ℕ) (bytes : ℕ)
  | startLoad (executionId reference : Str)
  | load (j : ℕ)
  | read (j : ℕ) (name : Str)
  | finish (j : ℕ)

/-- A step is `none` when it cannot happen. The uuids that are drawn are fresh. -/
def Sinks.step (wire : Wire (List B)) (s : Sinks B) : SinkEvent → Option (Sinks B)
  | .startStore response reference uuid =>
    if HasUuidShape reference ∧ HasUuidShape uuid ∧ ∀ c ∈ s.stores, c.uuid ≠ uuid then
      some { s with stores := s.stores ++ [{ response, reference, uuid }] }
    else none
  | .store i bytes =>
    s.stores[i]?.bind fun c => (c.step wire s.fs bytes).map fun (c, fs) =>
      { s with fs, stores := s.stores.set i c }
  | .startLoad executionId reference =>
    if HasUuidShape reference then some { s with loads := s.loads ++ [{ executionId, reference }] } else none
  | .load j => s.loads[j]?.bind fun l => (l.step s.fs).map fun l => { s with loads := s.loads.set j l }
  | .read j name => s.loads[j]?.bind fun l => (l.read wire s.fs name).map fun l =>
      { s with loads := s.loads.set j l }
  | .finish j => s.loads[j]?.bind fun l => l.finish.map fun l => { s with loads := s.loads.set j l }

/-! ## The files -/

/-- The call has returned ok. -/
def StoreCall.Stored (c : StoreCall) : Prop := c.pc = .done (.ok ())

/-- The key of the call was accepted. -/
def StorePc.accepted : StorePc → Bool
  | .validating | .done (.error _) => false
  | _ => true

/-- The call's directory is there. -/
def StorePc.housed : StorePc → Bool
  | .opening | .writing _ | .swapping | .done (.ok _) => true
  | _ => false

/-- What the call has in its temporary file. -/
def StoreCall.Written (wire : Wire (List B)) (fs : FileSystem (List B)) (c : StoreCall) : Prop :=
  match c.pc with
  | .writing written => fs.temporary.lookup (temporaryPath c.uuid) =
      some ((wire.serialize c.response).take written)
  | .swapping => fs.temporary.lookup (temporaryPath c.uuid) = some (wire.serialize c.response)
  | _ => True

/-- The files of a directory, none when it is not there. -/
def FileSystem.files (fs : FileSystem (List B)) (path : Str) : List (Str × List B) :=
  (fs.directories path).getD []

/-- What the stores that are under way rely on. -/
structure Calls (wire : Wire (List B)) (fs : FileSystem (List B)) (stores : List StoreCall) : Prop where
  fresh : (stores.map StoreCall.uuid).Nodup
  shape : ∀ c ∈ stores, HasUuidShape c.reference ∧ HasUuidShape c.uuid
  key : ∀ c ∈ stores, c.pc.accepted = true → HasUuidShape c.response.executionId
  housed : ∀ c ∈ stores, c.pc.housed = true →
    (fs.directories (directoryOf c.response.executionId)).isSome = true
  written : ∀ c ∈ stores, c.Written wire fs

/-- The file that a store leaves in the directory of its key. -/
def StoreCall.file (wire : Wire (List B)) (c : StoreCall) : Str × List B :=
  (fileName c.uuid, wire.serialize c.response)

/-- The files of the directories are those of the stores that have returned, and they are complete. -/
structure Visible (wire : Wire (List B)) (fs : FileSystem (List B)) (stores : List StoreCall) : Prop
    extends Calls wire fs stores where
  names : ∀ path, ((fs.files path).map Prod.fst).Nodup
  files : ∀ path, ∀ file ∈ fs.files path, ∃ c ∈ stores,
    c.Stored ∧ path = directoryOf c.response.executionId ∧ file = c.file wire
  stored : ∀ c ∈ stores, c.Stored → c.file wire ∈ fs.files (directoryOf c.response.executionId)

variable {wire : Wire (List B)} {s t : Sinks B} {fs fs' : FileSystem (List B)}
    {stores : List StoreCall} {i : ℕ}
  {c c' : StoreCall}

theorem temporaryPath_injective {uuid uuid' : Str} (h : temporaryPath uuid = temporaryPath uuid') :
    uuid = uuid' :=
  List.append_cancel_left h

theorem fileName_injective {uuid uuid' : Str} (h : fileName uuid = fileName uuid') : uuid = uuid' :=
  List.append_cancel_left h

theorem lookup_write (fs : FileSystem (List B)) (path : Str) (content : List B) :
    (fs.write path content).temporary.lookup path = some content :=
  List.lookup_cons_self

theorem lookup_write_of_ne (fs : FileSystem (List B)) {path path' : Str} (content : List B)
    (h : path' ≠ path) :
    (fs.write path content).temporary.lookup path' = fs.temporary.lookup path' := by
  show ((path, content) :: fs.temporary.filter fun file => file.1 ≠ path).lookup path' = _
  rw [List.lookup_cons, beq_false_of_ne h]
  exact Keyed.lookup_filter_ne fs.temporary h

theorem files_update (directories : Str → Option (List (Str × List B)))
    (temporary : List (Str × List B)) (path : Str)
    (files : List (Str × List B)) :
    FileSystem.files ⟨Function.update directories path (some files), temporary⟩ =
      Function.update (FileSystem.files ⟨directories, temporary⟩) path files := by
  funext path'
  unfold FileSystem.files
  by_cases hpath : path' = path
  · simp only [hpath, Function.update_self, Option.getD_some]
  · simp only [Function.update_of_ne hpath]

theorem isSome_update {directories : Str → Option (List (Str × List B))} (path : Str) {path' : Str}
    (files : List (Str × List B)) (h : (directories path').isSome = true) :
    (Function.update directories path (some files) path').isSome = true := by
  by_cases hpath : path' = path
  · rw [hpath, Function.update_self]
    rfl
  · rwa [Function.update_of_ne hpath]

theorem isSome_createDirectories (fs : FileSystem (List B)) (path : Str) :
    ((fs.createDirectories path).directories path).isSome = true := by
  show Option.isSome (Function.update fs.directories path _ path) = true
  rw [Function.update_self]
  rfl

theorem files_createDirectories (fs : FileSystem (List B)) (path : Str) :
    (fs.createDirectories path).files = fs.files :=
  (files_update _ _ _ _).trans (Function.update_eq_self path fs.files)

theorem rename_eq {path directory : Str} {content : List B} (name : Str)
    (hfile : fs.temporary.lookup path = some content)
    (hdirectory : (fs.directories directory).isSome = true) :
    fs.rename path directory name =
      { directories := Function.update fs.directories directory
          (some (((fs.files directory).filter fun file => file.1 ≠ name) ++ [(name, content)]))
        temporary := fs.temporary.filter fun file => file.1 ≠ path } := by
  obtain ⟨files, hfiles⟩ := Option.isSome_iff_exists.mp hdirectory
  unfold FileSystem.rename FileSystem.files
  rw [hfile, hfiles]
  rfl

theorem StoreCall.Written.congr (h : c.Written wire fs)
    (hlookup : fs'.temporary.lookup (temporaryPath c.uuid) = fs.temporary.lookup (temporaryPath c.uuid)) :
    c.Written wire fs' := by
  unfold StoreCall.Written at h ⊢
  rw [hlookup]
  exact h

theorem Calls.eq_of_uuid (h : Calls wire fs stores) (hc : c ∈ stores) (hc' : c' ∈ stores)
    (huuid : c'.uuid = c.uuid) :
    c' = c :=
  List.inj_on_of_nodup_map h.fresh hc' hc huuid

section

variable {pc : StorePc}

theorem Calls.mem_set (h : Calls wire fs stores) (hi : stores[i]? = some c) (d : StoreCall) :
    d ∈ stores.set i { c with pc } ↔ d = { c with pc } ∨ (d ∈ stores ∧ d.uuid ≠ c.uuid) :=
  Keyed.mem_set_iff StoreCall.uuid h.fresh hi

/-- A store goes on. It touches no temporary file but its own and removes no directory. -/
theorem Calls.advance (h : Calls wire fs stores) (hi : stores[i]? = some c)
    (hdirectories : ∀ path, (fs.directories path).isSome = true → (fs'.directories path).isSome = true)
    (hlookup : ∀ path, path ≠ temporaryPath c.uuid → fs'.temporary.lookup path = fs.temporary.lookup path)
    (hkey : pc.accepted = true → HasUuidShape c.response.executionId)
    (hhoused : pc.housed = true → (fs'.directories (directoryOf c.response.executionId)).isSome = true)
    (hwritten : ({ c with pc } : StoreCall).Written wire fs') :
    Calls wire fs' (stores.set i { c with pc }) := by
  have hc := List.mem_of_getElem? hi
  constructor
  case fresh =>
    rw [Keyed.map_set_eq (b := { c with pc }) StoreCall.uuid hi rfl]
    exact h.fresh
  case shape =>
    intro d hd
    rcases (h.mem_set hi d).mp hd with rfl | ⟨hd, -⟩
    · exact h.shape c hc
    · exact h.shape d hd
  case key =>
    intro d hd
    rcases (h.mem_set hi d).mp hd with rfl | ⟨hd, -⟩
    · exact hkey
    · exact h.key d hd
  case housed =>
    intro d hd hpc
    rcases (h.mem_set hi d).mp hd with rfl | ⟨hd, -⟩
    · exact hhoused hpc
    · exact hdirectories _ (h.housed d hd hpc)
  case written =>
    intro d hd
    rcases (h.mem_set hi d).mp hd with rfl | ⟨hd, hne⟩
    · exact hwritten
    · exact (h.written d hd).congr (hlookup _ fun heq => hne (temporaryPath_injective heq))

theorem Calls.stored_mem_set (h : Calls wire fs stores) (hi : stores[i]? = some c) (hopen : ¬c.Stored)
    {d : StoreCall}
    (hd : d ∈ stores) (hstored : d.Stored) : d ∈ stores.set i { c with pc } := by
  refine (h.mem_set hi d).mpr (Or.inr ⟨hd, fun huuid => hopen ?_⟩)
  rw [← h.eq_of_uuid (List.mem_of_getElem? hi) hd huuid]
  exact hstored

theorem Visible.advance (h : Visible wire fs stores) (hcalls : Calls wire fs' (stores.set i { c with pc }))
    (hi : stores[i]? = some c) (hfiles : fs'.files = fs.files) (hopen : ¬c.Stored)
    (hopen' : pc ≠ .done (.ok ())) :
    Visible wire fs' (stores.set i { c with pc }) := by
  refine ⟨hcalls, ?_, ?_, ?_⟩
  · rw [hfiles]
    exact h.names
  · intro path file hfile
    rw [hfiles] at hfile
    obtain ⟨d, hd, hstored, heq⟩ := h.files path file hfile
    exact ⟨d, h.stored_mem_set hi hopen hd hstored, hstored, heq⟩
  · intro d hd hstored
    rw [hfiles]
    rcases (h.mem_set hi d).mp hd with rfl | ⟨hd, -⟩
    · exact absurd hstored hopen'
    · exact h.stored d hd hstored

end

/-- Nobody else has a file of the name that the call is about to give. -/
theorem Visible.name_ne (h : Visible wire fs stores) (hc : c ∈ stores) (hopen : ¬c.Stored) {path : Str}
    {file : Str × List B} (hfile : file ∈ fs.files path) : file.1 ≠ fileName c.uuid := by
  obtain ⟨d, hd, hstored, -, rfl⟩ := h.files path file hfile
  intro hname
  rw [h.eq_of_uuid hc hd (fileName_injective hname)] at hstored
  exact hopen hstored

theorem Visible.appear (h : Visible wire fs stores)
    (hcalls : Calls wire fs' (stores.set i { c with pc := .done (.ok ()) }))
    (hi : stores[i]? = some c) (hopen : ¬c.Stored)
    (hfiles : fs'.files = Function.update fs.files (directoryOf c.response.executionId)
      (fs.files (directoryOf c.response.executionId) ++ [c.file wire])) :
    Visible wire fs' (stores.set i { c with pc := .done (.ok ()) }) := by
  have hc := List.mem_of_getElem? hi
  have hmem : ∀ path file, file ∈ fs'.files path ↔
      file ∈ fs.files path ∨ (path = directoryOf c.response.executionId ∧ file = c.file wire) := by
    intro path file
    rw [hfiles]
    by_cases hpath : path = directoryOf c.response.executionId
    · rw [hpath, Function.update_self, List.mem_append, List.mem_singleton, and_iff_right rfl]
    · rw [Function.update_of_ne hpath, or_iff_left fun hnew => hpath hnew.1]
  refine ⟨hcalls, ?_, ?_, ?_⟩
  · intro path
    rw [hfiles]
    by_cases hpath : path = directoryOf c.response.executionId
    · rw [hpath, Function.update_self, List.map_append, List.nodup_append]
      refine ⟨h.names _, List.nodup_singleton _, ?_⟩
      intro name hname name' hname' heq
      obtain ⟨file, hfile, rfl⟩ := List.mem_map.mp hname
      exact h.name_ne hc hopen hfile (heq.trans (List.mem_singleton.mp hname'))
    · rw [Function.update_of_ne hpath]
      exact h.names path
  · intro path file hfile
    rcases (hmem path file).mp hfile with hfile | ⟨hpath, rfl⟩
    · obtain ⟨d, hd, hstored, heq⟩ := h.files path file hfile
      exact ⟨d, h.stored_mem_set hi hopen hd hstored, hstored, heq⟩
    · exact ⟨_, (h.mem_set hi _).mpr (Or.inl rfl), rfl, hpath, rfl⟩
  · intro d hd hstored
    rcases (h.mem_set hi d).mp hd with rfl | ⟨hd, -⟩
    · exact (hmem _ _).mpr (Or.inr ⟨rfl, rfl⟩)
    · exact (hmem _ _).mpr (Or.inl (h.stored d hd hstored))

theorem Visible.rename (h : Visible wire fs stores) (hi : stores[i]? = some c) (hpc : c.pc = .swapping) :
    Visible wire
      (fs.rename (temporaryPath c.uuid) (directoryOf c.response.executionId)
        (filename (temporaryPath c.uuid)))
      (stores.set i { c with pc := .done (.ok ()) }) := by
  have hc := List.mem_of_getElem? hi
  have hopen : ¬c.Stored := by
    unfold StoreCall.Stored
    rw [hpc]
    exact StorePc.noConfusion
  have hhoused := h.housed c hc (by rw [hpc]; rfl)
  have hfile : fs.temporary.lookup (temporaryPath c.uuid) = some (wire.serialize c.response) := by
    have hwritten := h.written c hc
    unfold StoreCall.Written at hwritten
    rwa [hpc] at hwritten
  have hnew : (fs.files (directoryOf c.response.executionId)).filter (fun file => file.1 ≠ fileName c.uuid) =
      fs.files (directoryOf c.response.executionId) :=
    List.filter_eq_self.mpr fun file hfile => decide_eq_true (h.name_ne hc hopen hfile)
  rw [filename_temporaryPath (h.shape c hc).2, rename_eq _ hfile hhoused, hnew]
  refine h.appear ?_ hi hopen (files_update _ _ _ _)
  exact h.toCalls.advance hi (fun path => isSome_update _ _)
    (fun path hpath => Keyed.lookup_filter_ne _ hpath)
    (fun _ => h.key c hc (by rw [hpc]; rfl)) (fun _ => isSome_update _ _ hhoused) trivial

theorem Visible.stays (h : Visible wire fs stores) (hi : stores[i]? = some c) (hopen : ¬c.Stored)
    {pc : StorePc}
    (hkey : pc.accepted = true → HasUuidShape c.response.executionId) (hhoused : pc.housed = false)
    (hwritten : ({ c with pc } : StoreCall).Written wire fs) :
    Visible wire fs (stores.set i { c with pc }) := by
  refine h.advance ?_ hi rfl hopen ?_
  · refine h.toCalls.advance hi (fun _ => id) (fun _ _ => rfl) hkey ?_ hwritten
    rw [hhoused]
    exact fun hfalse => by cases hfalse
  · rintro rfl
    cases hhoused

theorem Visible.writes (h : Visible wire fs stores) (hi : stores[i]? = some c) (hopen : ¬c.Stored)
    (hkey : c.pc.accepted = true) (hhoused : c.pc.housed = true) {pc : StorePc} {content : List B}
    (hopen' : pc ≠ .done (.ok ()))
    (hwritten : ({ c with pc } : StoreCall).Written wire (fs.write (temporaryPath c.uuid) content)) :
    Visible wire (fs.write (temporaryPath c.uuid) content) (stores.set i { c with pc }) := by
  have hc := List.mem_of_getElem? hi
  refine h.advance ?_ hi rfl hopen hopen'
  exact h.toCalls.advance hi (fun _ => id) (fun _ hpath => lookup_write_of_ne fs content hpath)
    (fun _ => h.key c hc hkey) (fun _ => h.housed c hc hhoused) hwritten

theorem visible_store {bytes : ℕ} (h : Visible wire fs stores) (hi : stores[i]? = some c)
    (hstep : c.step wire fs bytes = some (c', fs')) : Visible wire fs' (stores.set i c') := by
  have hc := List.mem_of_getElem? hi
  have hopen : ¬c.Stored := by
    intro hstored
    unfold StoreCall.step at hstep
    rw [show c.pc = _ from hstored] at hstep
    cases hstep
  unfold StoreCall.step at hstep
  cases hpc : c.pc with
  | validating =>
    rw [hpc] at hstep
    cases hvalid : validateKey c.reference c.response.executionId true with
    | error st =>
      rw [hvalid] at hstep
      cases hstep
      exact h.stays hi hopen (fun hfalse => by cases hfalse) rfl trivial
    | ok u =>
      rw [hvalid] at hstep
      cases hstep
      exact h.stays hi hopen (fun _ => (validateKey_eq_ok (h.shape c hc).1).mp hvalid) rfl trivial
  | creating =>
    rw [hpc] at hstep
    cases hstep
    refine h.advance ?_ hi (files_createDirectories fs _) hopen StorePc.noConfusion
    refine h.toCalls.advance hi (fun path => isSome_update _ _) (fun _ _ => rfl)
      (fun _ => h.key c hc (by rw [hpc]; rfl)) ?_
      trivial
    exact fun _ => isSome_createDirectories fs _
  | opening =>
    rw [hpc] at hstep
    cases hstep
    refine h.writes hi hopen (by rw [hpc]; rfl) (by rw [hpc]; rfl) StorePc.noConfusion ?_
    exact lookup_write fs _ []
  | writing written =>
    rw [hpc] at hstep
    cases hstep
    refine h.writes hi hopen (by rw [hpc]; rfl) (by rw [hpc]; rfl) ?_ ?_
    · split_ifs <;> exact StorePc.noConfusion
    · unfold StoreCall.Written
      rw [lookup_write]
      split_ifs with hlt
      · rfl
      · exact congrArg some (List.take_of_length_le (not_lt.mp hlt))
  | swapping =>
    rw [hpc] at hstep
    cases hstep
    exact h.rename hi hpc
  | done result =>
    rw [hpc] at hstep
    cases hstep

theorem Visible.start (h : Visible wire fs stores) (hreference : HasUuidShape c.reference)
    (huuid : HasUuidShape c.uuid)
    (hfresh : ∀ d ∈ stores, d.uuid ≠ c.uuid) (hpc : c.pc = .validating) :
    Visible wire fs (stores ++ [c]) := by
  have hsnoc : ∀ {P : StoreCall → Prop}, (∀ d ∈ stores, P d) → P c → ∀ d ∈ stores ++ [c], P d :=
    fun hstores hc => List.forall_mem_append.mpr ⟨hstores, List.forall_mem_singleton.mpr hc⟩
  have hopen : ¬c.Stored := by
    unfold StoreCall.Stored
    rw [hpc]
    exact StorePc.noConfusion
  refine ⟨⟨?_, ?_, ?_, ?_, ?_⟩, h.names, ?_, ?_⟩
  · rw [List.map_append, List.nodup_append]
    refine ⟨h.fresh, List.nodup_singleton _, ?_⟩
    intro other hother new hnew heq
    obtain ⟨d, hd, rfl⟩ := List.mem_map.mp hother
    exact hfresh d hd (heq.trans (List.mem_singleton.mp hnew))
  · exact hsnoc h.shape ⟨hreference, huuid⟩
  · refine hsnoc h.key ?_
    rw [hpc]
    exact fun hfalse => by cases hfalse
  · refine hsnoc h.housed ?_
    rw [hpc]
    exact fun hfalse => by cases hfalse
  · refine hsnoc h.written ?_
    unfold StoreCall.Written
    rw [hpc]
    trivial
  · intro path file hfile
    obtain ⟨d, hd, hrest⟩ := h.files path file hfile
    exact ⟨d, List.mem_append_left _ hd, hrest⟩
  · exact hsnoc h.stored fun hstored => absurd hstored hopen

/-- What a load does in one operation. -/
inductive LoadMoves (wire : Wire (List B)) (fs : FileSystem (List B)) (l : LoadCall) : LoadCall → Prop
  | reject {st : Status} (hpc : l.pc = .validating)
    (hkey : validateKey l.reference l.executionId true = .error st) :
    LoadMoves wire fs l { l with pc := .done (.error st) }
  | accept (hpc : l.pc = .validating) (hkey : validateKey l.reference l.executionId true = .ok ()) :
    LoadMoves wire fs l { l with pc := .opening }
  | missing (hpc : l.pc = .opening) (hdirectory : fs.directories (directoryOf l.executionId) = none) :
    LoadMoves wire fs l { l with pc := .done (.error ⟨.notFound, "No such file or directory".toList⟩) }
  | list (hpc : l.pc = .opening) :
    LoadMoves wire fs l { l with pc := .listing ((fs.files (directoryOf l.executionId)).map Prod.fst) [] }
  | garbled {pending : List Str} {responses : List ExecutionResponse} {name : Str}
    {content : List B} (st : Status)
    (hpc : l.pc = .listing pending responses) (hfile : (name, content) ∈ fs.files (directoryOf l.executionId))
    (hparse : wire.parse content = none) :
    LoadMoves wire fs l { l with seen := l.seen ++ [name], pc := .done (.error st) }
  | read {pending : List Str} {responses : List ExecutionResponse} {name : Str} {content : List B}
    {response : ExecutionResponse} (hpc : l.pc = .listing pending responses) (hnew : name ∉ l.seen)
    (hfile : (name, content) ∈ fs.files (directoryOf l.executionId))
    (hparse : wire.parse content = some response) :
    LoadMoves wire fs l { l with
      seen := l.seen ++ [name], pc := .listing (pending.filter (· ≠ name)) (responses ++ [response]) }
  | finish {responses : List ExecutionResponse} (hpc : l.pc = .listing [] responses) :
    LoadMoves wire fs l { l with pc := .done (.ok responses) }

variable {l l' : LoadCall}

theorem loadMoves_step (h : l.step fs = some l') : LoadMoves wire fs l l' := by
  unfold LoadCall.step at h
  split at h
  · rename_i hpc
    split at h
    · cases h
      exact .reject hpc ‹_›
    · cases h
      exact .accept hpc ‹_›
  · rename_i hpc
    split at h
    · cases h
      exact .missing hpc ‹_›
    · rename_i files hfiles
      cases h
      have hlist : LoadMoves wire fs l _ := .list hpc
      rwa [FileSystem.files, hfiles] at hlist
  · cases h

theorem loadMoves_read {name : Str} (h : l.read wire fs name = some l') : LoadMoves wire fs l l' := by
  unfold LoadCall.read at h
  split at h
  · rename_i pending responses hpc
    obtain ⟨hnew, h⟩ := Option.ite_none_left_eq_some.mp h
    obtain ⟨content, hlookup, rfl⟩ := Option.map_eq_some_iff.mp h
    have hfile : (name, content) ∈ fs.files (directoryOf l.executionId) := by
      obtain ⟨before, after, hfiles, -⟩ := List.lookup_eq_some_iff.mp hlookup
      rw [FileSystem.files, hfiles]
      simp
    split
    · exact .garbled _ hpc hfile ‹_›
    · exact .read hpc (fun hseen => hnew (List.contains_iff_mem.mpr hseen)) hfile ‹_›
  · cases h

theorem loadMoves_finish (h : l.finish = some l') : LoadMoves wire fs l l' := by
  unfold LoadCall.finish at h
  split at h
  · cases h
    exact .finish ‹_›
  · cases h

/-- What the calls do in one operation. -/
inductive SinkMoves (wire : Wire (List B)) (s : Sinks B) : Sinks B → Prop
  | startStore {c : StoreCall} (hreference : HasUuidShape c.reference) (huuid : HasUuidShape c.uuid)
    (hfresh : ∀ d ∈ s.stores, d.uuid ≠ c.uuid) (hpc : c.pc = .validating) :
    SinkMoves wire s { s with stores := s.stores ++ [c] }
  | store {i bytes : ℕ} {c c' : StoreCall} {fs' : FileSystem (List B)} (hi : s.stores[i]? = some c)
    (hstep : c.step wire s.fs bytes = some (c', fs')) :
    SinkMoves wire s { s with fs := fs', stores := s.stores.set i c' }
  | startLoad (l : LoadCall) : SinkMoves wire s { s with loads := s.loads ++ [l] }
  | load {j : ℕ} {l l' : LoadCall} (hj : s.loads[j]? = some l) (hmoves : LoadMoves wire s.fs l l') :
    SinkMoves wire s { s with loads := s.loads.set j l' }

theorem step_moves {e : SinkEvent} (h : s.step wire e = some t) : SinkMoves wire s t := by
  cases e with
  | startStore response reference uuid =>
    obtain ⟨⟨hreference, huuid, hfresh⟩, heq⟩ := Option.ite_none_right_eq_some.mp h
    cases heq
    exact .startStore hreference huuid hfresh rfl
  | store i bytes =>
    obtain ⟨c, hi, h⟩ := Option.bind_eq_some_iff.mp h
    obtain ⟨⟨c', fs'⟩, hc', rfl⟩ := Option.map_eq_some_iff.mp h
    exact .store hi hc'
  | startLoad executionId reference =>
    obtain ⟨-, heq⟩ := Option.ite_none_right_eq_some.mp h
    cases heq
    exact .startLoad _
  | load j =>
    obtain ⟨l, hj, h⟩ := Option.bind_eq_some_iff.mp h
    obtain ⟨l', hl', rfl⟩ := Option.map_eq_some_iff.mp h
    exact .load hj (loadMoves_step hl')
  | read j name =>
    obtain ⟨l, hj, h⟩ := Option.bind_eq_some_iff.mp h
    obtain ⟨l', hl', rfl⟩ := Option.map_eq_some_iff.mp h
    exact .load hj (loadMoves_read hl')
  | finish j =>
    obtain ⟨l, hj, h⟩ := Option.bind_eq_some_iff.mp h
    obtain ⟨l', hl', rfl⟩ := Option.map_eq_some_iff.mp h
    exact .load hj (loadMoves_finish hl')

theorem moves_visible (h : Visible wire s.fs s.stores) (hmoves : SinkMoves wire s t) :
    Visible wire t.fs t.stores := by
  cases hmoves with
  | startStore hreference huuid hfresh hpc => exact h.start hreference huuid hfresh hpc
  | store hi hstep => exact visible_store h hi hstep
  | startLoad l => exact h
  | load hj hmoves => exact h

theorem visible_init : Visible wire ({} : Sinks B).fs ({} : Sinks B).stores where
  fresh := List.nodup_nil
  shape _ h := by cases h
  key _ h := by cases h
  housed _ h := by cases h
  written _ h := by cases h
  names _ := List.nodup_nil
  files _ _ h := by cases h
  stored _ h := by cases h

end Nighthawk.Sink
