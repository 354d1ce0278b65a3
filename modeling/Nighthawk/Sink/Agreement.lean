import Nighthawk.Sink.Code
import Nighthawk.Lib.Fallible
import Mathlib.Data.List.Forall2
import Mathlib.Data.List.Perm.Basic

/-!
# The file sink and the in-memory sink

The two sinks are compared over any sequence of calls. The keys that the file sink accepts are those
that have the shape of a uuid, and for these it behaves as the in-memory sink does.
-/

namespace Nighthawk.Sink

open Options Results

/-! ## The shape of a key -/

inductive Position where
  | digit
  | dash
  deriving DecidableEq

/-- 8-4-4-4-12. -/
def uuidPattern : List Position :=
  [Position.dash].intercalate ([8, 4, 4, 4, 12].map fun n => List.replicate n Position.digit)

def Position.Admits : Position → Char → Prop
  | digit, c => isxdigit c = true
  | dash, c => c = '-'

instance : DecidableRel Position.Admits
  | .digit, c => inferInstanceAs (Decidable (isxdigit c = true))
  | .dash, c => inferInstanceAs (Decidable (c = '-'))

def HasUuidShape (s : Str) : Prop := List.Forall₂ Position.Admits uuidPattern s

instance (s : Str) : Decidable (HasUuidShape s) := inferInstanceAs (Decidable (List.Forall₂ _ _ _))

theorem not_isxdigit_dash : isxdigit '-' = false := by decide

theorem not_isxdigit_slash : isxdigit '/' = false := by decide

theorem ne_slash_of_admits {p : Position} {c : Char} (h : p.Admits c) : c ≠ '/' := by
  rintro rfl
  cases p with
  | digit => exact Bool.false_ne_true (not_isxdigit_slash.symm.trans h)
  | dash => exact absurd (show '/' = '-' from h) (by decide)

theorem notMem_slash_of_shape {s : Str} {pattern : List Position}
    (h : List.Forall₂ Position.Admits pattern s) :
    '/' ∉ s := by
  induction h with
  | nil => simp
  | cons hadmits _ ih => exact List.not_mem_cons_of_ne_of_not_mem (ne_slash_of_admits hadmits).symm ih

theorem verifyCharacters_eq_ok {whole reference s : Str} {pattern : List Position}
    (href : List.Forall₂ Position.Admits pattern reference) (hlength : s.length = reference.length) :
    verifyCharacters whole reference s = .ok () ↔ List.Forall₂ Position.Admits pattern s := by
  induction href generalizing s with
  | nil =>
    obtain rfl := List.length_eq_zero_iff.mp hlength
    simp [verifyCharacters]
  | @cons p r pattern reference hadmits _ ih =>
    obtain ⟨c, s, rfl⟩ := List.exists_cons_of_length_eq_add_one hlength
    have hrest := ih (s := s) (by simpa using hlength)
    rw [List.forall₂_cons, verifyCharacters]
    cases p with
    | digit =>
      have hr : r ≠ '-' := by
        rintro rfl
        exact Bool.false_ne_true (not_isxdigit_dash.symm.trans hadmits)
      rw [if_neg hr]
      by_cases hc : isxdigit c = true
      · rw [if_neg (by rw [hc]; exact Bool.false_ne_true), hrest]
        exact ⟨fun h => ⟨hc, h⟩, fun h => h.2⟩
      · rw [if_pos (by rw [Bool.eq_false_iff.mpr hc]; rfl)]
        exact iff_of_false (fun h => by cases h) fun h => hc h.1
    | dash =>
      have hr : r = '-' := hadmits
      rw [if_pos hr]
      by_cases hc : c = '-'
      · rw [if_neg (not_not.mpr hc), hrest]
        exact ⟨fun h => ⟨hc, h⟩, fun h => h.2⟩
      · rw [if_pos hc]
        exact iff_of_false (fun h => by cases h) fun h => hc h.1

theorem validateKey_eq_ok {reference key : Str} (href : HasUuidShape reference) :
    validateKey reference key true = .ok () ↔ HasUuidShape key := by
  have hlength : ∀ {s : Str}, HasUuidShape s → s.length = 36 := fun h => h.length_eq.symm
  unfold validateKey
  by_cases hkey : key = []
  · rw [if_pos hkey]
    refine iff_of_false (fun h => by cases h) fun h => ?_
    have := hlength h
    rw [hkey] at this
    cases this
  · rw [if_neg hkey, if_pos rfl]
    unfold verifyCanBeUsedAsDirectoryName
    by_cases hsize : key.length = reference.length
    · rw [if_neg (not_not.mpr hsize)]
      exact verifyCharacters_eq_ok href hsize
    · rw [if_pos hsize]
      refine iff_of_false (fun h => by cases h) fun h => hsize ?_
      rw [hlength h, hlength href]

theorem validateKey_memory {key : Str} (h : HasUuidShape key) : validateKey [] key false = .ok () := by
  have hlength : key.length = 36 := h.length_eq.symm
  unfold validateKey
  rw [if_neg, if_neg Bool.false_ne_true]
  rintro rfl
  cases hlength

/-! ## Paths -/

/-- The names that a path leads through from the root. -/
def resolve (path : Str) : List Str :=
  (path.splitOn '/').foldl (fun names part =>
    if part = [] ∨ part = ['.'] then names else if part = ['.', '.'] then
      names.dropLast else names ++ [part]) []

theorem resolve_directoryOf {key : Str} (h : HasUuidShape key) :
    resolve (directoryOf key) = ["tmp".toList, "nh".toList, key] := by
  have hsplit : (directoryOf key).splitOn '/' = [[], "tmp".toList, "nh".toList, key, []] := by
    show ([] ++ '/' :: ("tmp".toList ++ '/' :: ("nh".toList ++ '/' :: (key ++ '/' :: [])))).splitOn '/' = _
    rw [List.splitOn_append_cons_self_of_not_mem (by simp),
      List.splitOn_append_cons_self_of_not_mem (by decide),
      List.splitOn_append_cons_self_of_not_mem (by decide),
      List.splitOn_append_cons_self_of_not_mem (notMem_slash_of_shape h)]
    rfl
  have hlength : key.length = 36 := h.length_eq.symm
  have hplain : ¬ (key = [] ∨ key = ['.']) ∧ key ≠ ['.', '.'] := by
    refine ⟨?_, ?_⟩
    · rintro (rfl | rfl) <;> cases hlength
    · rintro rfl
      cases hlength
  unfold resolve
  rw [hsplit]
  simp only [List.foldl_cons, List.foldl_nil]
  rw [if_neg hplain.1, if_neg hplain.2]
  rfl

theorem directoryOf_injective {key key' : Str} (h : directoryOf key = directoryOf key') : key = key' := by
  unfold directoryOf at h
  simpa using h

def fileName (uuid : Str) : Str := "nighthawk_".toList ++ uuid

theorem filename_temporaryPath {uuid : Str} (h : HasUuidShape uuid) :
    filename (temporaryPath uuid) = fileName uuid := by
  have hno : ∀ c ∈ (fileName uuid).reverse, decide (c ≠ '/') = true := by
    intro c hc
    have hmem : c ∈ fileName uuid := List.mem_reverse.mp hc
    rw [decide_eq_true_iff]
    rintro rfl
    rcases List.mem_append.mp hmem with hprefix | huuid
    · exact absurd hprefix (by decide)
    · exact notMem_slash_of_shape h huuid
  have hpath : (temporaryPath uuid).reverse = (fileName uuid).reverse ++ '/' :: ['p', 'm', 't', '/'] := by
    show ("/tmp".toList ++ '/' :: fileName uuid).reverse = _
    simp
  unfold filename
  rw [hpath, List.takeWhile_append_of_pos hno]
  simp

/-! ## Calls -/

/-- A call, with the uuids that are drawn during it. -/
inductive Call where
  | store (response : ExecutionResponse) (reference uuid : Str)
  | load (executionId reference : Str)

namespace Call

def key : Call → Str
  | store response _ _ => response.executionId
  | load executionId _ => executionId

def reference : Call → Str
  | store _ reference _ => reference
  | load _ reference => reference

/-- The uuid that names a file. -/
def uuid : Call → Option Str
  | store _ _ uuid => some uuid
  | load _ _ => none

def Drawn (call : Call) : Prop :=
  HasUuidShape call.reference ∧ ∀ uuid, call.uuid = some uuid → HasUuidShape uuid

end Call

variable {β : Type}

/-- What a call returns. A store returns no responses. -/
abbrev Outcome := Except Status (List ExecutionResponse)

def Outcome.code : Outcome → Option StatusCode
  | .ok _ => none
  | .error s => some s.code

def ofStore : Except Status Unit → Outcome := Except.map fun _ => []

def fileCall (wire : Wire β) (listing : Listing β) (fs : FileSystem β) : Call → Outcome × FileSystem β
  | .store response reference uuid =>
    let (status, fs) := FileSinkImpl.storeExecutionResultPiece wire fs response reference uuid
    (ofStore status, fs)
  | .load executionId reference =>
      (FileSinkImpl.loadExecutionResult wire listing fs executionId reference, fs)

def memoryCall (map : InMemorySinkImpl) : Call → Outcome × InMemorySinkImpl
  | .store response _ _ =>
    let (status, map) := InMemorySinkImpl.storeExecutionResultPiece map response
    (ofStore status, map)
  | .load executionId _ => (InMemorySinkImpl.loadExecutionResult map executionId, map)

def filesAfter (wire : Wire β) (listing : Listing β) (calls : List Call) : FileSystem β :=
  calls.foldl (fun fs call => (fileCall wire listing fs call).2) {}

def memoryAfter (calls : List Call) : InMemorySinkImpl :=
  calls.foldl (fun map call => (memoryCall map call).2) fun _ => none

/-! ## The simulation -/

/-- The directories hold what the map holds. `drawn` are the uuids that have named a file. -/
structure Matches (wire : Wire β) (drawn : List Str) (fs : FileSystem β) (map : InMemorySinkImpl) : Prop where
  contents : ∀ key, HasUuidShape key →
    (fs.directories (directoryOf key)).map (List.map Prod.snd) = (map key).map (List.map wire.serialize)
  names : ∀ path files, fs.directories path = some files →
    ∀ file ∈ files, ∃ uuid ∈ drawn, file.1 = fileName uuid
  directories : ∀ path, (fs.directories path).isSome → ∃ key, HasUuidShape key ∧ path = directoryOf key
  temporary : fs.temporary = []

variable {wire : Wire β} {listing : Listing β} {drawn : List Str} {fs : FileSystem β} {map : InMemorySinkImpl}

theorem matches_empty : Matches wire [] {} fun _ => none where
  contents _ _ := rfl
  names _ _ h := by cases h
  directories _ h := by cases h
  temporary := rfl

theorem map_getD {α γ : Type} (f : α → γ) (o : Option (List α)) :
    (o.getD []).map f = (o.map (List.map f)).getD [] := by
  cases o <;> rfl

def FileSystem.put (fs : FileSystem β) (path : Str) (file : Str × β) : FileSystem β where
  directories := Function.update fs.directories path (some ((fs.directories path).getD [] ++ [file]))

theorem put_same (fs : FileSystem β) (path : Str) (file : Str × β) :
    (fs.put path file).directories path = some ((fs.directories path).getD [] ++ [file]) :=
  Function.update_self _ _ _

theorem put_other {path path' : Str} (h : path' ≠ path) (fs : FileSystem β) (file : Str × β) :
    (fs.put path file).directories path' = fs.directories path' :=
  Function.update_of_ne h _ _

theorem Matches.named (h : Matches wire drawn fs map) {path : Str} {file : Str × β}
    (hfile : file ∈ (fs.directories path).getD []) : ∃ uuid ∈ drawn, file.1 = fileName uuid := by
  cases hfiles : fs.directories path with
  | none =>
    rw [hfiles] at hfile
    cases hfile
  | some files =>
    rw [hfiles] at hfile
    exact h.names path files hfiles file hfile

theorem store_accepted (h : Matches wire drawn fs map) {response : ExecutionResponse} {reference uuid : Str}
    (href : HasUuidShape reference) (huuid : HasUuidShape uuid) (hfresh : uuid ∉ drawn)
    (hkey : HasUuidShape response.executionId) :
    FileSinkImpl.storeExecutionResultPiece wire fs response reference uuid =
      (.ok (), fs.put (directoryOf response.executionId) (fileName uuid, wire.serialize response)) := by
  have hfilter : ((fs.directories (directoryOf response.executionId)).getD []).filter
      (fun file => file.1 ≠ fileName uuid) = (fs.directories (directoryOf response.executionId)).getD [] := by
    rw [List.filter_eq_self]
    intro file hfile
    rw [decide_eq_true_iff]
    intro hname
    obtain ⟨other, hother, hother'⟩ := h.named hfile
    have heq : uuid = other := List.append_cancel_left (hname.symm.trans hother')
    exact hfresh (heq ▸ hother)
  unfold FileSinkImpl.storeExecutionResultPiece
  rw [(validateKey_eq_ok href).mpr hkey, filename_temporaryPath huuid]
  simp only [FileSystem.createDirectories, FileSystem.write, FileSystem.rename, h.temporary, List.filter_nil,
    List.lookup_cons_self, Function.update_self, Function.update_idem, hfilter, FileSystem.put]
  simp

theorem store_rejected {response : ExecutionResponse} {reference uuid : Str} (href : HasUuidShape reference)
    (hkey : ¬ HasUuidShape response.executionId) :
    (FileSinkImpl.storeExecutionResultPiece wire fs response reference uuid).2 = fs := by
  unfold FileSinkImpl.storeExecutionResultPiece
  split
  · rfl
  · rename_i hok
    exact absurd ((validateKey_eq_ok href).mp hok) hkey

theorem memory_store_other {response : ExecutionResponse} {key : Str} (h : key ≠ response.executionId) :
    (InMemorySinkImpl.storeExecutionResultPiece map response).2 key = map key := by
  unfold InMemorySinkImpl.storeExecutionResultPiece
  split
  · rfl
  · exact Function.update_of_ne h _ _

theorem memory_store_accepted {response : ExecutionResponse} (h : HasUuidShape response.executionId) :
    (InMemorySinkImpl.storeExecutionResultPiece map response).1 = .ok () ∧
      (InMemorySinkImpl.storeExecutionResultPiece map response).2 response.executionId =
        some ((map response.executionId).getD [] ++ [response]) := by
  unfold InMemorySinkImpl.storeExecutionResultPiece
  rw [validateKey_memory h]
  exact ⟨rfl, Function.update_self _ _ _⟩

theorem store_matches (h : Matches wire drawn fs map) {response : ExecutionResponse} {reference uuid : Str}
    (href : HasUuidShape reference) (huuid : HasUuidShape uuid) (hfresh : uuid ∉ drawn) :
    Matches wire (drawn ++ [uuid]) (FileSinkImpl.storeExecutionResultPiece wire fs response reference uuid).2
      (InMemorySinkImpl.storeExecutionResultPiece map response).2 := by
  by_cases hkey : HasUuidShape response.executionId
  · rw [store_accepted h href huuid hfresh hkey]
    constructor
    case contents =>
      intro key hshape
      by_cases heq : key = response.executionId
      · rw [heq, put_same, (memory_store_accepted hkey).2, Option.map_some, Option.map_some, List.map_append,
          List.map_append, map_getD, map_getD, h.contents _ hkey]
        rfl
      · rw [put_other fun hpath => heq (directoryOf_injective hpath), memory_store_other heq]
        exact h.contents key hshape
    case names =>
      intro path files hfiles file hfile
      by_cases heq : path = directoryOf response.executionId
      · rw [heq, put_same] at hfiles
        cases hfiles
        rcases List.mem_append.mp hfile with hold | hnew
        · obtain ⟨other, hmem, hname⟩ := h.named hold
          exact ⟨other, List.mem_append_left _ hmem, hname⟩
        · rw [List.mem_singleton.mp hnew]
          exact ⟨uuid, by simp, rfl⟩
      · rw [put_other heq] at hfiles
        obtain ⟨other, hmem, hname⟩ := h.names path files hfiles file hfile
        exact ⟨other, List.mem_append_left _ hmem, hname⟩
    case directories =>
      intro path hpath
      by_cases heq : path = directoryOf response.executionId
      · exact ⟨_, hkey, heq⟩
      · rw [put_other heq] at hpath
        exact h.directories path hpath
    case temporary => rfl
  · rw [store_rejected href hkey]
    constructor
    case contents =>
      intro key hshape
      rw [memory_store_other fun heq => hkey (heq ▸ hshape)]
      exact h.contents key hshape
    case names =>
      intro path files hfiles file hfile
      obtain ⟨other, hmem, hname⟩ := h.names path files hfiles file hfile
      exact ⟨other, List.mem_append_left _ hmem, hname⟩
    case directories => exact h.directories
    case temporary => exact h.temporary

/-! ## Loads -/

theorem parseFiles_eq {directory : Str} {files : List (Str × β)}
    (h : ∀ file ∈ files, (wire.parse file.2).isSome) :
    FileSinkImpl.parseFiles wire directory files = .ok (files.filterMap fun file => wire.parse file.2) := by
  induction files with
  | nil => rfl
  | cons file files ih =>
    obtain ⟨hfile, hfiles⟩ := List.forall_mem_cons.mp h
    obtain ⟨response, hresponse⟩ := Option.isSome_iff_exists.mp hfile
    have hcons : (file :: files).filterMap (fun file => wire.parse file.2) =
        response :: files.filterMap fun file => wire.parse file.2 := List.filterMap_cons_some hresponse
    unfold FileSinkImpl.parseFiles
    rw [hresponse, ih hfiles, hcons]
    rfl

theorem parseFiles_listing {directory : Str} {files : List (Str × β)} {responses : List ExecutionResponse}
    (h : files.map Prod.snd = responses.map wire.serialize) :
    ∃ loaded, FileSinkImpl.parseFiles wire directory (listing.order files) = .ok loaded ∧
      loaded.Perm responses := by
  have hparse : ∀ file ∈ listing.order files, (wire.parse file.2).isSome := by
    intro file hfile
    have hmem : file.2 ∈ responses.map wire.serialize := by
      rw [← h]
      exact List.mem_map_of_mem ((listing.order_perm files).mem_iff.mp hfile)
    obtain ⟨response, -, hresponse⟩ := List.mem_map.mp hmem
    rw [← hresponse, wire.parse_serialize]
    rfl
  have hall : (files.filterMap fun file => wire.parse file.2) = responses := by
    have hcomp : (files.map Prod.snd).filterMap wire.parse = files.filterMap fun file => wire.parse file.2 :=
      List.filterMap_map ..
    rw [← hcomp, h, List.filterMap_map]
    simp [wire.parse_serialize]
  refine ⟨_, parseFiles_eq hparse, ?_⟩
  rw [← hall]
  exact (listing.order_perm files).filterMap _

/-- Two outcomes with the same code and, where they are responses, the same ones up to order. -/
inductive Outcome.Agree : Outcome → Outcome → Prop where
  | responses {l l' : List ExecutionResponse} : l.Perm l' → Agree (.ok l) (.ok l')
  | error {s s' : Status} : s.code = s'.code → Agree (.error s) (.error s')

theorem load_agrees (h : Matches wire drawn fs map) {key reference : Str} (href : HasUuidShape reference)
    (hkey : HasUuidShape key) :
    Outcome.Agree (FileSinkImpl.loadExecutionResult wire listing fs key reference)
      (InMemorySinkImpl.loadExecutionResult map key) := by
  have hcontents := h.contents key hkey
  have hlist := @parseFiles_listing β wire listing (directoryOf key)
  unfold FileSinkImpl.loadExecutionResult InMemorySinkImpl.loadExecutionResult
  rw [(validateKey_eq_ok href).mpr hkey, validateKey_memory hkey]
  cases hfiles : fs.directories (directoryOf key) with
  | none =>
    rw [hfiles] at hcontents
    rw [Option.map_eq_none_iff.mp hcontents.symm]
    exact .error rfl
  | some files =>
    rw [hfiles] at hcontents
    obtain ⟨responses, hresponses, hmap⟩ := Option.map_eq_some_iff.mp hcontents.symm
    obtain ⟨loaded, hloaded, hperm⟩ := hlist hmap.symm
    rw [hresponses]
    show Outcome.Agree (FileSinkImpl.parseFiles wire (directoryOf key) (listing.order files)) (.ok responses)
    rw [hloaded]
    exact .responses hperm

theorem store_agrees (h : Matches wire drawn fs map) {response : ExecutionResponse} {reference uuid : Str}
    (href : HasUuidShape reference) (huuid : HasUuidShape uuid) (hfresh : uuid ∉ drawn)
    (hkey : HasUuidShape response.executionId) :
    Outcome.Agree (ofStore (FileSinkImpl.storeExecutionResultPiece wire fs response reference uuid).1)
      (ofStore (InMemorySinkImpl.storeExecutionResultPiece map response).1) := by
  rw [store_accepted h href huuid hfresh hkey, (memory_store_accepted hkey).1]
  exact .responses (List.Perm.refl _)

/-! ## Runs -/

theorem call_matches (h : Matches wire drawn fs map) {call : Call} (hdrawn : call.Drawn)
    (hfresh : ∀ uuid ∈ call.uuid, uuid ∉ drawn) :
    Matches wire (drawn ++ call.uuid.toList) (fileCall wire listing fs call).2 (memoryCall map call).2 := by
  cases call with
  | store response reference uuid => exact store_matches h hdrawn.1 (hdrawn.2 uuid rfl) (hfresh uuid rfl)
  | load key reference =>
    rw [show Call.uuid (.load key reference) = none from rfl, Option.toList_none, List.append_nil]
    exact h

theorem call_agrees (h : Matches wire drawn fs map) {call : Call} (hdrawn : call.Drawn)
    (hfresh : ∀ uuid ∈ call.uuid, uuid ∉ drawn) (hkey : HasUuidShape call.key) :
    Outcome.Agree (fileCall wire listing fs call).1 (memoryCall map call).1 := by
  cases call with
  | store response reference uuid => exact store_agrees h hdrawn.1 (hdrawn.2 uuid rfl) (hfresh uuid rfl) hkey
  | load key reference => exact load_agrees h hdrawn.1 hkey

theorem filterMap_snoc (calls : List Call) (call : Call) :
    (calls ++ [call]).filterMap Call.uuid = calls.filterMap Call.uuid ++ call.uuid.toList := by
  rw [List.filterMap_append]
  cases h : call.uuid <;> simp [h]

theorem fresh_of_nodup {calls : List Call} {call : Call} (h : ((calls ++ [call]).filterMap Call.uuid).Nodup) :
    ∀ uuid ∈ call.uuid, uuid ∉ calls.filterMap Call.uuid := by
  rw [filterMap_snoc, List.nodup_append] at h
  intro uuid huuid hmem
  exact h.2.2 uuid hmem uuid (Option.mem_toList.mpr huuid) rfl

/-- Along every run the directories hold what the map holds. -/
theorem matches_after {calls : List Call} (hdrawn : ∀ call ∈ calls, call.Drawn)
    (hfresh : (calls.filterMap Call.uuid).Nodup) :
    Matches wire (calls.filterMap Call.uuid) (filesAfter wire listing calls) (memoryAfter calls) := by
  induction calls using List.reverseRecOn with
  | nil => exact matches_empty
  | append_singleton calls call ih =>
    have hfresh' := fresh_of_nodup hfresh
    rw [filterMap_snoc] at hfresh ⊢
    have hbefore := ih (fun c hc => hdrawn c (List.mem_append_left _ hc)) (List.nodup_append.mp hfresh).1
    unfold filesAfter memoryAfter
    rw [List.foldl_append, List.foldl_append]
    exact call_matches hbefore (hdrawn call (by simp)) hfresh'

/-! ## Rejected keys -/

theorem verifyCharacters_error {whole reference s : Str} {e : Status}
    (h : verifyCharacters whole reference s = .error e) : e.code = .invalidArgument := by
  induction reference generalizing s with
  | nil => cases h
  | cons r reference ih =>
    cases s with
    | nil => cases h
    | cons c s =>
      unfold verifyCharacters at h
      split at h
      · split at h
        · cases h
          rfl
        · exact ih h
      · split at h
        · cases h
          rfl
        · exact ih h

theorem validateKey_error {reference key : Str} {asDirectoryName : Bool} {e : Status}
    (h : validateKey reference key asDirectoryName = .error e) : e.code = .invalidArgument := by
  unfold validateKey verifyCanBeUsedAsDirectoryName at h
  split at h
  · cases h
    rfl
  · split at h
    · split at h
      · cases h
        rfl
      · exact verifyCharacters_error h
    · cases h

theorem fileCall_rejected {call : Call} (hdrawn : call.Drawn) (hkey : ¬ HasUuidShape call.key) :
    Outcome.code (fileCall wire listing fs call).1 = some .invalidArgument := by
  have herror : ∃ e, validateKey call.reference call.key true = .error e := by
    cases hvalidate : validateKey call.reference call.key true with
    | error e => exact ⟨e, rfl⟩
    | ok _ => exact absurd ((validateKey_eq_ok hdrawn.1).mp hvalidate) hkey
  obtain ⟨e, he⟩ := herror
  have hcode := validateKey_error he
  cases call with
  | store response reference uuid =>
    have he' : validateKey reference response.executionId true = .error e := he
    simp only [fileCall, FileSinkImpl.storeExecutionResultPiece, he']
    exact congrArg some hcode
  | load key reference =>
    have he' : validateKey reference key true = .error e := he
    simp only [fileCall, FileSinkImpl.loadExecutionResult, he']
    exact congrArg some hcode

theorem memoryCall_accepted {call : Call} (hkey : HasUuidShape call.key) :
    Outcome.code (memoryCall map call).1 ≠ some .invalidArgument := by
  cases call with
  | store response reference uuid =>
    simp only [memoryCall, (memory_store_accepted hkey).1]
    nofun
  | load key reference =>
    have hvalidate : validateKey [] key false = .ok () := validateKey_memory hkey
    simp only [memoryCall, InMemorySinkImpl.loadExecutionResult, hvalidate]
    cases map key with
    | none => exact nofun
    | some responses => exact nofun

theorem Outcome.Agree.code_eq {o o' : Outcome} (h : o.Agree o') : o.code = o'.code := by
  cases h with
  | responses _ => rfl
  | error hcode => exact congrArg some hcode

/-! ## The two sinks -/

/-- After any calls, the next call to the file sink is accepted exactly when its key has the shape of
a uuid. All directories that were made are direct children of `/tmp/nh`. An accepted call stays in such
a directory, and returns what the in-memory sink returns. -/
theorem sinks_agree {β : Type} (wire : Wire β) (listing : Listing β) (calls : List Call) (call : Call)
    (hdrawn : ∀ c ∈ calls ++ [call], c.Drawn) (hfresh : ((calls ++ [call]).filterMap Call.uuid).Nodup) :
    (Outcome.code (fileCall wire listing (filesAfter wire listing calls) call).1 ≠ some .invalidArgument ↔
        HasUuidShape call.key) ∧
      (∀ path, ((filesAfter wire listing (calls ++ [call])).directories path).isSome →
        ∃ key, HasUuidShape key ∧ resolve path = ["tmp".toList, "nh".toList, key]) ∧
      (HasUuidShape call.key → resolve (directoryOf call.key) = ["tmp".toList, "nh".toList, call.key] ∧
        Outcome.Agree (fileCall wire listing (filesAfter wire listing calls) call).1
          (memoryCall (memoryAfter calls) call).1) := by
  have hcall : call.Drawn := hdrawn call (by simp)
  have hfresh' := fresh_of_nodup hfresh
  have hbefore : Matches wire (calls.filterMap Call.uuid) (filesAfter wire listing calls)
      (memoryAfter calls) := by
    rw [filterMap_snoc] at hfresh
    exact matches_after (fun c hc => hdrawn c (List.mem_append_left _ hc)) (List.nodup_append.mp hfresh).1
  have hafter : Matches wire _ (filesAfter wire listing (calls ++ [call])) _ := matches_after hdrawn hfresh
  refine ⟨⟨?_, ?_⟩, ?_, ?_⟩
  · intro hcode
    by_contra hkey
    exact hcode (fileCall_rejected hcall hkey)
  · intro hkey
    rw [(call_agrees hbefore hcall hfresh' hkey).code_eq]
    exact memoryCall_accepted hkey
  · intro path hpath
    obtain ⟨key, hkey, rfl⟩ := hafter.directories path hpath
    exact ⟨key, hkey, resolve_directoryOf hkey⟩
  · intro hkey
    exact ⟨resolve_directoryOf hkey, call_agrees hbefore hcall hfresh' hkey⟩

def firstUuid : Str := "01234567-89ab-cdef-0123-456789abcdef".toList

def secondUuid : Str := "FEDCBA98-7654-3210-FEDC-BA9876543210".toList

/-- Files hold the responses themselves, and are listed in their order. -/
def plainWire : Wire ExecutionResponse := ⟨id, some, fun _ => rfl⟩

def plainListing : Listing ExecutionResponse := ⟨id, fun _ => List.Perm.refl _⟩

def storeSecond : Call := .store { executionId := secondUuid } firstUuid firstUuid

def loadSecond : Call := .load secondUuid firstUuid

/-- What was stored under an upper-case key is loaded again. -/
theorem sinks_agree_upper_case :
    Outcome.Agree (fileCall plainWire plainListing
      (filesAfter plainWire plainListing [storeSecond]) loadSecond).1
      (memoryCall (memoryAfter [storeSecond]) loadSecond).1 := by
  refine ((sinks_agree plainWire plainListing [storeSecond] loadSecond ?_ (by decide)).2.2 (by decide)).2
  have hstore : storeSecond.Drawn := ⟨by decide, fun uuid huuid => by cases huuid; decide⟩
  have hload : loadSecond.Drawn := ⟨by decide, nofun⟩
  intro call hcall
  rcases List.mem_cons.mp hcall with rfl | hcall
  · exact hstore
  · rw [List.mem_singleton.mp hcall]
    exact hload

end Nighthawk.Sink
