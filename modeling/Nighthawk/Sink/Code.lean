import Nighthawk.Results.Proto
import Nighthawk.Absl.Status
import Mathlib.Logic.Function.Basic

/-!
# Sinks of execution responses

`FileSinkImpl` and `InMemorySinkImpl`, and the merge of what the sink service loads. The file
system makes no errors.
-/

namespace Nighthawk.Sink

open Options Results

/-! ## Keys -/

def isxdigit (c : Char) : Bool :=
  ('0' ≤ c && c ≤ '9') || ('a' ≤ c && c ≤ 'f') || ('A' ≤ c && c ≤ 'F')

def notAGuid (s why : Str) : Status :=
  ⟨.invalidArgument, '\'' :: s ++ "' is not a guid: ".toList ++ why⟩

/-- The loop over the characters of the key `whole`, beside those of the reference. -/
def verifyCharacters (whole : Str) : Str → Str → Except Status Unit
  | r :: reference, c :: s =>
    if r = '-' then
      if c ≠ '-' then .error (notAGuid whole "expectations around '-' positions not met.".toList)
      else verifyCharacters whole reference s
    else if !isxdigit c then .error (notAGuid whole "unexpected character encountered.".toList)
    else verifyCharacters whole reference s
  | _, _ => .ok ()

/-- `reference` is the uuid that is drawn. -/
def verifyCanBeUsedAsDirectoryName (reference s : Str) : Except Status Unit :=
  if s.length ≠ reference.length then .error (notAGuid s "bad string length.".toList)
  else verifyCharacters s reference s

def validateKey (reference key : Str) (validateAsDirectoryName : Bool) : Except Status Unit :=
  if key = [] then .error ⟨.invalidArgument, "empty key is not allowed.".toList⟩
  else if validateAsDirectoryName then verifyCanBeUsedAsDirectoryName reference key
  else .ok ()

/-! ## Files -/

section

variable {β : Type}

/-- The wire form of a response, which is read back as it was written. -/
structure Wire (β : Type) where
  serialize : ExecutionResponse → β
  parse : β → Option ExecutionResponse
  parse_serialize : ∀ r, parse (serialize r) = some r

/-- The order in which a directory is listed. -/
structure Listing (β : Type) where
  order : List (Str × β) → List (Str × β)
  order_perm : ∀ files, (order files).Perm files

/-- The directories by their path, each with the names and contents of its files, and the files of
`/tmp` by their path. -/
structure FileSystem (β : Type) where
  directories : Str → Option (List (Str × β)) := fun _ => none
  temporary : List (Str × β) := []

namespace FileSystem

/-- A directory that exists stays as it is. -/
def createDirectories (fs : FileSystem β) (path : Str) : FileSystem β :=
  { fs with directories := Function.update fs.directories path (some ((fs.directories path).getD [])) }

def write (fs : FileSystem β) (path : Str) (content : β) : FileSystem β :=
  { fs with temporary := (path, content) :: fs.temporary.filter fun file => file.1 ≠ path }

/-- A file of `/tmp` moves to a directory. There it replaces a file of its new name. -/
def rename (fs : FileSystem β) (path directory name : Str) : FileSystem β :=
  match fs.temporary.lookup path, fs.directories directory with
  | some content, some files =>
    { directories := Function.update fs.directories directory
        (some ((files.filter fun file => file.1 ≠ name) ++ [(name, content)]))
      temporary := fs.temporary.filter fun file => file.1 ≠ path }
  | _, _ => fs

end FileSystem

def directoryOf (key : Str) : Str := "/tmp/nh/".toList ++ key ++ ['/']

def temporaryPath (uuid : Str) : Str := "/tmp/nighthawk_".toList ++ uuid

/-- `std::filesystem::path::filename`. -/
def filename (path : Str) : Str := (path.reverse.takeWhile (· ≠ '/')).reverse

namespace FileSinkImpl

/-- `reference` and `uuid` are drawn during the call. -/
def storeExecutionResultPiece (wire : Wire β) (fs : FileSystem β) (response : ExecutionResponse)
    (reference uuid : Str) :
    Except Status Unit × FileSystem β :=
  match validateKey reference response.executionId true with
  | .error s => (.error s, fs)
  | .ok () =>
    let fs := fs.createDirectories (directoryOf response.executionId)
    let fs := fs.write (temporaryPath uuid) (wire.serialize response)
    (.ok (), fs.rename (temporaryPath uuid) (directoryOf response.executionId)
      (filename (temporaryPath uuid)))

/-- The files one after the other. -/
def parseFiles (wire : Wire β) (directory : Str) : List (Str × β) → Except Status (List ExecutionResponse)
  | [] => .ok []
  | (name, content) :: files =>
    match wire.parse content with
    | none => .error ⟨.internal,
        "Failed to parse ExecutionResponse '".toList ++ directory ++ name ++ "'.".toList⟩
    | some response => do
      let responses ← parseFiles wire directory files
      pure (response :: responses)

def loadExecutionResult (wire : Wire β) (listing : Listing β) (fs : FileSystem β)
    (executionId reference : Str) :
    Except Status (List ExecutionResponse) := do
  validateKey reference executionId true
  match fs.directories (directoryOf executionId) with
  | none => .error ⟨.notFound, "No such file or directory".toList⟩
  | some files => parseFiles wire (directoryOf executionId) (listing.order files)

end FileSinkImpl

end

/-! ## Memory -/

abbrev InMemorySinkImpl := Str → Option (List ExecutionResponse)

namespace InMemorySinkImpl

def storeExecutionResultPiece (map : InMemorySinkImpl) (response : ExecutionResponse) :
    Except Status Unit × InMemorySinkImpl :=
  match validateKey [] response.executionId false with
  | .error s => (.error s, map)
  | .ok () =>
    (.ok (), Function.update map response.executionId
      (some ((map response.executionId).getD [] ++ [response])))

def loadExecutionResult (map : InMemorySinkImpl) (executionId : Str) :
    Except Status (List ExecutionResponse) := do
  validateKey [] executionId false
  match map executionId with
  | some responses => .ok responses
  | none => .error ⟨.notFound, "No results found for execution-id: '".toList ++ executionId ++ ['\'']⟩

end InMemorySinkImpl

/-! ## The merge -/

/-- `MessageDifferencer::Equivalent`, of which it is only used that a message is equivalent to itself,
the texts of messages, and `Any::PackFrom`. -/
structure Messages where
  equivalentOptions : CommandLineOptions → CommandLineOptions → Bool
  equivalentOptions_refl : ∀ o, equivalentOptions o o = true
  equivalentVersion : Message → Message → Bool
  equivalentVersion_refl : ∀ v, equivalentVersion v v = true
  optionsText : CommandLineOptions → Str
  versionText : Message → Str
  pack : RpcStatus → Message

/-- The accessors, which give an empty message when the field is absent. -/
def optionsOf (output : Output) : CommandLineOptions := output.options.getD {}

def versionOf (output : Output) : Message := output.version.getD []

def outputOf (response : ExecutionResponse) : Output := response.output.getD {}

def mergeOutput (m : Messages) (inputToMerge mergeTarget : Output) : Except Status Output :=
  let append (target : Output) : Output := { target with results := target.results ++ inputToMerge.results }
  if mergeTarget.options = none then
    .ok (append { mergeTarget with
      options := some (optionsOf inputToMerge)
      timestamp := some (inputToMerge.timestamp.getD ⟨0, 0⟩)
      version := some (versionOf inputToMerge) })
  else if !m.equivalentOptions (optionsOf inputToMerge) (optionsOf mergeTarget) then
    .error ⟨.internal, "Options divergence detected: ".toList ++ m.optionsText (optionsOf mergeTarget) ++
      " vs ".toList ++
      m.optionsText (optionsOf inputToMerge) ++ ['.']⟩
  else if !m.equivalentVersion (versionOf inputToMerge) (versionOf mergeTarget) then
    .error ⟨.internal, "Version divergence detected: ".toList ++ m.versionText (versionOf mergeTarget) ++
      " vs ".toList ++
      m.versionText (versionOf inputToMerge) ++ ['.']⟩
  else .ok (append mergeTarget)

/-- A piece's error is added to the details of the aggregated one. -/
def addErrorDetail (m : Messages) (aggregated : Option RpcStatus) : Option RpcStatus → Option RpcStatus
  | none => aggregated
  | some detail => some {
      code := -1
      message := "One or more remote execution(s) terminated with a failure.".toList
      details := (aggregated.getD {}).details ++ [m.pack detail] }

/-- The loop over the pieces. -/
def mergePieces (m : Messages) (requestedExecutionId : Str) :
    List ExecutionResponse → Option RpcStatus → Output → Except Status ExecutionResponse
  | [], errorDetail, output => .ok ⟨some output, errorDetail, requestedExecutionId⟩
  | piece :: pieces, errorDetail, output =>
    if piece.executionId ≠ requestedExecutionId then
      .error ⟨.internal, "Expected execution_id '".toList ++ requestedExecutionId ++ "' got '".toList ++
        piece.executionId ++ ['\'']⟩
    else do
      let output ← mergeOutput m (outputOf piece) output
      mergePieces m requestedExecutionId pieces (addErrorDetail m errorDetail piece.errorDetail) output

def mergeExecutionResponses (m : Messages) (requestedExecutionId : Str) (responses : List ExecutionResponse) :
    Except Status ExecutionResponse :=
  if responses = [] then .error ⟨.notFound, "No results".toList⟩
  else mergePieces m requestedExecutionId responses none {}

end Nighthawk.Sink
