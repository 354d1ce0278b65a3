import Nighthawk.Lib.Runs
import Nighthawk.Options.Code

/-!
# Request sources

`RequestSourceFactoryImpl::create` and the sources it makes: the static one, the remote one, and
the plugins. A generator call takes from outside what the source does not hold itself.
-/

namespace Nighthawk.RequestSource

open Options
open BenchmarkClient (Request)

/-! ## The base header -/

/-- `RequestMethod_Name`, which is empty for a number without a name. -/
def requestMethodName : Enum RequestMethod → Str
  | .named .methodUnspecified => "METHOD_UNSPECIFIED".toList
  | .named .get => "GET".toList
  | .named .head => "HEAD".toList
  | .named .post => "POST".toList
  | .named .put => "PUT".toList
  | .named .delete => "DELETE".toList
  | .named .connect => "CONNECT".toList
  | .named .options => "OPTIONS".toList
  | .named .trace => "TRACE".toList
  | .named .patch => "PATCH".toList
  | .unnamed _ => []

def schemeValue (https : Bool) : Str := if https then "https".toList else "http".toList

def setTarget (path host : Str) (https : Bool) : HeaderMap :=
  ((HeaderMap.setCopy [] ":path".toList path).setCopy ":authority".toList host).setCopy ":scheme".toList
    (schemeValue https)

/-- Path, host and whether the scheme is https, or `none` when the URI is not valid. -/
def target (o : OptionsImpl) : Option (Str × Str × Bool) :=
  match o.uri with
  | some uri =>
    match Uri.UriImpl.create uri "http".toList with
    | .ok u => some (u.path, u.hostAndPort, u.scheme = "https".toList)
    | .error _ => none
  | none => some (o.multiTargetPath, "host-not-supported-in-multitarget-mode".toList, o.multiTargetUseHttps)

def HeaderValueOption.pair (h : HeaderValueOption) : Str × Str := (h.key, h.value)

/-- The header that the source gets, or `none` when one of the conversions throws. -/
def createHeader (o : OptionsImpl) : Option HeaderMap :=
  match target o, toCommandLineOptions o with
  | some (path, host, https), .ok options =>
    let header := (setTarget path host https).setCopy ":method".toList (requestMethodName o.requestMethod)
    let header := if o.requestBodySize > 0 then header.setContentLength o.requestBodySize.toNat else header
    some (header.setAll (((options.request.map OneofRequestOptions.headers).getD []).map
      HeaderValueOption.pair))
  | _, _ => none

/-! ## The sources -/

/-- A generator of each source, with the members that its calls read and change. -/
inductive Source where
  | static (header : HeaderMap) (yieldsLeft : UInt64)
  | remote (baseHeader : HeaderMap)
  | optionsList (header : HeaderMap) (options : List RequestOptions) (totalRequests counter : UInt32)
  | llm (header : HeaderMap) (modelName : Str) (reqTokenCount respMaxTokens : ℤ)

inductive OneofHeaders where
  | headers (value : List (Str × Str))
  | v3Headers (value : List (Str × Str))
  deriving DecidableEq, Repr

structure RequestSpecifier where
  method : Option Str := none
  path : Option Str := none
  authority : Option Str := none
  contentLength : Option UInt32 := none
  headers : Option OneofHeaders := none
  deriving DecidableEq, Repr

def OneofHeaders.list : OneofHeaders → List (Str × Str)
  | .headers l => l
  | .v3Headers l => l

/-- A header that an explicit field of the specifier replaces. -/
def replace (h : HeaderMap) (name : Str) : Option Str → HeaderMap
  | some value => h.setCopy name value
  | none => h

/-- `messageToRequest`, of a message with or without a specifier. -/
def messageToRequest (baseHeader : HeaderMap) : Option RequestSpecifier → Request
  | none => ⟨baseHeader, []⟩
  | some specifier =>
    let header := baseHeader.setAll ((specifier.headers.map OneofHeaders.list).getD [])
    let header := replace header HeaderMap.contentLengthName (specifier.contentLength.map fun v =>
      Text.decimal v.toNat)
    let header := replace header ":authority".toList specifier.authority
    let header := replace header ":path".toList specifier.path
    ⟨replace header ":method".toList specifier.method, []⟩

/-- The request for one entry of the list. The length of the body is cut to 32 bits. -/
def optionToRequest (header : HeaderMap) (option : RequestOptions) : Request :=
  let header := header.setCopy ":method".toList (requestMethodName option.requestMethod)
  let contentLength : UInt32 :=
    if option.jsonBody ≠ [] then UInt32.ofNat option.jsonBody.length else option.requestBodySize.getD 0
  let header := if contentLength > 0 then header.setContentLength contentLength.toNat else header
  let header :=
    if option.jsonBody ≠ [] then header.setCopy "content-type".toList "application/json".toList else header
  ⟨header.setAll (option.requestHeaders.map HeaderValueOption.pair), option.jsonBody⟩

def charset : Str := "0123456789ABCDEFGHIJKLMNOPQRSTUVWXYZabcdefghijklmnopqrstuvwxyz".toList

/-- Each token is one random character. -/
def generateRandomPrompt (numTokens : ℤ) (draw : ℕ → Fin 62) : Str :=
  ((List.range numTokens.toNat).map fun i => charset.getD (draw i) '0').intersperse ' '

def signedDecimal (v : ℤ) : Str := if v < 0 then '-' :: Text.decimal v.natAbs else Text.decimal v.natAbs

def llmBody (modelName : Str) (respMaxTokens : ℤ) (prompt : Str) : Str :=
  "\n      \x7b\n        \"model\": \"".toList ++ modelName ++ "\",\n        \"max_tokens\": ".toList ++
    signedDecimal respMaxTokens ++
    ",\n        \"messages\": [\n          \x7b\n            \"role\": \"user\",\n            \"content\": \"".toList ++
    prompt ++ "\"\n          \x7d\n        ]\n      \x7d\n    ".toList

def llmRequest (header : HeaderMap) (body : Str) : Request :=
  let header := header.setCopy ":method".toList "POST".toList
  let header := header.setCopy "content-type".toList "application/json".toList
  let header := header.setContentLength body.length
  ⟨header.setCopy ":path".toList "/v1/completions".toList, body⟩

/-- What a call finds outside the source: the message at the head of the queue, and the random
characters. -/
structure Input where
  message : Option (Option RequestSpecifier)
  draw : ℕ → Fin 62

/-- One call of the generator. -/
def Source.generate : Source → Input → Option Request × Source
  | .static header yieldsLeft, _ =>
    -- The count is decremented by the test itself.
    (if yieldsLeft ≠ 0 then some ⟨header, []⟩ else none, .static header (yieldsLeft - 1))
  | .remote baseHeader, input => (input.message.map (messageToRequest baseHeader), .remote baseHeader)
  | .optionsList header options totalRequests counter, _ =>
    if counter ≥ totalRequests ∧ totalRequests ≠ 0 then
      (none, .optionsList header options totalRequests counter)
    else if options = [] then (some ⟨header, []⟩, .optionsList header options totalRequests counter)
    else
      (options[counter.toNat % options.length]?.map (optionToRequest header),
        .optionsList header options totalRequests (counter + 1))
  | .llm header modelName reqTokenCount respMaxTokens, input =>
    let body := llmBody modelName respMaxTokens (generateRandomPrompt reqTokenCount input.draw)
    (some (llmRequest header body), .llm header modelName reqTokenCount respMaxTokens)

/-- The source after one call. -/
def Source.step (s : Source) (input : Input) : Option Source := some (s.generate input).2

/-- The call finds no message but those that the service sends. -/
def Input.Sent (service : Option RequestSpecifier → Prop) (input : Input) : Prop :=
  ∀ message, input.message = some message → service message

/-- The requests that some sequence of calls yields. -/
def Source.Yields (service : Option RequestSpecifier → Prop) (s : Source) (r : Request) : Prop :=
  ∃ inputs t input, (∀ i ∈ input :: inputs, i.Sent service) ∧ Runs.exec Source.step s inputs = some t ∧
    (t.generate input).1 = some r

/-! ## The factory -/

structure FileBasedConfig where
  filePath : Str
  numRequests : UInt32
  maxFileSize : Option UInt32
  deriving DecidableEq, Repr

structure LlmConfig where
  modelName : Str
  reqTokenCount : ℤ
  respMaxTokens : ℤ
  optionsList : List RequestOptions
  deriving DecidableEq, Repr

/-- The messages in a plugin config, and the file system. A call that throws is `none`. -/
structure PluginEnv where
  unpackFileBased : Message → Option FileBasedConfig
  unpackInLine : Message → Option (UInt32 × List RequestOptions)
  unpackLlm : Message → Option LlmConfig
  fileSize : Str → ℤ
  loadFromFile : Str → Option (List RequestOptions)

def createFileBased (env : PluginEnv) (config : FileBasedConfig) (header : HeaderMap) : Option Source :=
  if env.fileSize config.filePath > ((config.maxFileSize.getD 1000000).toNat : ℤ) then none
  else (env.loadFromFile config.filePath).map fun options => .optionsList header options config.numRequests 0

/-- The headers of every entry are put in the header of the source. -/
def createLlm (config : LlmConfig) (header : HeaderMap) : Option Source :=
  if config.modelName = [] then none
  else
    let headers := config.optionsList.flatMap fun option => option.requestHeaders.map HeaderValueOption.pair
    some (.llm (header.setAll headers) config.modelName config.reqTokenCount config.respMaxTokens)

/-- The registered plugins, by name. -/
def loadRequestSourcePlugin (env : PluginEnv) (config : TypedExtensionConfig) (header : HeaderMap) :
    Option Source :=
  if config.name = "nighthawk.file-based-request-source-plugin".toList then
    (env.unpackFileBased config.typedConfig).bind fun c => createFileBased env c header
  else if config.name = "nighthawk.in-line-options-list-request-source-plugin".toList then
    (env.unpackInLine config.typedConfig).map fun (numRequests, options) =>
      .optionsList header options numRequests 0
  else if config.name = "nighthawk.request_source.llm".toList then
    (env.unpackLlm config.typedConfig).bind fun c => createLlm c header
  else none

def create (env : PluginEnv) (o : OptionsImpl) : Option Source :=
  (createHeader o).bind fun header =>
    if o.requestSource ≠ [] then some (.remote header)
    else match o.requestSourcePluginConfig with
      | some config => loadRequestSourcePlugin env config header
      | none => some (.static header (UInt64.ofNat (2 ^ 64 - 1)))

/-- A source factory without plugins. -/
def noPlugins : PluginEnv where
  unpackFileBased _ := none
  unpackInLine _ := none
  unpackLlm _ := none
  fileSize _ := -1
  loadFromFile _ := none

end Nighthawk.RequestSource
