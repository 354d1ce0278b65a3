import Nighthawk.RequestSource.Headers
import Nighthawk.RequestSource.Yields

/-!
# The bytes of a request body

A request without a body of its own sends the first bytes of a buffer of 4194304 bytes, as many
as its content-length says. The cap on the body size in the options is not enough to keep that
number in the buffer.
-/

namespace Nighthawk.RequestSource

open Options
open BenchmarkClient (Request Config BenchmarkClientHttpImpl StreamDecoder requestContentLength simpleAtoi64)
open BenchmarkClient.StreamDecoder (Encoded encodeRequest staticUploadSize)

/-! ## The number in a header -/

/-- The number in a content-length, 0 if it is none, or `base` without a content-length. -/
def numberOr (base : ℕ) : Option Str → ℕ
  | some value => (Text.parseNumber value).getD 0
  | none => base

def headerNumber (h : HeaderMap) : ℕ := numberOr 0 h.contentLength

theorem headerNumber_setCopy (h : HeaderMap) {name : Str} (value : Str)
    (hne : name ≠ HeaderMap.contentLengthName) :
    headerNumber (h.setCopy name value) = headerNumber h := by
  rw [headerNumber, HeaderMap.contentLength_setCopy, if_neg hne, headerNumber]

theorem headerNumber_setContentLength (h : HeaderMap) (length : ℕ) :
    headerNumber (h.setContentLength length) = length := by
  rw [headerNumber, HeaderMap.contentLength_setContentLength, numberOr, Text.parseNumber_decimal,
    Option.getD_some]

theorem headerNumber_setAll (h : HeaderMap) (headers : List (Str × Str)) :
    headerNumber (h.setAll headers) =
      numberOr (headerNumber h) (HeaderMap.lastValue headers HeaderMap.contentLengthName) := by
  rw [headerNumber, HeaderMap.contentLength_setAll]
  cases HeaderMap.lastValue headers HeaderMap.contentLengthName <;> rfl

theorem headerNumber_setLength (h : HeaderMap) (length : UInt32) :
    headerNumber (if length > 0 then h.setContentLength length.toNat else h) =
      if length.toNat > 0 then length.toNat else headerNumber h := by
  have hpos : length > 0 ↔ length.toNat > 0 := UInt32.lt_iff_toNat_lt
  simp only [hpos]
  split_ifs
  · exact headerNumber_setContentLength h _
  · rfl

/-! ## What the decoder encodes -/

def bodyBytes (e : Encoded) : ℕ :=
  match e.data with
  | some (.staticUpload bytes) => bytes.toNat
  | some (.json body) => body.length
  | none => 0

/-- The decoder that the client starts stays in the buffer, and sends what the header says. -/
def UploadAgrees (r : Request) : Prop :=
  ∀ (c : Config) (s : BenchmarkClientHttpImpl) (pool : Bool) (now : Int) (d : StreamDecoder),
    (s.tryStartRequest c pool (some r) now).2 = .started d →
      (∀ bytes, (encodeRequest d).data = some (.staticUpload bytes) → bytes.toNat ≤ staticUploadSize) ∧
        bodyBytes (encodeRequest d) = headerNumber r.header

/-- A length that goes with a body. -/
def Fits (body : Str) (length : ℕ) : Prop :=
  if body = [] then length ≤ staticUploadSize else length = body.length

theorem started_eq {c : Config} {s : BenchmarkClientHttpImpl} {pool : Bool} {r : Request} {now : Int}
    {d : StreamDecoder} (h : (s.tryStartRequest c pool (some r) now).2 = .started d) :
    d.requestBody = r.body ∧ d.requestBodySize = (requestContentLength r.header).toUInt32 := by
  unfold BenchmarkClientHttpImpl.tryStartRequest at h
  split_ifs at h
  cases h
  exact ⟨rfl, rfl⟩

theorem exists_started (r : Request) :
    ∃ (c : Config) (s : BenchmarkClientHttpImpl) (d : StreamDecoder),
      (s.tryStartRequest c true (some r) 0).2 = .started d :=
  ⟨{ protocol := .http11, provideResourceBackpressure := false }, {}, _, rfl⟩

/-- The number is first cut to nothing above 64 bits, and then to 32 bits. -/
theorem requestBodySize_toNat (h : HeaderMap) :
    (requestContentLength h).toUInt32.toNat = if headerNumber h < 2 ^ 64 then
      headerNumber h % 2 ^ 32 else 0 := by
  unfold requestContentLength headerNumber simpleAtoi64 Text.parseUnsigned
  cases h.contentLength with
  | none => rfl
  | some value =>
    cases hn : Text.parseNumber value with
    | none => simp [numberOr, hn]
    | some n =>
      simp only [numberOr, hn, Option.getD_some, Option.filter_some, decide_eq_true_eq]
      by_cases hlt : n < 2 ^ 64
      · rw [if_pos (by omega), if_pos hlt]
        simp only [Option.map_some, Option.getD_some, UInt64.toNat_toUInt32, UInt64.toNat_ofNat']
        omega
      · rw [if_neg (by omega), if_neg hlt]
        rfl

theorem bodyBytes_encodeRequest (d : StreamDecoder) :
    bodyBytes (encodeRequest d) = if d.requestBody = [] then
      d.requestBodySize.toNat else d.requestBody.length := by
  have hpos : d.requestBodySize > 0 ↔ d.requestBodySize.toNat > 0 := UInt32.lt_iff_toNat_lt
  by_cases hbody : d.requestBody = []
  · by_cases hsize : d.requestBodySize.toNat > 0
    · simp [bodyBytes, encodeRequest, hbody, hpos.mpr hsize]
    · have hzero : d.requestBodySize.toNat = 0 := by omega
      simp [bodyBytes, encodeRequest, hbody, hpos, hzero]
  · simp [bodyBytes, encodeRequest, hbody]

theorem staticUpload_iff (d : StreamDecoder) :
    (∀ bytes, (encodeRequest d).data = some (.staticUpload bytes) → bytes.toNat ≤ staticUploadSize) ↔
      (d.requestBody = [] → d.requestBodySize.toNat ≤ staticUploadSize) := by
  have hpos : d.requestBodySize > 0 ↔ d.requestBodySize.toNat > 0 := UInt32.lt_iff_toNat_lt
  by_cases hbody : d.requestBody = []
  · by_cases hsize : d.requestBodySize.toNat > 0
    · simp [encodeRequest, hbody, hpos.mpr hsize]
    · have hzero : d.requestBodySize.toNat = 0 := by omega
      simp [encodeRequest, hbody, hpos, hzero]
  · simp [encodeRequest, hbody]

theorem uploadAgrees_iff (r : Request) : UploadAgrees r ↔ Fits r.body (headerNumber r.header) := by
  have hsize := requestBodySize_toNat r.header
  have hmax : staticUploadSize = 4194304 := rfl
  unfold Fits
  constructor
  · intro h
    obtain ⟨c, s, d, hd⟩ := exists_started r
    obtain ⟨hbound, hbytes⟩ := h c s true 0 d hd
    obtain ⟨hbody, hlength⟩ := started_eq hd
    rw [bodyBytes_encodeRequest, hbody, hlength] at hbytes
    rw [staticUpload_iff, hbody, hlength] at hbound
    split_ifs at hbytes ⊢ with hempty
    · exact hbytes ▸ hbound hempty
    · exact hbytes.symm
  · intro h c s pool now d hd
    obtain ⟨hbody, hlength⟩ := started_eq hd
    rw [bodyBytes_encodeRequest, staticUpload_iff, hbody, hlength]
    split_ifs at h ⊢ with hempty
    · rw [if_pos (by omega), Nat.mod_eq_of_lt (by omega)] at hsize
      exact ⟨fun _ => by omega, hsize⟩
    · exact ⟨fun hnil => absurd hnil hempty, h.symm⟩

/-! ## The numbers of each source -/

def messageNumber (base : ℕ) : Option RequestSpecifier → ℕ
  | none => base
  | some specifier =>
    match specifier.contentLength with
    | some length => length.toNat
    | none =>
      numberOr base (HeaderMap.lastValue
        ((specifier.headers.map OneofHeaders.list).getD []) HeaderMap.contentLengthName)

theorem headerNumber_replace (h : HeaderMap) {name : Str} (value : Option Str)
    (hne : name ≠ HeaderMap.contentLengthName) : headerNumber (replace h name value) = headerNumber h := by
  cases value with
  | none => rfl
  | some v => exact headerNumber_setCopy h v hne

theorem headerNumber_messageToRequest (baseHeader : HeaderMap) (message : Option RequestSpecifier) :
    headerNumber (messageToRequest baseHeader message).header =
      messageNumber (headerNumber baseHeader) message := by
  cases message with
  | none => rfl
  | some specifier =>
    simp only [messageToRequest, messageNumber]
    rw [headerNumber_replace _ _ (by decide), headerNumber_replace _ _ (by decide),
      headerNumber_replace _ _ (by decide)]
    cases specifier.contentLength with
    | none => exact headerNumber_setAll _ _
    | some length => exact headerNumber_setContentLength _ _

theorem body_messageToRequest (baseHeader : HeaderMap) (message : Option RequestSpecifier) :
    (messageToRequest baseHeader message).body = [] := by
  cases message <;> rfl

/-- The length of the body counts modulo 2^32. -/
def optionNumber (base : ℕ) (option : RequestOptions) : ℕ :=
  let length := if option.jsonBody ≠ [] then
    option.jsonBody.length % 2 ^ 32 else (option.requestBodySize.getD 0).toNat
  numberOr (if length > 0 then length else base)
    (HeaderMap.lastValue (option.requestHeaders.map HeaderValueOption.pair) HeaderMap.contentLengthName)

theorem headerNumber_optionToRequest (header : HeaderMap) (option : RequestOptions) :
    headerNumber (optionToRequest header option).header = optionNumber (headerNumber header) option := by
  simp only [optionToRequest, optionNumber]
  rw [headerNumber_setAll]
  by_cases hbody : option.jsonBody = []
  · simp only [hbody, ne_eq, not_true_eq_false, if_false]
    rw [headerNumber_setLength, headerNumber_setCopy _ _ (by decide)]
  · simp only [hbody, ne_eq, not_false_eq_true, if_true]
    rw [headerNumber_setCopy _ _ (by decide), headerNumber_setLength, headerNumber_setCopy _ _ (by decide),
      UInt32.toNat_ofNat']

theorem fits_llmRequest (header : HeaderMap) {body : Str} (hbody : body ≠ []) :
    Fits (llmRequest header body).body (headerNumber (llmRequest header body).header) := by
  unfold Fits
  rw [if_neg (show (llmRequest header body).body ≠ [] from hbody)]
  simp only [llmRequest]
  rw [headerNumber_setCopy _ _ (by decide), headerNumber_setContentLength]

/-! ## The base header -/

theorem headerNumber_ownHeader {o : OptionsImpl} {path host : Str} {https : Bool}
    (h : target o = some (path, host, https)) :
    headerNumber (ownHeader o path host https) = o.requestBodySize.toNat := by
  have hpos : o.requestBodySize > 0 ↔ o.requestBodySize.toNat > 0 := UInt32.lt_iff_toNat_lt
  have hlength : (ownHeader o path host https).contentLength =
      if o.requestBodySize > 0 then some (Text.decimal o.requestBodySize.toNat) else none := by
    unfold HeaderMap.contentLength
    rw [get_ownHeader h]
    simp only [ownValue, h, Option.bind_some]
    rw [if_neg (by decide), if_neg (by decide), if_neg (by decide), if_neg (by decide)]
    split_ifs <;> simp_all
  rw [headerNumber, hlength]
  by_cases hsize : o.requestBodySize > 0
  · rw [if_pos hsize, numberOr, Text.parseNumber_decimal, Option.getD_some]
  · rw [if_neg hsize, numberOr]
    rw [hpos] at hsize
    omega

theorem requestBodySize_le {o : OptionsImpl} {request : OneofRequestOptions}
    (hrequest : emitRequest o = .ok request)
    (hvalid : (emit o request).valid = true) (hsource : o.requestSource = [])
    (hplugin : o.requestSourcePluginConfig = none) (hheaders : o.requestHeaders ≠ []) :
    o.requestBodySize.toNat ≤ staticUploadSize := by
  obtain ⟨hne, -⟩ | ⟨-, c, hc, -⟩ | ⟨-, -, headers, -, rfl⟩ := emitRequest_eq_ok hrequest
  · exact absurd hsource hne
  · rw [hplugin] at hc
    cases hc
  · simp only [CommandLineOptions.valid, emit, Option.all_some, OneofRequestOptions.valid, hheaders, if_false,
      Bool.and_eq_true] at hvalid
    have hcap := hvalid.1.1.1.1.1.1.2
    simp only [within, Option.all_some, Bool.and_eq_true, decide_eq_true_eq, UInt32.le_iff_toNat_le] at hcap
    exact hcap.2

/-! ## Plugins -/

/-- The list of a plugin that has one, and the number of its requests. -/
def PluginEnv.optionsOf (plugins : PluginEnv) (config : TypedExtensionConfig) :
    Option (List RequestOptions × UInt32) :=
  match loadRequestSourcePlugin plugins config [] with
  | some (.optionsList _ options totalRequests _) => some (options, totalRequests)
  | _ => none

theorem loadRequestSourcePlugin_cases (plugins : PluginEnv) (config : TypedExtensionConfig)
    (header : HeaderMap) :
    (∃ options totalRequests, plugins.optionsOf config = some (options, totalRequests) ∧
      loadRequestSourcePlugin plugins config header = some (.optionsList header options totalRequests 0)) ∨
    (plugins.optionsOf config = none ∧ ∀ s, loadRequestSourcePlugin plugins config header = some s →
      ∃ h modelName reqTokenCount respMaxTokens, s = .llm h modelName reqTokenCount respMaxTokens) := by
  unfold PluginEnv.optionsOf loadRequestSourcePlugin
  split_ifs
  · cases hconfig : plugins.unpackFileBased config.typedConfig with
    | none => exact Or.inr ⟨rfl, fun s h => by cases h⟩
    | some c =>
      simp only [Option.bind_some, createFileBased]
      split_ifs
      · exact Or.inr ⟨rfl, fun s h => by cases h⟩
      · cases plugins.loadFromFile c.filePath with
        | none => exact Or.inr ⟨rfl, fun s h => by cases h⟩
        | some options => exact Or.inl ⟨options, c.numRequests, rfl, rfl⟩
  · cases plugins.unpackInLine config.typedConfig with
    | none => exact Or.inr ⟨rfl, fun s h => by cases h⟩
    | some c => exact Or.inl ⟨c.2, c.1, rfl, rfl⟩
  · cases plugins.unpackLlm config.typedConfig with
    | none => exact Or.inr ⟨rfl, fun s h => by cases h⟩
    | some c =>
      simp only [Option.bind_some, createLlm]
      split_ifs
      · exact Or.inr ⟨rfl, fun s h => by cases h⟩
      · exact Or.inr ⟨rfl, fun s h => ⟨_, _, _, _, (Option.some.inj h).symm⟩⟩
  · exact Or.inr ⟨rfl, fun s h => by cases h⟩

/-! ## Every request of a source -/

section
variable {service : Option RequestSpecifier → Prop}

def SourceAgrees (service : Option RequestSpecifier → Prop) (s : Source) : Prop :=
  ∀ r, s.Yields service r → UploadAgrees r

theorem sourceAgrees_iff {s : Source} (hfresh : s.Fresh) :
    SourceAgrees service s ↔ ∀ r, s.Offers service r → Fits r.body (headerNumber r.header) := by
  simp only [SourceAgrees, yields_iff_offers hfresh, uploadAgrees_iff]

theorem fits_nil {length : ℕ} : Fits [] length ↔ length ≤ staticUploadSize := by
  rw [Fits, if_pos rfl]

theorem static_agrees {header : HeaderMap} {yieldsLeft : UInt64}
    (hfresh : (Source.static header yieldsLeft).Fresh) :
    SourceAgrees service (.static header yieldsLeft) ↔ headerNumber header ≤ staticUploadSize := by
  rw [sourceAgrees_iff hfresh]
  simp only [Source.Offers, forall_eq, fits_nil]

theorem remote_agrees {header : HeaderMap} :
    SourceAgrees service (.remote header) ↔
      ∀ message, service message → messageNumber (headerNumber header) message ≤ staticUploadSize := by
  rw [sourceAgrees_iff (s := .remote header) trivial]
  constructor
  · intro h message hmessage
    have hfits := h _ ⟨message, hmessage, rfl⟩
    rwa [body_messageToRequest, fits_nil, headerNumber_messageToRequest] at hfits
  · rintro h r ⟨message, hmessage, rfl⟩
    rw [body_messageToRequest, fits_nil, headerNumber_messageToRequest]
    exact h message hmessage

/-- The entries that are reached fit, and so does the base header when there are none. -/
def ListFits (base : ℕ) (options : List RequestOptions) (totalRequests : UInt32) : Prop :=
  (options = [] → base ≤ staticUploadSize) ∧
    ∀ option ∈ options.take (reach totalRequests), Fits option.jsonBody (optionNumber base option)

theorem optionsList_agrees {header : HeaderMap} {options : List RequestOptions} {totalRequests : UInt32} :
    SourceAgrees service (.optionsList header options totalRequests 0) ↔
      ListFits (headerNumber header) options totalRequests := by
  rw [sourceAgrees_iff (s := .optionsList header options totalRequests 0) rfl]
  constructor
  · intro h
    refine ⟨fun hempty => fits_nil.mp (h _ (Or.inl ⟨hempty, rfl⟩)), fun option hoption => ?_⟩
    have hfits := h _ (Or.inr ⟨option, hoption, rfl⟩)
    rwa [headerNumber_optionToRequest] at hfits
  · rintro ⟨hempty, hoptions⟩ r (⟨hnil, rfl⟩ | ⟨option, hoption, rfl⟩)
    · exact fits_nil.mpr (hempty hnil)
    · rw [headerNumber_optionToRequest]
      exact hoptions option hoption

theorem llm_agrees {header : HeaderMap} {modelName : Str} {reqTokenCount respMaxTokens : ℤ} :
    SourceAgrees service (.llm header modelName reqTokenCount respMaxTokens) := by
  rw [sourceAgrees_iff (s := .llm header modelName reqTokenCount respMaxTokens) trivial]
  rintro r ⟨draw, rfl⟩
  exact fits_llmRequest header (List.cons_ne_nil _ _)

theorem plugin_agrees (plugins : PluginEnv) (config : TypedExtensionConfig) (header : HeaderMap) :
    (∀ s, loadRequestSourcePlugin plugins config header = some s → SourceAgrees service s) ↔
      ∀ options totalRequests, plugins.optionsOf config = some (options, totalRequests) →
        ListFits (headerNumber header) options totalRequests := by
  obtain ⟨options, totalRequests, hlist, hload⟩ | ⟨hlist, hload⟩ :=
    loadRequestSourcePlugin_cases plugins config header
  · simp only [hload, hlist, Option.some.injEq, forall_eq', Prod.mk.injEq, optionsList_agrees]
    exact ⟨fun hfit _ _ ⟨hoptions, htotal⟩ => hoptions ▸ htotal ▸ hfit, fun hfit => hfit _ _ ⟨rfl, rfl⟩⟩
  · refine ⟨fun _ options totalRequests hsome => ?_, fun _ s hs => ?_⟩
    · rw [hlist] at hsome
      cases hsome
    · obtain ⟨_, _, _, _, rfl⟩ := hload s hs
      exact llm_agrees

end

/-! ## Accepted options -/

/-- The options whose requests all fit. `service` is what a remote source may send. -/
structure LengthsFit (plugins : PluginEnv) (service : Option RequestSpecifier → Prop)
    (o : OptionsImpl) : Prop where
  remote : o.requestSource ≠ [] →
    ∀ message, service message → messageNumber o.requestBodySize.toNat message ≤ staticUploadSize
  plugin : o.requestSource = [] → ∀ config, o.requestSourcePluginConfig = some config →
    ∀ options totalRequests, plugins.optionsOf config = some (options, totalRequests) →
      ListFits o.requestBodySize.toNat options totalRequests
  header : o.requestSource = [] → o.requestSourcePluginConfig = none →
    ∀ value, HeaderMap.lastValue
      (o.requestHeaders.filterMap splitHeader) HeaderMap.contentLengthName = some value →
      (Text.parseNumber value).getD 0 ≤ staticUploadSize
  bodySize : o.requestSource = [] → o.requestSourcePluginConfig = none → o.requestHeaders = [] →
    o.requestBodySize.toNat ≤ staticUploadSize

section
variable {plugins : PluginEnv} {service : Option RequestSpecifier → Prop} {o : OptionsImpl}

theorem lengthsFit_remote (hsource : o.requestSource ≠ []) :
    LengthsFit plugins service o ↔
      ∀ message, service message → messageNumber o.requestBodySize.toNat message ≤ staticUploadSize :=
  ⟨fun hfit => hfit.remote hsource, fun hfit => ⟨fun _ => hfit, fun hnil => absurd hnil hsource,
    fun hnil => absurd hnil hsource, fun hnil => absurd hnil hsource⟩⟩

theorem lengthsFit_plugin (hsource : o.requestSource = []) {config : TypedExtensionConfig}
    (hconfig : o.requestSourcePluginConfig = some config) :
    LengthsFit plugins service o ↔
      ∀ options totalRequests, plugins.optionsOf config = some (options, totalRequests) →
        ListFits o.requestBodySize.toNat options totalRequests := by
  have hsome : o.requestSourcePluginConfig ≠ none := by simp [hconfig]
  refine ⟨fun hfit => hfit.plugin hsource config hconfig, fun hfit => ⟨fun hne => absurd hsource hne, ?_,
    fun _ hnone => absurd hnone hsome, fun _ hnone => absurd hnone hsome⟩⟩
  intro _ config' hconfig'
  obtain rfl := Option.some.inj (hconfig.symm.trans hconfig')
  exact hfit

theorem lengthsFit_static (hsource : o.requestSource = []) (hnone : o.requestSourcePluginConfig = none)
    (hcap : o.requestHeaders ≠ [] → o.requestBodySize.toNat ≤ staticUploadSize) :
    LengthsFit plugins service o ↔ numberOr o.requestBodySize.toNat
      (HeaderMap.lastValue (o.requestHeaders.filterMap splitHeader) HeaderMap.contentLengthName) ≤
        staticUploadSize := by
  constructor
  · intro hfit
    cases hlast : HeaderMap.lastValue
      (o.requestHeaders.filterMap splitHeader) HeaderMap.contentLengthName with
    | some value => exact hfit.header hsource hnone value hlast
    | none =>
      by_cases hnil : o.requestHeaders = []
      · exact hfit.bodySize hsource hnone hnil
      · exact hcap hnil
  · intro hfit
    refine ⟨fun hne => absurd hsource hne, fun _ config hconfig => ?_, fun _ _ value hvalue => ?_,
      fun _ _ hnil => ?_⟩
    · rw [hnone] at hconfig
      cases hconfig
    · rwa [hvalue] at hfit
    · rwa [hnil] at hfit

end

theorem upload_agrees_iff (env : Env) (plugins : PluginEnv) (service : Option RequestSpecifier → Prop)
    (o : OptionsImpl) (h : Accepted env o) :
    (∀ s, create plugins o = some s → ∀ r, s.Yields service r → UploadAgrees r) ↔
      LengthsFit plugins service o := by
  obtain ⟨-, -, -, -, request, hrequest, hvalid, -⟩ := validate_eq_ok.mp h.validate
  obtain ⟨path, host, https, htarget, hheader⟩ := createHeader_eq h.validate
  have hcreate := create_of_header plugins hheader
  have hown := headerNumber_ownHeader htarget
  change (∀ s, create plugins o = some s → SourceAgrees service s) ↔ _
  -- Only the static source puts headers of the options in its base header.
  by_cases hsource : o.requestSource ≠ []
  · rw [if_pos hsource, emittedHeaders, if_neg fun hstatic => hsource hstatic.1] at hcreate
    simp only [hcreate, Option.some.injEq, forall_eq', remote_agrees, HeaderMap.setAll, List.foldl_nil, hown]
    exact (lengthsFit_remote hsource).symm
  have hnil := not_not.mp hsource
  cases hconfig : o.requestSourcePluginConfig with
  | some config =>
    rw [if_neg hsource, hconfig, emittedHeaders, if_neg fun hstatic => by
      simp [hconfig] at hstatic] at hcreate
    rw [lengthsFit_plugin hnil hconfig, ← hown, ← plugin_agrees, hcreate]
    rfl
  | none =>
    have hcap := requestBodySize_le hrequest hvalid hnil hconfig
    have hfresh : ∀ header, (Source.static header (UInt64.ofNat (2 ^ 64 - 1))).Fresh := by
      intro header
      show UInt64.ofNat (2 ^ 64 - 1) ≠ 0
      decide
    rw [if_neg hsource, hconfig, emittedHeaders, if_pos ⟨hnil, hconfig⟩] at hcreate
    simp only [hcreate, Option.some.injEq, forall_eq', static_agrees (hfresh _), headerNumber_setAll, hown]
    exact (lengthsFit_static hnil hconfig hcap).symm

def withBody (bytes : UInt32) (headers : List HeaderValueOption) : CommandLineOptions :=
  { uri := some (.uri "http://a".toList)
    request := some (.requestOptions { requestHeaders := headers, requestBodySize := some bytes }) }

def smallBody : CommandLineOptions := withBody 10 [⟨"b".toList, "c".toList, none⟩]

theorem upload_agrees_with_header :
    ∃ o s r, fromProto plainEnv smallBody = .ok o ∧ create noPlugins o = some s ∧
      s.Yields (fun _ => False) r ∧
      headerNumber r.header = 10 ∧ UploadAgrees r := by
  have hfit : LengthsFit noPlugins (fun _ => False) (configure smallBody) := by
    refine ⟨fun hne => absurd rfl hne, fun _ config hconfig => ?_, fun _ _ value hvalue => ?_,
      fun _ _ hnil => ?_⟩
    · cases hconfig
    · cases hvalue
    · cases hnil
  have hagrees := (upload_agrees_iff plainEnv noPlugins (fun _ => False) _ (Or.inl ⟨smallBody, rfl⟩)).mpr hfit
  obtain ⟨header, hheader⟩ : ∃ header, createHeader (configure smallBody) = some header := ⟨_, rfl⟩
  have hcreate := create_of_header noPlugins hheader
  have hyields : Source.Yields (fun _ => False) (.static header (UInt64.ofNat (2 ^ 64 - 1))) ⟨header, []⟩ :=
    yields_of_offers (fresh_create hcreate) rfl
  exact ⟨_, _, ⟨header, []⟩, rfl, hcreate, hyields, by cases hheader; rfl, hagrees _ hcreate _ hyields⟩

/-- A body size of 5000000 passes when no header goes with it. -/
theorem upload_leaves_buffer :
    ∃ o s r d, fromProto plainEnv (withBody 5000000 []) = .ok o ∧ create noPlugins o = some s ∧
      s.Yields (fun _ => False) r ∧
      (BenchmarkClientHttpImpl.tryStartRequest { protocol := .http11, provideResourceBackpressure := false } {} true
        (some r) 0).2 = .started d ∧
      (encodeRequest d).data = some (.staticUpload 5000000) ∧ staticUploadSize < 5000000 := by
  refine ⟨_, .static _ _, ⟨_, _⟩, _, rfl, rfl, yields_of_offers ?_ rfl, rfl, rfl, by decide⟩
  show UInt64.ofNat (2 ^ 64 - 1) ≠ 0
  decide

end Nighthawk.RequestSource
