import Nighthawk.Options.Accepted
import Nighthawk.RequestSource.Code

/-!
# The base header of a source

The factory sets headers of its own and puts the request headers of the options over them. It
takes those from the emitted message, which has none when there is another request source.
-/

namespace Nighthawk.RequestSource

open Options

/-! ## The headers of the factory -/

def ownValue (o : OptionsImpl) (name : Str) : Option Str :=
  (target o).bind fun (path, host, https) =>
    if name = ":path".toList then some path
    else if name = ":authority".toList then some host
    else if name = ":scheme".toList then some (schemeValue https)
    else if name = ":method".toList then some (requestMethodName o.requestMethod)
    else if name = HeaderMap.contentLengthName ∧ o.requestBodySize > 0 then
      some (Text.decimal o.requestBodySize.toNat)
    else none

theorem target_of_validateTargets {o : OptionsImpl} (h : validateTargets o = .ok ()) :
    ∃ t, target o = some t := by
  unfold validateTargets at h
  unfold target
  cases huri : o.uri with
  | none => exact ⟨_, rfl⟩
  | some uri =>
    rw [huri] at h
    cases hu : Uri.UriImpl.create uri "http".toList with
    | error e =>
      simp only [hu] at h
      cases h
    | ok u =>
      simp only [hu]
      exact ⟨_, rfl⟩

/-- The header map before the request headers of the options. -/
def ownHeader (o : OptionsImpl) (path host : Str) (https : Bool) : HeaderMap :=
  let header := (setTarget path host https).setCopy ":method".toList (requestMethodName o.requestMethod)
  if o.requestBodySize > 0 then header.setContentLength o.requestBodySize.toNat else header

theorem get_ownHeader {o : OptionsImpl} {path host : Str} {https : Bool}
    (h : target o = some (path, host, https))
    (name : Str) : (ownHeader o path host https).get name = (ownValue o name).toList := by
  have hlength : (ownHeader o path host https).get name =
      if name = HeaderMap.contentLengthName ∧ o.requestBodySize > 0 then
        [Text.decimal o.requestBodySize.toNat]
      else ((setTarget path host https).setCopy
        ":method".toList (requestMethodName o.requestMethod)).get name := by
    simp only [ownHeader]
    by_cases hsize : o.requestBodySize > 0
    · simp only [hsize, if_true, and_true, HeaderMap.setContentLength, HeaderMap.get_setCopy]
    · simp only [hsize, if_false, and_false]
  rw [hlength]
  simp only [ownValue, h, Option.bind_some, setTarget, HeaderMap.get_setCopy]
  by_cases hname : name = HeaderMap.contentLengthName
  · subst hname
    have hpath : HeaderMap.contentLengthName ≠ ":path".toList := by decide
    have hauthority : HeaderMap.contentLengthName ≠ ":authority".toList := by decide
    have hscheme : HeaderMap.contentLengthName ≠ ":scheme".toList := by decide
    have hmethod : HeaderMap.contentLengthName ≠ ":method".toList := by decide
    simp only [hpath, hauthority, hscheme, hmethod, if_false, true_and]
    split_ifs <;> rfl
  · split_ifs <;> simp_all [HeaderMap.get]

/-! ## The headers of the options -/

theorem map_pair_of_emitHeader {strings : List Str} {headers : List HeaderValueOption}
    (h : List.Forall₂ (fun header v => emitHeader header = .ok v) strings headers) :
    headers.map HeaderValueOption.pair = strings.filterMap splitHeader := by
  induction h with
  | nil => rfl
  | cons hemit _ ih => rw [List.map_cons, List.filterMap_cons, (emitHeader_eq_ok.mp hemit).1, ih]; rfl

/-- The request headers that are emitted: none next to another request source. -/
def emittedHeaders (o : OptionsImpl) : List (Str × Str) :=
  if o.requestSource = [] ∧ o.requestSourcePluginConfig = none then
    o.requestHeaders.filterMap splitHeader else []

theorem headers_of_emitRequest {o : OptionsImpl} {request : OneofRequestOptions}
    (h : emitRequest o = .ok request) :
    request.headers.map HeaderValueOption.pair = emittedHeaders o := by
  unfold emittedHeaders
  obtain ⟨hsource, rfl⟩ | ⟨-, config, hconfig, rfl⟩ | ⟨hsource, hnone, headers, hheaders, rfl⟩ :=
    emitRequest_eq_ok h
  · rw [if_neg fun hstatic => hsource hstatic.1]
    rfl
  · rw [if_neg fun hstatic => by simp [hconfig] at hstatic]
    rfl
  · rw [if_pos (show o.requestSource = [] ∧ o.requestSourcePluginConfig = none from ⟨hsource, hnone⟩)]
    exact map_pair_of_emitHeader hheaders

theorem createHeader_eq {env : Env} {o : OptionsImpl} (hvalid : validate env o = .ok ()) :
    ∃ path host https, target o = some (path, host, https) ∧
      createHeader o = some ((ownHeader o path host https).setAll (emittedHeaders o)) := by
  obtain ⟨-, -, -, htargets, request, hrequest, -⟩ := validate_eq_ok.mp hvalid
  obtain ⟨⟨path, host, https⟩, htarget⟩ := target_of_validateTargets htargets
  have hoptions : toCommandLineOptions o = .ok (emit o request) :=
    toCommandLineOptions_eq_ok.mpr ⟨request, hrequest, rfl⟩
  refine ⟨path, host, https, htarget, ?_⟩
  simp only [createHeader, htarget, hoptions]
  rw [← headers_of_emitRequest hrequest]
  rfl

theorem create_of_header (plugins : PluginEnv) {o : OptionsImpl} {header : HeaderMap}
    (h : createHeader o = some header) :
    create plugins o = if o.requestSource ≠ [] then some (.remote header)
      else match o.requestSourcePluginConfig with
        | some config => loadRequestSourcePlugin plugins config header
        | none => some (.static header (UInt64.ofNat (2 ^ 64 - 1))) := by
  rw [create, h]
  rfl

/-! ## What reaches the source -/

/-- For each name, the last value that was configured. -/
def Carries (header : HeaderMap) (configured : List (Str × Str)) : Prop :=
  ∀ name value, HeaderMap.lastValue configured name = some value → header.get name = [value]

theorem carries_setAll (h : HeaderMap) (headers : List (Str × Str)) : Carries (h.setAll headers) headers := by
  intro name value hlast
  rw [HeaderMap.get_setAll, hlast]

theorem carries_own {o : OptionsImpl} {path host : Str} {https : Bool}
    (h : target o = some (path, host, https))
    (configured : List (Str × Str)) :
    Carries (ownHeader o path host https) configured ↔
      ∀ name value, HeaderMap.lastValue configured name = some value → ownValue o name = some value := by
  unfold Carries
  simp only [get_ownHeader h, Option.toList_eq_singleton_iff]

/-- Next to another request source the configured headers are there only if the other options say
the same. -/
theorem headers_reach_iff (env : Env) (plugins : PluginEnv) (a : Args) (o : OptionsImpl)
    (h : fromArgs env a = .ok o) :
    ∃ header,
      (create plugins o = if o.requestSource ≠ [] then some (.remote header)
        else match o.requestSourcePluginConfig with
          | some config => loadRequestSourcePlugin plugins config header
          | none => some (.static header (UInt64.ofNat (2 ^ 64 - 1)))) ∧
      (Carries header (a.requestHeaders.filterMap splitHeader) ↔
        (a.requestSource.getD [] = [] ∧ a.requestSourcePluginConfig = []) ∨
          ∀ name value, HeaderMap.lastValue (a.requestHeaders.filterMap splitHeader) name = some value →
            ownValue o name = some value) := by
  have haccepted : Accepted env o := Or.inr ⟨a, h⟩
  obtain ⟨hheaders, hsource, hplugin⟩ := fromArgs_request h
  obtain ⟨path, host, https, htarget, hheader⟩ := createHeader_eq haccepted.validate
  refine ⟨_, create_of_header plugins hheader, ?_⟩
  have hkind : o.requestSource = [] ∧ o.requestSourcePluginConfig = none ↔
      a.requestSource.getD [] = [] ∧ a.requestSourcePluginConfig = [] := by rw [hsource, hplugin]
  unfold emittedHeaders
  by_cases hstatic : a.requestSource.getD [] = [] ∧ a.requestSourcePluginConfig = []
  · rw [if_pos (hkind.mpr hstatic), hheaders]
    exact iff_of_true (carries_setAll _ _) (Or.inl hstatic)
  · rw [if_neg (mt hkind.mp hstatic)]
    have hown := carries_own htarget (a.requestHeaders.filterMap splitHeader)
    exact ⟨fun hcarries => Or.inr (hown.mp hcarries), fun hor => hown.mpr (hor.resolve_left hstatic)⟩

/-- Two headers of one name, with or without a remote request source. -/
def twoHeaders (requestSource : Option Str) : Args :=
  { uri := some "http://a".toList, requestHeaders := ["X: b".toList, "x: c".toList], requestSource }

theorem headers_reach_static :
    ∃ o header n, fromArgs plainEnv (twoHeaders none) = .ok o ∧ create noPlugins o = some (.static header n) ∧
      header.get "x".toList = ["c".toList] := by
  obtain ⟨header, hcreate, hcarries⟩ := headers_reach_iff plainEnv noPlugins (twoHeaders none) _ rfl
  exact ⟨_, header, _, rfl, hcreate, hcarries.mpr (Or.inl ⟨rfl, rfl⟩) _ _ rfl⟩

theorem remote_source_drops_headers :
    ∃ o header, fromArgs plainEnv (twoHeaders (some "grpc://b".toList)) = .ok o ∧
      create noPlugins o = some (.remote header) ∧ header.get "x".toList = [] :=
  ⟨_, _, rfl, rfl, rfl⟩

end Nighthawk.RequestSource
