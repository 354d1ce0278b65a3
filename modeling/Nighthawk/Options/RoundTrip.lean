import Nighthawk.Options.Accepted

/-!
# Options through a message and back

Options are built from a message, turned into a message again, and built from that one. Most
members come back as they were. The tunnel does not, and the body size only comes back with a
request header.
-/

namespace Nighthawk.Options

/-! ## Headers -/

theorem splitHeader_headerString {header : Str} {h : HeaderValueOption}
    (hsplit : splitHeader header = some (h.key, h.value)) (hkey : h.key ≠ []) :
    splitHeader (headerString h) = some (h.key, h.value) := by
  obtain ⟨key, value, append⟩ := h
  cases header with
  | nil => cases hsplit
  | cons c rest =>
    obtain ⟨⟨before, after⟩, hcut, heq⟩ := Option.map_eq_some_iff.mp hsplit
    simp only [Prod.mk.injEq] at heq
    obtain ⟨rfl, rfl⟩ := heq
    have htail : (Text.strip (c :: before)).tail.Sublist before := (Text.strip_sublist (c :: before)).tail
    have hstrip := Text.strip_strip (c :: before)
    -- No colon is left after the first character of the key.
    have hcolon : ':' ∉ (Text.strip (c :: before)).tail :=
      fun hmem => (Text.cut_eq_some hcut).2 (htail.subset hmem)
    cases hk : Text.strip (c :: before) with
    | nil => exact absurd hk hkey
    | cons d k =>
      rw [hk] at hstrip
      have hcolon : ':' ∉ k := by rwa [hk] at hcolon
      show (Text.cut ':' (k ++ ':' :: Text.strip after)).map _ = _
      rw [Text.cut_append hcolon]
      simp only [Option.map_some, hstrip, Text.strip_strip]

theorem emitHeader_headerString {header : Str} {h : HeaderValueOption} (hemit : emitHeader header = .ok h)
    (hkey : h.key ≠ []) : emitHeader (headerString h) = .ok h := by
  obtain ⟨hsplit, happend⟩ := emitHeader_eq_ok.mp hemit
  exact emitHeader_eq_ok.mpr ⟨splitHeader_headerString hsplit hkey, happend⟩

/-! ## Times and numbers -/

theorem ofInt_uint32ToDuration (v : UInt32) : UInt32.ofInt (uint32ToDuration v).seconds = v := by
  apply UInt32.toNat_inj.mp
  have hlt := v.toNat_lt
  simp only [uint32ToDuration, UInt32.ofInt, UInt32.toNat_ofNat']
  omega

theorem int64_of_range {v : ℤ} (h : -2 ^ 63 ≤ v ∧ v < 2 ^ 63) : int64 v = v := by
  unfold int64
  rw [Int.bmod_def]
  omega

theorem int64_range (v : ℤ) : -2 ^ 63 ≤ int64 v ∧ int64 v < 2 ^ 63 := by
  unfold int64
  rw [Int.bmod_def]
  omega

theorem int64_int64 (v : ℤ) : int64 (int64 v) = int64 v := int64_of_range (int64_range v)

theorem durationToNanoseconds_nanosecondsToDuration {v : ℤ} (h : int64 v = v) :
    durationToNanoseconds (nanosecondsToDuration v) = v := by
  unfold durationToNanoseconds nanosecondsToDuration nanosPerSecond
  rw [show v / 1000000000 * 1000000000 + v % 1000000000 = v by omega, h]

theorem timestampToSystemTime_nanosecondsToTimestamp (t : Timestamp) :
    timestampToSystemTime (nanosecondsToTimestamp (timestampToSystemTime t)) = timestampToSystemTime t := by
  obtain ⟨hlow, hhigh⟩ := int64_range (t.nanos + t.seconds * nanosPerSecond)
  unfold timestampToSystemTime
  generalize int64 (t.nanos + t.seconds * nanosPerSecond) = w at hlow hhigh ⊢
  have hcut : -2 ^ 63 ≤ w.tdiv 1000 * 1000 ∧ w.tdiv 1000 * 1000 < 2 ^ 63 := by
    rcases Int.le_total 0 w with hw | hw
    · rw [Int.tdiv_eq_ediv_of_nonneg hw]
      omega
    · have hneg : (-w).tdiv 1000 = -w / 1000 := Int.tdiv_eq_ediv_of_nonneg (by omega)
      rw [Int.neg_tdiv] at hneg
      omega
  simp only [nanosecondsToTimestamp, nanosPerSecond]
  rw [show ∀ c : ℤ, c % 1000000000 + c / 1000000000 * 1000000000 = c by omega, int64_of_range hcut,
    Int.mul_tdiv_cancel _ (by omega)]

/-! ## What the constructor leaves in the members -/

def OptionsImpl.flushesByDuration (o : OptionsImpl) : Prop :=
  o.statsFlushIntervalDuration.seconds > 0 ∨ o.statsFlushIntervalDuration.nanos > 0

structure Settled (o : OptionsImpl) : Prop where
  duration : o.noDuration = true → o.duration = 5
  protocol : o.h2 = true → o.protocolOption = .named .http1
  targets : o.uri ≠ none →
    o.multiTargetPath = [] ∧ o.multiTargetUseHttps = false ∧ o.multiTargetEndpoints = []
  source : o.requestSource ≠ [] → o.requestSourcePluginConfig = none
  request : o.requestSource ≠ [] ∨ o.requestSourcePluginConfig ≠ none →
    o.requestHeaders = [] ∧ o.requestMethod = .named .get ∧ o.requestBodySize = 0
  method : o.requestMethod ≠ .named .methodUnspecified
  terminations : SortedMap.Sorted o.terminationPredicates
  failures : SortedMap.Sorted o.failurePredicates
  defaults : o.failurePredicates = [] → o.noDefaultFailurePredicates = true
  jitter : int64 o.jitterUniform = o.jitterUniform
  flush : o.flushesByDuration → o.statsFlushInterval = 5
  noFlush : ¬o.flushesByDuration → o.statsFlushIntervalDuration = {}
  start : ∀ time, o.scheduledStart = some time → timestampToSystemTime (nanosecondsToTimestamp time) = time
  rateLimiter : o.rateLimiterPluginConfig ≠ none → o.burstSize = 0 ∧ o.jitterUniform = 0

/-- No duration of the message is negative. -/
structure CommandLineOptions.NonNegative (p : CommandLineOptions) : Prop where
  duration : ∀ d, p.durationOptions = some (.duration d) → 0 ≤ d.seconds ∧ 0 ≤ d.nanos
  timeout : ∀ d, p.timeout = some d → 0 ≤ d.seconds ∧ 0 ≤ d.nanos
  jitter : ∀ d, p.jitterUniform = some d → 0 ≤ d.seconds ∧ 0 ≤ d.nanos
  flush : ∀ d, p.statsFlush = some (.statsFlushIntervalDuration d) → 0 ≤ d.seconds ∧ 0 ≤ d.nanos

theorem defaultFailurePredicates_sorted : SortedMap.Sorted defaultFailurePredicates := by
  unfold SortedMap.Sorted
  decide

theorem checkRateLimiterPlugin_eq_ok {p : CommandLineOptions} (h : checkRateLimiterPlugin p = .ok ())
    (hplugin : p.rateLimiterPluginConfig ≠ none) :
    p.burstSize.getD 0 = 0 ∧ (p.jitterUniform.getD {}).seconds = 0 ∧ (p.jitterUniform.getD {}).nanos = 0 := by
  unfold checkRateLimiterPlugin at h
  rw [if_neg hplugin, Fallible.bind_eq_ok] at h
  obtain ⟨_, hburst, hjitter⟩ := h
  have hb := reject_eq_ok.mp hburst
  have hj := reject_eq_ok.mp hjitter
  exact ⟨not_not.mp hb, by_contra fun h => hj (Or.inl h), by_contra fun h => hj (Or.inr h)⟩

theorem settled_configure {p : CommandLineOptions} (hneg : p.NonNegative)
    (hcheck : checkRateLimiterPlugin p = .ok ()) : Settled (configure p) where
  duration := by
    rcases h : p.durationOptions with _ | (d | b) <;> simp [configure, h, setNonTrivialDefaults]
  protocol := by
    rcases h : p.protocol with _ | (b | v) <;> simp [configure, h, setNonTrivialDefaults]
  targets := by
    rcases h : p.uri with _ | (v | m) <;> simp [configure, h, setNonTrivialDefaults]
  source := by
    rcases h : p.request with _ | (r | u | c) <;> simp [configure, h, setNonTrivialDefaults]
  request := by
    rcases h : p.request with _ | (r | u | c) <;> simp [configure, h, setNonTrivialDefaults]
  method := by
    simp only [configure]
    split_ifs with h
    · simp [setNonTrivialDefaults]
    · exact h
  terminations := SortedMap.sorted_setAll List.Pairwise.nil _
  failures := by
    simp only [configure]
    split
    · exact SortedMap.sorted_setAll List.Pairwise.nil _
    · exact SortedMap.sorted_setAll defaultFailurePredicates_sorted _
  defaults := by
    intro hnil
    by_contra hno
    simp only [configure] at hnil hno
    refine SortedMap.setAll_ne_nil ?_ hnil
    by_cases hl : p.failurePredicates = []
    · left
      rw [if_neg (not_or.mpr ⟨hno, not_not.mpr hl⟩)]
      exact List.cons_ne_nil _ _
    · exact Or.inr hl
  jitter := by
    rcases h : p.jitterUniform with _ | d
    · simp only [configure, h]
      rfl
    · simp only [configure, h]
      exact int64_int64 _
  flush := by
    rcases h : p.statsFlush with _ | (v | d) <;>
      simp [configure, h, setNonTrivialDefaults, OptionsImpl.flushesByDuration]
  noFlush := by
    rcases h : p.statsFlush with _ | (v | d)
    · simp [configure, h, setNonTrivialDefaults]
    · simp [configure, h, setNonTrivialDefaults]
    · obtain ⟨hs, hn⟩ := hneg.flush d h
      intro hzero
      simp only [configure, h, OptionsImpl.flushesByDuration, not_or] at hzero ⊢
      obtain ⟨seconds, nanos⟩ := d
      simp only [Duration.mk.injEq] at hs hn hzero ⊢
      omega
  start := by
    intro time htime
    obtain ⟨t, -, rfl⟩ := Option.map_eq_some_iff.mp htime
    exact timestampToSystemTime_nanosecondsToTimestamp t
  rateLimiter := by
    intro hplugin
    obtain ⟨hburst, hs, hn⟩ := checkRateLimiterPlugin_eq_ok hcheck hplugin
    refine ⟨hburst, ?_⟩
    rcases h : p.jitterUniform with _ | d
    · simp [configure, h, setNonTrivialDefaults]
    · rw [h] at hs hn
      simp only [Option.getD_some] at hs hn
      simp [configure, h, durationToNanoseconds, hs, hn, int64]

/-! ## The second construction -/

/-- The options that come back. -/
def comesBack (o : OptionsImpl) (request : OneofRequestOptions) : OptionsImpl :=
  { o with
    requestHeaders := request.headers.map headerString
    requestBodySize := if o.requestHeaders = [] then 0 else o.requestBodySize
    jitterUniform := if o.jitterUniform > 0 then o.jitterUniform else 0
    multiTargetEndpoints := o.multiTargetEndpoints.map emitEndpoint
    h2UseMultipleConnections := false
    tunnelProtocolOption := .named .http1
    tunnelUri := []
    encapPort := 0
    tunnelTlsContext := none }

section
variable {o : OptionsImpl} (hs : Settled o) {r : OneofRequestOptions}
include hs

theorem duration_comesBack :
    (configure (emit o r)).duration = o.duration ∧ (configure (emit o r)).noDuration = o.noDuration := by
  cases h : o.noDuration with
  | true => simp [configure, emit, h, setNonTrivialDefaults, hs.duration h]
  | false => simp [configure, emit, h, setNonTrivialDefaults, ofInt_uint32ToDuration]

theorem protocol_comesBack :
    (configure (emit o r)).h2 = o.h2 ∧ (configure (emit o r)).protocolOption = o.protocolOption := by
  cases h : o.h2 with
  | true => simp [configure, emit, h, setNonTrivialDefaults, hs.protocol h]
  | false => simp [configure, emit, h, setNonTrivialDefaults]

theorem targets_comeBack :
    (configure (emit o r)).uri = o.uri ∧ (configure (emit o r)).multiTargetPath = o.multiTargetPath ∧
      (configure (emit o r)).multiTargetUseHttps = o.multiTargetUseHttps ∧
      (configure (emit o r)).multiTargetEndpoints = o.multiTargetEndpoints.map emitEndpoint := by
  cases h : o.uri with
  | none => simp [configure, emit, h, setNonTrivialDefaults]
  | some v =>
    obtain ⟨hpath, hhttps, hendpoints⟩ := hs.targets (by simp [h])
    simp [configure, emit, h, setNonTrivialDefaults, hpath, hhttps, hendpoints]

theorem request_comesBack (hr : emitRequest o = .ok r) :
    (configure (emit o r)).requestMethod = o.requestMethod ∧
      (configure (emit o r)).requestHeaders = r.headers.map headerString ∧
      (configure (emit o r)).requestBodySize = (if o.requestHeaders = [] then 0 else o.requestBodySize) ∧
      (configure (emit o r)).requestSource = o.requestSource ∧
      (configure (emit o r)).requestSourcePluginConfig = o.requestSourcePluginConfig := by
  rcases emitRequest_eq_ok hr with ⟨hsource, rfl⟩ | ⟨hsource, c, hc, rfl⟩ | ⟨hsource, hnone, headers, -, rfl⟩
  · obtain ⟨hheaders, hmethod, hsize⟩ := hs.request (Or.inl hsource)
    simp [configure, emit, setNonTrivialDefaults, OneofRequestOptions.headers, hmethod, hheaders,
      hs.source hsource]
  · obtain ⟨hheaders, hmethod, hsize⟩ := hs.request (Or.inr (by simp [hc]))
    simp [configure, emit, setNonTrivialDefaults, OneofRequestOptions.headers, hmethod, hheaders, hsource, hc]
  · have hmethod := hs.method
    simp only [configure, emit, setNonTrivialDefaults, OneofRequestOptions.headers, hmethod, if_false,
      hsource, hnone, true_and, and_true]
    split_ifs <;> rfl

theorem predicates_comeBack :
    (configure (emit o r)).terminationPredicates = o.terminationPredicates ∧
      (configure (emit o r)).failurePredicates = o.failurePredicates := by
  refine ⟨SortedMap.setAll_nil hs.terminations, ?_⟩
  have hcleared : o.noDefaultFailurePredicates = true ∨ o.failurePredicates ≠ [] := by
    by_cases h : o.failurePredicates = []
    · exact Or.inl (hs.defaults h)
    · exact Or.inr h
  show SortedMap.setAll (if o.noDefaultFailurePredicates = true ∨ o.failurePredicates ≠ [] then [] else _)
    o.failurePredicates = o.failurePredicates
  rw [if_pos hcleared]
  exact SortedMap.setAll_nil hs.failures

theorem jitter_comesBack :
    (configure (emit o r)).jitterUniform = if o.jitterUniform > 0 then o.jitterUniform else 0 := by
  by_cases h : o.jitterUniform > 0
  · simp only [configure, emit, if_pos h]
    exact durationToNanoseconds_nanosecondsToDuration hs.jitter
  · simp only [configure, emit, if_neg h]
    rfl

theorem flush_comesBack :
    (configure (emit o r)).statsFlushInterval = o.statsFlushInterval ∧
      (configure (emit o r)).statsFlushIntervalDuration = o.statsFlushIntervalDuration := by
  by_cases h : o.flushesByDuration
  · have hinterval := hs.flush h
    unfold OptionsImpl.flushesByDuration at h
    simp [configure, emit, h, setNonTrivialDefaults, hinterval]
  · have hduration := hs.noFlush h
    simp [configure, emit, setNonTrivialDefaults, hduration]

theorem start_comesBack : (configure (emit o r)).scheduledStart = o.scheduledStart := by
  cases h : o.scheduledStart with
  | none => simp [configure, emit, h]
  | some time => simp [configure, emit, h, hs.start time h]

end

theorem tlsContext_comesBack (o : OptionsImpl) (r : OneofRequestOptions) :
    (configure (emit o r)).tlsContext = o.tlsContext := by
  cases h : o.tlsContext <;> simp [configure, emit, h, setNonTrivialDefaults]

attribute [ext (iff := false)] OptionsImpl

theorem configure_emit {o : OptionsImpl} (hs : Settled o) {r : OneofRequestOptions}
    (hr : emitRequest o = .ok r) :
    configure (emit o r) = comesBack o r := by
  obtain ⟨hmethod, hheaders, hsize, hsource, hplugin⟩ := request_comesBack hs hr
  obtain ⟨huri, hpath, hhttps, hendpoints⟩ := targets_comeBack (r := r) hs
  apply OptionsImpl.ext
  case duration => exact (duration_comesBack hs).1
  case noDuration => exact (duration_comesBack hs).2
  case timeout => exact ofInt_uint32ToDuration o.timeout
  case uri => exact huri
  case multiTargetPath => exact hpath
  case multiTargetUseHttps => exact hhttps
  case multiTargetEndpoints => exact hendpoints
  case h2 => exact (protocol_comesBack hs).1
  case protocolOption => exact (protocol_comesBack hs).2
  case requestMethod => exact hmethod
  case requestHeaders => exact hheaders
  case requestBodySize => exact hsize
  case requestSource => exact hsource
  case requestSourcePluginConfig => exact hplugin
  case tlsContext => exact tlsContext_comesBack o r
  case terminationPredicates => exact (predicates_comeBack hs).1
  case failurePredicates => exact (predicates_comeBack hs).2
  case jitterUniform => exact jitter_comesBack hs
  case statsFlushInterval => exact (flush_comesBack hs).1
  case statsFlushIntervalDuration => exact (flush_comesBack hs).2
  case scheduledStart => exact start_comesBack hs
  all_goals rfl

/-! ## The second message -/

/-- The rule of the header message: its key is not empty. -/
def Env.RejectsEmptyKeys (env : Env) : Prop :=
  ∀ q r, env.importedRules q = true → q.request = some (.requestOptions r) →
    ∀ h ∈ r.requestHeaders, h.key ≠ []

/-- What is known of the libraries: header names are not empty in a valid message, and a port
that is available is not zero. -/
structure Env.Lawful (env : Env) : Prop where
  keys : env.RejectsEmptyKeys
  port : ∀ udp family port, env.availablePort udp family = some port → port ≠ 0

attribute [ext (iff := false)] CommandLineOptions

theorem emitEndpoint_emitEndpoint (e : Endpoint) : emitEndpoint (emitEndpoint e) = emitEndpoint e := rfl

theorem emit_comesBack (o : OptionsImpl) (r : OneofRequestOptions) : emit (comesBack o r) r = emit o r := by
  apply CommandLineOptions.ext
  case uri =>
    cases h : o.uri <;> simp [emit, comesBack, h, emitEndpoint_emitEndpoint, Function.comp_def]
  case jitterUniform =>
    by_cases h : o.jitterUniform > 0 <;> simp [emit, comesBack, h]
  all_goals rfl

section
variable {strings : List Str} {headers : List HeaderValueOption}
  (hheaders : List.Forall₂ (fun header v => emitHeader header = .ok v) strings headers)
  (hkeys : ∀ h ∈ headers, h.key ≠ [])
include hheaders hkeys

theorem mapM_emitHeader_headerString : (headers.map headerString).mapM emitHeader = .ok headers := by
  rw [Fallible.mapM_eq_ok, List.forall₂_map_left_iff]
  induction hheaders with
  | nil => exact .nil
  | cons hemit _ ih =>
    refine .cons (emitHeader_headerString hemit (hkeys _ List.mem_cons_self)) (ih ?_)
    exact fun h hmem => hkeys h (List.mem_cons_of_mem _ hmem)

theorem map_splitHeader_headerString :
    (headers.map headerString).map splitHeader = strings.map splitHeader := by
  induction hheaders with
  | nil => rfl
  | cons hemit _ ih =>
    have hsplit := (emitHeader_eq_ok.mp hemit).1
    have hhead := splitHeader_headerString hsplit (hkeys _ List.mem_cons_self)
    have htail := ih fun h hmem => hkeys h (List.mem_cons_of_mem _ hmem)
    simp only [List.map_cons, hsplit, htail]
    exact congrArg (· :: _) hhead

end

theorem emitRequest_comesBack {o : OptionsImpl} {r : OneofRequestOptions} (hr : emitRequest o = .ok r)
    (hkeys : ∀ h ∈ r.headers, h.key ≠ []) : emitRequest (comesBack o r) = .ok r := by
  rcases emitRequest_eq_ok hr with ⟨hsource, rfl⟩ | ⟨hsource, c, hc, rfl⟩ | ⟨hsource, hnone, headers,
    hheaders, rfl⟩
  · simp [emitRequest, comesBack, hsource]
  · simp [emitRequest, comesBack, hsource, hc]
  · have hagain := mapM_emitHeader_headerString hheaders hkeys
    have hempty : headers.map headerString = [] ↔ o.requestHeaders = [] := by
      rw [List.map_eq_nil_iff, ← List.length_eq_zero_iff, ← hheaders.length_eq, List.length_eq_zero_iff]
    simp only [emitRequest, comesBack, OneofRequestOptions.headers, hsource, hnone, hagain]
    by_cases h : o.requestHeaders = []
    · have hheadersNil : headers = [] := List.map_eq_nil_iff.mp (hempty.mpr h)
      subst hheadersNil
      simp [h, bind, Except.bind, pure, Except.pure]
    · have hheadersNil : headers ≠ [] := fun heq => h (hempty.mp (by simp [heq]))
      simp [h, hheadersNil, bind, Except.bind, pure, Except.pure]

theorem checkRateLimiterPlugin_emit {o : OptionsImpl} (hs : Settled o) (r : OneofRequestOptions) :
    checkRateLimiterPlugin (emit o r) = .ok () := by
  unfold checkRateLimiterPlugin
  by_cases h : (emit o r).rateLimiterPluginConfig = none
  · rw [if_pos h]
  · obtain ⟨hburst, hjitter⟩ := hs.rateLimiter h
    have hnone : (emit o r).jitterUniform = none := by simp [emit, hjitter]
    rw [if_neg h, Fallible.check_bind_eq_ok, reject_eq_ok]
    refine ⟨fun hne => hne hburst, ?_⟩
    rw [hnone]
    rfl

theorem keys_of_validate {env : Env} (hrule : env.RejectsEmptyKeys) {o : OptionsImpl}
    (hvalid : validate env o = .ok ()) {r : OneofRequestOptions} (hr : emitRequest o = .ok r) :
    ∀ h ∈ r.headers, h.key ≠ [] := by
  obtain ⟨-, -, -, -, r', hr', -, himported⟩ := validate_eq_ok.mp hvalid
  obtain rfl : r = r' := Except.ok.inj (hr.symm.trans hr')
  cases r with
  | requestOptions v => exact hrule _ v himported rfl
  | requestSource uri => simp [OneofRequestOptions.headers]
  | requestSourcePluginConfig c => simp [OneofRequestOptions.headers]

theorem fromProto_emit {env : Env} (hrule : env.RejectsEmptyKeys) {o : OptionsImpl} (hs : Settled o)
    (hvalid : validate env o = .ok ()) {r : OneofRequestOptions} (hr : emitRequest o = .ok r) :
    fromProto env (emit o r) = .ok (comesBack o r) := by
  have hkeys := keys_of_validate hrule hvalid hr
  obtain ⟨-, hconcurrency, hsource, htargets, r', hr', hrules, himported⟩ := validate_eq_ok.mp hvalid
  obtain rfl : r = r' := Except.ok.inj (hr.symm.trans hr')
  have htargets' : validateTargets (comesBack o r) = .ok () := by
    simpa [validateTargets, comesBack] using htargets
  have hagain : validate env (comesBack o r) = .ok () := by
    refine validate_eq_ok.mpr ⟨rfl, hconcurrency, hsource, htargets', r, emitRequest_comesBack hr hkeys, ?_⟩
    rw [emit_comesBack]
    exact ⟨hrules, himported⟩
  rw [fromProto_eq_ok, configure_emit hs hr]
  exact ⟨rfl, checkRateLimiterPlugin_emit hs r, hagain⟩

/-! ## What the accessors show -/

/-- Everything the accessors show. Header strings are compared as names and values without the
white space around them, and endpoints by address and port. -/
@[ext (iff := false)] structure Configuration where
  requestsPerSecond : UInt32
  connections : UInt32
  duration : UInt32
  timeout : UInt32
  uri : Option Str
  protocol : BenchmarkClient.Protocol
  tunnelProtocol : BenchmarkClient.Protocol
  tunnelUri : Str
  encapPort : UInt32
  tunnelTlsContext : Option Message
  http3ProtocolOptions : Option Message
  concurrency : Str
  verbosity : Enum VerbosityOptions
  outputFormat : Enum OutputFormatOptions
  prefetchConnections : Bool
  burstSize : UInt32
  addressFamily : Enum AddressFamilyOptions
  requestMethod : Enum RequestMethod
  requestHeaders : List (Option (Str × Str))
  requestBodySize : UInt32
  tlsContext : Message
  upstreamBindConfig : Option Message
  transportSocket : Option Message
  maxPendingRequests : UInt32
  maxActiveRequests : UInt32
  maxRequestsPerConnection : UInt32
  maxConcurrentStreams : UInt32
  sequencerIdleStrategy : Enum SequencerIdleStrategyOptions
  requestSource : Str
  requestSourcePluginConfig : Option TypedExtensionConfig
  rateLimiterPluginConfig : Option TypedExtensionConfig
  trace : Str
  h1ConnectionReuseStrategy : Enum H1ConnectionReuseStrategyOptions
  terminationPredicates : List (Str × UInt64)
  failurePredicates : List (Str × UInt64)
  noDefaultFailurePredicates : Bool
  openLoop : Bool
  jitterUniform : ℤ
  nighthawkService : Str
  multiTargetEndpoints : List (Str × UInt32)
  multiTargetPath : Str
  multiTargetUseHttps : Bool
  labels : List Str
  simpleWarmup : Bool
  noDuration : Bool
  statsSinks : List Message
  statsFlushInterval : UInt32
  statsFlushIntervalDuration : Duration
  responseHeaderWithLatencyInput : Str
  scheduledStart : Option ℤ
  executionId : Option Str
  userDefinedOutputPluginConfigs : List TypedExtensionConfig

def OptionsImpl.configuration (o : OptionsImpl) : Configuration where
  requestsPerSecond := o.requestsPerSecond
  connections := o.connections
  duration := o.duration
  timeout := o.timeout
  uri := o.uri
  protocol := o.protocol
  tunnelProtocol := o.tunnelProtocol
  tunnelUri := o.tunnelUri
  encapPort := o.encapPort
  tunnelTlsContext := o.tunnelTlsContext
  http3ProtocolOptions := o.http3ProtocolOptions
  concurrency := o.concurrency
  verbosity := o.verbosity
  outputFormat := o.outputFormat
  prefetchConnections := o.prefetchConnections
  burstSize := o.burstSize
  addressFamily := o.addressFamily
  requestMethod := o.requestMethod
  requestHeaders := o.requestHeaders.map splitHeader
  requestBodySize := o.requestBodySize
  tlsContext := o.tlsContext
  upstreamBindConfig := o.upstreamBindConfig
  transportSocket := o.transportSocket
  maxPendingRequests := o.maxPendingRequests
  maxActiveRequests := o.maxActiveRequests
  maxRequestsPerConnection := o.maxRequestsPerConnection
  maxConcurrentStreams := o.maxConcurrentStreams
  sequencerIdleStrategy := o.sequencerIdleStrategy
  requestSource := o.requestSource
  requestSourcePluginConfig := o.requestSourcePluginConfig
  rateLimiterPluginConfig := o.rateLimiterPluginConfig
  trace := o.trace
  h1ConnectionReuseStrategy := o.experimentalH1ConnectionReuseStrategy
  terminationPredicates := o.terminationPredicates
  failurePredicates := o.failurePredicates
  noDefaultFailurePredicates := o.noDefaultFailurePredicates
  openLoop := o.openLoop
  jitterUniform := o.jitterUniform
  nighthawkService := o.nighthawkService
  multiTargetEndpoints := o.multiTargetEndpoints.map fun e => (e.address.getD [], e.port.getD 0)
  multiTargetPath := o.multiTargetPath
  multiTargetUseHttps := o.multiTargetUseHttps
  labels := o.labels
  simpleWarmup := o.simpleWarmup
  noDuration := o.noDuration
  statsSinks := o.statsSinks
  statsFlushInterval := o.statsFlushInterval
  statsFlushIntervalDuration := o.statsFlushIntervalDuration
  responseHeaderWithLatencyInput := o.latencyResponseHeaderName
  scheduledStart := o.scheduledStart
  executionId := o.executionId
  userDefinedOutputPluginConfigs := o.userDefinedOutputPluginConfigs

/-- Members that have the values they start with. -/
def OptionsImpl.HasNoTunnel (o : OptionsImpl) : Prop :=
  o.tunnelProtocol = .http11 ∧ o.tunnelUri = [] ∧ o.encapPort = 0 ∧ o.tunnelTlsContext = none

theorem requestHeaders_comeBack {env : Env} (henv : env.Lawful) {o : OptionsImpl} (hs : Settled o)
    {r : OneofRequestOptions} (hr : emitRequest o = .ok r) (himported : env.importedRules (emit o r) = true) :
    (comesBack o r).requestHeaders.map splitHeader = o.requestHeaders.map splitHeader := by
  rcases emitRequest_eq_ok hr with ⟨hsource, rfl⟩ | ⟨hsource, c, hc, rfl⟩ | ⟨-, -, headers, hheaders, rfl⟩
  · simp [comesBack, OneofRequestOptions.headers, (hs.request (Or.inl hsource)).1]
  · simp [comesBack, OneofRequestOptions.headers, (hs.request (Or.inr (by simp [hc]))).1]
  · exact map_splitHeader_headerString hheaders (henv.keys _ _ himported rfl)

theorem configuration_comesBack {o : OptionsImpl} {r : OneofRequestOptions}
    (hheaders : (comesBack o r).requestHeaders.map splitHeader = o.requestHeaders.map splitHeader) :
    (comesBack o r).configuration = o.configuration ↔
      o.HasNoTunnel ∧ (o.requestHeaders = [] → o.requestBodySize = 0) ∧ 0 ≤ o.jitterUniform := by
  constructor
  · intro h
    have hjitter : (if o.jitterUniform > 0 then o.jitterUniform else 0) = o.jitterUniform :=
      congrArg Configuration.jitterUniform h
    have hsize : (if o.requestHeaders = [] then 0 else o.requestBodySize) = o.requestBodySize :=
      congrArg Configuration.requestBodySize h
    refine ⟨⟨?_, ?_, ?_, ?_⟩, ?_, ?_⟩
    · exact (congrArg Configuration.tunnelProtocol h).symm
    · exact (congrArg Configuration.tunnelUri h).symm
    · exact (congrArg Configuration.encapPort h).symm
    · exact (congrArg Configuration.tunnelTlsContext h).symm
    · intro hnil
      rw [if_pos hnil] at hsize
      exact hsize.symm
    · split_ifs at hjitter <;> omega
  · rintro ⟨⟨hprotocol, huri, hport, hcontext⟩, hsize, hjitter⟩
    apply Configuration.ext
    case requestHeaders => exact hheaders
    case tunnelProtocol => exact hprotocol.symm
    case tunnelUri => exact huri.symm
    case encapPort => exact hport.symm
    case tunnelTlsContext => exact hcontext.symm
    case requestBodySize =>
      show (if o.requestHeaders = [] then 0 else o.requestBodySize) = o.requestBodySize
      split_ifs with hnil
      · exact (hsize hnil).symm
      · rfl
    case jitterUniform =>
      show (if o.jitterUniform > 0 then o.jitterUniform else 0) = o.jitterUniform
      split_ifs <;> omega
    case multiTargetEndpoints =>
      simp [OptionsImpl.configuration, comesBack, emitEndpoint]
    all_goals rfl

/-! ## The round trip -/

theorem readTunnel_eq_ok {env : Env} {p : CommandLineOptions} {c o : OptionsImpl}
    (h : readTunnel env p c = .ok o) :
    (p.tunnelOptions = none ∧ o = c) ∨
      (p.tunnelOptions ≠ none ∧ ∃ udp family port protocol uri context,
        env.availablePort udp family = some port ∧
        o = { c with
          tunnelProtocolOption := protocol
          tunnelUri := uri
          encapPort := port.toUInt32
          tunnelTlsContext := context }) := by
  unfold readTunnel at h
  split at h
  · rename_i hnone
    exact Or.inl ⟨hnone, (Except.ok.inj h).symm⟩
  · rename_i tunnel htunnel
    split at h
    · cases h
    · rename_i port hport
      split at h
      · cases h
      · exact Or.inr ⟨by simp [htunnel], _, _, port, _, _, _, hport, (Except.ok.inj h).symm⟩

theorem settled_readTunnel {env : Env} {p : CommandLineOptions} {c o : OptionsImpl}
    (h : readTunnel env p c = .ok o)
    (hs : Settled c) : Settled o := by
  rcases readTunnel_eq_ok h with ⟨-, rfl⟩ | ⟨-, _, _, _, _, _, _, -, rfl⟩
  · exact hs
  · exact { hs with }

theorem hasNoTunnel_iff {env : Env} (henv : env.Lawful) {p : CommandLineOptions} {o : OptionsImpl}
    (h : readTunnel env p (configure p) = .ok o) : o.HasNoTunnel ↔ p.tunnelOptions = none := by
  rcases readTunnel_eq_ok h with ⟨hnone, rfl⟩ | ⟨hsome, udp, family, port, _, _, _, hport, rfl⟩
  · exact ⟨fun _ => hnone, fun _ => ⟨rfl, rfl, rfl, rfl⟩⟩
  · refine ⟨fun ⟨_, _, hzero, _⟩ => ?_, fun hnone => absurd hnone hsome⟩
    -- The port of a tunnel is not the zero that `encapPort` starts with.
    have hnat := congrArg UInt32.toNat hzero
    exact absurd (UInt16.toNat_inj.mp (by simpa using hnat)) (henv.port udp family port hport)

/-- The messages whose configuration survives. -/
structure CommandLineOptions.Survives (p : CommandLineOptions) : Prop where
  tunnel : p.tunnelOptions = none
  bodySize : ∀ r, p.request = some (.requestOptions r) → r.requestBodySize.getD 0 ≠ 0 → r.requestHeaders ≠ []
  jitter : ∀ d, p.jitterUniform = some d → 0 ≤ durationToNanoseconds d

theorem bodySize_iff (p : CommandLineOptions) :
    ((configure p).requestHeaders = [] → (configure p).requestBodySize = 0) ↔
      ∀ r, p.request = some (.requestOptions r) → r.requestBodySize.getD 0 ≠ 0 → r.requestHeaders ≠ [] := by
  rcases h : p.request with _ | (r | u | c)
  · simp [configure, h, setNonTrivialDefaults]
  · have hsize : (configure p).requestBodySize = r.requestBodySize.getD 0 := by
      simp [configure, h, setNonTrivialDefaults]
    have hheaders : (configure p).requestHeaders = [] ↔ r.requestHeaders = [] := by simp [configure, h]
    rw [hsize, hheaders]
    constructor
    · rintro himp r' hr' hne hnil
      simp only [Option.some.injEq, OneofRequestOptions.requestOptions.injEq] at hr'
      subst hr'
      exact hne (himp hnil)
    · intro himp hnil
      by_contra hne
      exact himp r rfl hne hnil
  · simp [configure, h, setNonTrivialDefaults]
  · simp [configure, h, setNonTrivialDefaults]

theorem jitter_iff (p : CommandLineOptions) :
    0 ≤ (configure p).jitterUniform ↔ ∀ d, p.jitterUniform = some d → 0 ≤ durationToNanoseconds d := by
  cases h : p.jitterUniform <;> simp [configure, h, setNonTrivialDefaults]

theorem round_trip_iff (env : Env) (henv : env.Lawful) (p : CommandLineOptions) (hneg : p.NonNegative)
    (o : OptionsImpl) (h : fromProto env p = .ok o) :
    (∃ q o', toCommandLineOptions o = .ok q ∧ fromProto env q = .ok o' ∧ o'.configuration = o.configuration) ↔
      p.Survives := by
  obtain ⟨hread, hcheck, hvalid⟩ := fromProto_eq_ok.mp h
  have hs := settled_readTunnel hread (settled_configure hneg hcheck)
  obtain ⟨-, -, -, -, r, hr, -, himported⟩ := validate_eq_ok.mp hvalid
  have hsecond := fromProto_emit henv.keys hs hvalid hr
  have hmembers : o.requestHeaders = (configure p).requestHeaders ∧
      o.requestBodySize = (configure p).requestBodySize ∧ o.jitterUniform = (configure p).jitterUniform := by
    rcases readTunnel_eq_ok hread with ⟨-, rfl⟩ | ⟨-, _, _, _, _, _, _, -, rfl⟩
    · exact ⟨rfl, rfl, rfl⟩
    · exact ⟨rfl, rfl, rfl⟩
  have hsame := configuration_comesBack (requestHeaders_comeBack henv hs hr himported)
  rw [hasNoTunnel_iff henv hread, hmembers.1, hmembers.2.1, hmembers.2.2, bodySize_iff, jitter_iff] at hsame
  constructor
  · rintro ⟨q, o', hq, ho', hconf⟩
    obtain ⟨r', hr', rfl⟩ := toCommandLineOptions_eq_ok.mp hq
    obtain rfl : r = r' := Except.ok.inj (hr.symm.trans hr')
    obtain rfl : comesBack o r = o' := Except.ok.inj (hsecond.symm.trans ho')
    obtain ⟨htunnel, hsize, hjitter⟩ := hsame.mp hconf
    exact ⟨htunnel, hsize, hjitter⟩
  · intro hsurvives
    exact ⟨_, _, toCommandLineOptions_eq_ok.mpr ⟨r, hr, rfl⟩, hsecond,
      hsame.mpr ⟨hsurvives.tunnel, hsurvives.bodySize, hsurvives.jitter⟩⟩

theorem plainEnv_lawful : plainEnv.Lawful where
  keys := by
    intro q r himported hrequest
    simpa [plainEnv, hrequest] using himported
  port := by
    intro udp family port hport
    cases hport
    decide

/-- A body of ten bytes with one request header. -/
def tenBytes (headers : List HeaderValueOption) : CommandLineOptions :=
  { uri := some (.uri "http://a".toList)
    request := some (.requestOptions { requestHeaders := headers, requestBodySize := some 10 }) }

theorem tenBytes_nonNegative (headers : List HeaderValueOption) : (tenBytes headers).NonNegative := by
  constructor <;> intro d hd <;> cases hd

theorem round_trip_with_header :
    ∃ o q o', fromProto plainEnv (tenBytes [⟨"b".toList, " c".toList, none⟩]) = .ok o ∧
      toCommandLineOptions o = .ok q ∧ fromProto plainEnv q = .ok o' ∧ o'.configuration = o.configuration ∧
      o'.requestBodySize = 10 := by
  have hsurvives : (tenBytes [⟨"b".toList, " c".toList, none⟩]).Survives := by
    constructor <;> simp [tenBytes]
  obtain ⟨q, o', hq, ho', hconf⟩ :=
    (round_trip_iff plainEnv plainEnv_lawful _ (tenBytes_nonNegative _) _ rfl).mpr hsurvives
  exact ⟨_, q, o', rfl, hq, ho', hconf, congrArg Configuration.requestBodySize hconf⟩

/-- Without a header the body size is lost. -/
theorem round_trip_loses_body_size :
    ∃ o q o', fromProto plainEnv (tenBytes []) = .ok o ∧ toCommandLineOptions o = .ok q ∧
      fromProto plainEnv q = .ok o' ∧ o.requestBodySize = 10 ∧ o'.requestBodySize = 0 :=
  ⟨_, _, _, rfl, rfl, rfl, rfl, rfl⟩

/-! ## The emitted message is canonical -/

/-- A second pass changes nothing. The first one sorts the predicates, fills in defaults and
strips the headers. -/
theorem emitted_canonical (env : Env) (hrule : env.RejectsEmptyKeys) (p : CommandLineOptions)
    (hneg : p.NonNegative)
    (htunnel : p.tunnelOptions = none) (o : OptionsImpl) (h : fromProto env p = .ok o) :
    ∃ q o', toCommandLineOptions o = .ok q ∧ fromProto env q = .ok o' ∧ toCommandLineOptions o' = .ok q := by
  obtain ⟨hread, hcheck, hvalid⟩ := fromProto_eq_ok.mp h
  obtain rfl : configure p = o := by
    unfold readTunnel at hread
    rw [htunnel] at hread
    exact Except.ok.inj hread
  have hs := settled_configure hneg hcheck
  obtain ⟨-, -, -, -, r, hr, -, -⟩ := validate_eq_ok.mp hvalid
  have hagain := emitRequest_comesBack hr (keys_of_validate hrule hvalid hr)
  refine ⟨emit (configure p) r, comesBack (configure p) r, ?_, fromProto_emit hrule hs hvalid hr, ?_⟩
  · exact toCommandLineOptions_eq_ok.mpr ⟨r, hr, rfl⟩
  · exact toCommandLineOptions_eq_ok.mpr ⟨r, hagain, emit_comesBack _ r⟩

/-- A name that starts with a colon and a value that has one, with white space around the value. -/
def spacedHeader : CommandLineOptions :=
  { uri := some (.uri "http://a".toList)
    failurePredicates := [("c".toList, 1), ("b".toList, 2)]
    request := some (.requestOptions { requestHeaders := [⟨":b ".toList, " c:d ".toList, none⟩] }) }

theorem emitted_canonical_spaced :
    ∃ o q o', fromProto plainEnv spacedHeader = .ok o ∧ toCommandLineOptions o = .ok q ∧
      fromProto plainEnv q = .ok o' ∧ toCommandLineOptions o' = .ok q := by
  have hneg : spacedHeader.NonNegative := by
    constructor <;> intro d hd <;> cases hd
  obtain ⟨q, o', hq, ho', hagain⟩ :=
    emitted_canonical plainEnv plainEnv_lawful.keys spacedHeader hneg rfl _ rfl
  exact ⟨_, q, o', rfl, hq, ho', hagain⟩

end Nighthawk.Options
