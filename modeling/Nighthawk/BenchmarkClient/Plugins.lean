import Nighthawk.BenchmarkClient.Accounting

/-!
# What the output plugins see

The plugins get the headers of a response when its stream ends, and each data frame as it
arrives. A stream that is reset before its headers ends on the same path, with empty headers.
-/

namespace Nighthawk.BenchmarkClient

/-! ## The calls of one event -/

namespace StreamEvent

def headers : StreamEvent → Option ResponseHeaderMap
  | .decodeHeaders headers .. => some headers
  | _ => none

def data : StreamEvent → Option Str
  | .decodeData data .. => some data
  | _ => none

/-- The event ends the stream through `StreamDecoder::onComplete`. -/
def completes (e : StreamEvent) : Bool := e.ends && !e.isPoolFailure

end StreamEvent

namespace PluginCall

def headersTo (plugin : Nat) : PluginCall → Option ResponseHeaderMap
  | .handleResponseHeaders i headers => if i = plugin then some headers else none
  | .handleResponseData .. => none

def dataTo (plugin : Nat) : PluginCall → Option Str
  | .handleResponseData i data => if i = plugin then some data else none
  | .handleResponseHeaders .. => none

end PluginCall

def StreamDecoder.headersAfter (d : StreamDecoder) (e : StreamEvent) : Option ResponseHeaderMap :=
  e.headers.or d.responseHeaders

/-- The calls of every plugin for one event, in the order they are made. -/
def StreamDecoder.pluginCalls (c : Config) (d : StreamDecoder) (e : StreamEvent) : List PluginCall :=
  (if e.completes then
    (List.range c.userDefinedOutputPlugins).map (.handleResponseHeaders · ((d.headersAfter e).getD .empty))
   else []) ++
  e.data.toList.flatMap fun data => (List.range c.userDefinedOutputPlugins).map (.handleResponseData · data)

theorem foldl_appends {α β γ : Type} (f : α → List γ) (g : α → β → α) (call : β → γ)
    (h : ∀ a b, f (g a b) = f a ++ [call b]) (l : List β) (a : α) : f (l.foldl g a) = f a ++ l.map call := by
  induction l generalizing a with
  | nil => simp
  | cons b l ih => simp [ih, h]

theorem handleResponseData_pluginCalls (c : Config) (s : BenchmarkClientHttpImpl) (data : Str) :
    (s.handleResponseData c data).pluginCalls =
      s.pluginCalls ++ (List.range c.userDefinedOutputPlugins).map (.handleResponseData · data) := by
  apply foldl_appends
  intro s plugin
  simp only [BenchmarkClientHttpImpl.handleResponseDataOne]
  split <;> rfl

theorem client_onComplete_pluginCalls (c : Config) (s : BenchmarkClientHttpImpl) (success : Bool)
    (headers : ResponseHeaderMap) :
    (s.onComplete c success headers).pluginCalls =
      s.pluginCalls ++ (List.range c.userDefinedOutputPlugins).map (.handleResponseHeaders · headers) := by
  unfold BenchmarkClientHttpImpl.onComplete
  rw [foldl_appends BenchmarkClientHttpImpl.pluginCalls _ (.handleResponseHeaders · headers)]
  · cases success <;> rfl
  · intro s plugin
    simp only [BenchmarkClientHttpImpl.handleResponseHeadersOne]
    split <;> rfl

theorem decoder_onComplete_pluginCalls (c : Config) (d : StreamDecoder) (s : BenchmarkClientHttpImpl)
    (success : Bool)
    (now now' : Int) :
    (d.onComplete c s success now now').1.pluginCalls =
      s.pluginCalls ++
        (List.range c.userDefinedOutputPlugins).map
          (.handleResponseHeaders · (d.responseHeaders.getD .empty)) := by
  have hrecord : (d.recordLatency s now now').pluginCalls = s.pluginCalls := by
    unfold StreamDecoder.recordLatency
    cases d.streamInfo.responseCode <;> rfl
  simp only [StreamDecoder.onComplete, client_onComplete_pluginCalls]
  cases success && d.measureLatencies with
  | false => rfl
  | true => simp [hrecord]

/-- What a call of a decoder does for the plugins. -/
structure Delivers (c : Config) (d : StreamDecoder) (s : BenchmarkClientHttpImpl) (e : StreamEvent)
    (r : BenchmarkClientHttpImpl × Progress) : Prop where
  calls : r.1.pluginCalls = s.pluginCalls ++ d.pluginCalls c e
  progress : match r.2 with
    | .ongoing d' => e.ends = false ∧ d'.responseHeaders = d.headersAfter e
    | .ended _ _ => e.ends = true

theorem handle_delivers (c : Config) (d : StreamDecoder) (s : BenchmarkClientHttpImpl) (e : StreamEvent) :
    Delivers c d s e (d.handle c s e) := by
  cases e with
  | onPoolReady now =>
    simp only [StreamDecoder.handle, StreamDecoder.onPoolReady]
    refine ⟨?_, rfl, rfl⟩
    split <;> exact (List.append_nil _).symm
  | onPoolFailure reason => cases reason <;> exact ⟨(List.append_nil _).symm, rfl⟩
  | decodeHeaders headers endStream now now' =>
    simp only [StreamDecoder.handle, StreamDecoder.decodeHeaders]
    cases endStream with
    | false => exact ⟨(List.append_nil _).symm, rfl, rfl⟩
    | true =>
      refine ⟨(decoder_onComplete_pluginCalls c _ _ true now now').trans ?_, rfl⟩
      exact congrArg (s.pluginCalls ++ ·) (List.append_nil _).symm
  | decodeData data endStream now now' =>
    simp only [StreamDecoder.handle, StreamDecoder.decodeData]
    cases endStream with
    | false =>
      refine ⟨(handleResponseData_pluginCalls c s data).trans ?_, rfl, rfl⟩
      exact congrArg (s.pluginCalls ++ ·) (List.append_nil _).symm
    | true =>
      refine ⟨(handleResponseData_pluginCalls c _ data).trans ?_, rfl⟩
      rw [if_pos rfl, decoder_onComplete_pluginCalls, List.append_assoc]
      exact congrArg (fun l => s.pluginCalls ++ (_ ++ l)) (List.append_nil _).symm
  | decodeTrailers now now' =>
    refine ⟨(decoder_onComplete_pluginCalls c _ s true now now').trans ?_, rfl⟩
    exact congrArg (s.pluginCalls ++ ·) (List.append_nil _).symm
  | onResetStream reason now now' =>
    refine ⟨(decoder_onComplete_pluginCalls c _ s false now now').trans ?_, rfl⟩
    exact congrArg (s.pluginCalls ++ ·) (List.append_nil _).symm

theorem filterMap_range_eq {α : Type} (a : α) {n plugin : Nat} (h : plugin < n) :
    (List.range n).filterMap (fun i => if i = plugin then some a else none) = [a] := by
  induction n with
  | zero => omega
  | succ n ih =>
    rw [List.range_succ, List.filterMap_append]
    by_cases hn : n = plugin
    · have hnone : (List.range n).filterMap (fun i => if i = plugin then some a else none) = [] := by
        rw [List.filterMap_eq_nil_iff]
        intro i hi
        have := List.mem_range.mp hi
        rw [if_neg (by omega)]
      rw [hnone, hn]
      simp
    · rw [ih (by omega)]
      simp [hn]

theorem pluginCalls_headersTo (c : Config) (d : StreamDecoder) (e : StreamEvent) {plugin : Nat}
    (h : plugin < c.userDefinedOutputPlugins) :
    (d.pluginCalls c e).filterMap (PluginCall.headersTo plugin) =
      if e.completes then [(d.headersAfter e).getD .empty] else [] := by
  have hdata (data : Str) :
    ((List.range c.userDefinedOutputPlugins).map (PluginCall.handleResponseData · data)).filterMap
      (PluginCall.headersTo plugin) = [] := by
    simp [List.filterMap_map, PluginCall.headersTo, Function.comp_def]
  have hheaders := filterMap_range_eq ((d.headersAfter e).getD .empty) h
  rw [StreamDecoder.pluginCalls, List.filterMap_append]
  have hnone : (e.data.toList.flatMap fun data =>
      (List.range c.userDefinedOutputPlugins).map (PluginCall.handleResponseData · data)).filterMap
      (PluginCall.headersTo plugin) = [] := by
    cases e.data with
    | none => rfl
    | some data => simpa using hdata data
  rw [hnone, List.append_nil]
  split_ifs
  · rw [List.filterMap_map]
    exact hheaders
  · rfl

theorem pluginCalls_dataTo (c : Config) (d : StreamDecoder) (e : StreamEvent) {plugin : Nat}
    (h : plugin < c.userDefinedOutputPlugins) :
    (d.pluginCalls c e).filterMap (PluginCall.dataTo plugin) = e.data.toList := by
  have hnone : (if e.completes then (List.range c.userDefinedOutputPlugins).map
      (PluginCall.handleResponseHeaders · ((d.headersAfter e).getD .empty)) else []).filterMap
      (PluginCall.dataTo plugin) = [] := by
    split_ifs
    · simp [List.filterMap_map, PluginCall.dataTo, Function.comp_def]
    · rfl
  rw [StreamDecoder.pluginCalls, List.filterMap_append, hnone, List.nil_append]
  cases e.data with
  | none => rfl
  | some data =>
    simp only [Option.toList_some, List.flatMap_singleton, List.filterMap_map]
    exact filterMap_range_eq data h

/-! ## The calls of a run -/

def Event.stream? : Event → Option Nat
  | .stream id _ => some id
  | .tryStartRequest .. => none

/-- The calls during a run from `b`, each with the stream whose event made the call. -/
def deliveries (c : Config) : Benchmark → List Event → List (Nat × PluginCall)
  | _, [] => []
  | b, e :: es =>
    match step c b e with
    | none => []
    | some b' =>
      (e.stream?.toList.flatMap fun id =>
        (b'.client.pluginCalls.drop b.client.pluginCalls.length).map (id, ·)) ++ deliveries c b' es

/-- What one plugin was called with for one stream. -/
def seenBy {α : Type} (f : Nat → PluginCall → Option α) (plugin id : Nat)
    (ds : List (Nat × PluginCall)) : List α :=
  ds.filterMap fun d => if d.1 = id then f plugin d.2 else none

def receivedOn {α : Type} (f : StreamEvent → Option α) (id : Nat) (es : List Event) : List α :=
  es.filterMap fun
    | .stream i e => if i = id then f e else none
    | .tryStartRequest .. => none

theorem deliveries_snoc (c : Config) {b u : Benchmark} {es : List Event} (e : Event)
    (h : Runs.exec (step c) b es = some u) :
    deliveries c b (es ++ [e]) = deliveries c b es ++ deliveries c u [e] := by
  induction es generalizing b with
  | nil => cases h; rfl
  | cons f es ih =>
    obtain ⟨v, hv, hu⟩ := (Runs.exec_cons_eq_some _).mp h
    rw [List.cons_append]
    simp only [deliveries, hv, ih hu, List.append_assoc]

theorem deliveries_start (c : Config) (b : Benchmark) (pool : Bool) (request : Option Request) (now : Int) :
    deliveries c b [.tryStartRequest pool request now] = [] := by
  simp only [deliveries]
  cases step c b (.tryStartRequest pool request now) <;> rfl

theorem deliveries_stream {c : Config} {b b' : Benchmark} {id : Nat} {e : StreamEvent} {st : Stream}
    (hs : step c b (.stream id e) = some b')
    (hcalls : b'.client.pluginCalls = b.client.pluginCalls ++ st.decoder.pluginCalls c e) :
    deliveries c b [.stream id e] = (st.decoder.pluginCalls c e).map (id, ·) := by
  simp only [deliveries, hs, Event.stream?, hcalls, Option.toList_some, List.flatMap_singleton,
    List.drop_left, List.append_nil]

theorem seenBy_same {α : Type} (f : Nat → PluginCall → Option α) (plugin id : Nat) (calls : List PluginCall) :
    seenBy f plugin id (calls.map (id, ·)) = calls.filterMap (f plugin) := by
  simp [seenBy, List.filterMap_map]

theorem seenBy_other {α : Type} (f : Nat → PluginCall → Option α) (plugin : Nat) {i id : Nat} (h : id ≠ i)
    (calls : List PluginCall) : seenBy f plugin i (calls.map (id, ·)) = [] := by
  simp [seenBy, List.filterMap_map, h]

theorem seenBy_append {α : Type} (f : Nat → PluginCall → Option α) (plugin id : Nat)
    (ds ds' : List (Nat × PluginCall)) :
    seenBy f plugin id (ds ++ ds') = seenBy f plugin id ds ++ seenBy f plugin id ds' :=
  List.filterMap_append

theorem receivedOn_append {α : Type} (f : StreamEvent → Option α) (id : Nat) (es es' : List Event) :
    receivedOn f id (es ++ es') = receivedOn f id es ++ receivedOn f id es' :=
  List.filterMap_append

theorem receivedOn_same {α : Type} (f : StreamEvent → Option α) (id : Nat) (e : StreamEvent) :
    receivedOn f id [.stream id e] = (f e).toList := by
  cases h : f e <;> simp [receivedOn, h]

theorem receivedOn_other {α : Type} (f : StreamEvent → Option α) {i id : Nat} (h : id ≠ i) (e : StreamEvent) :
    receivedOn f i [.stream id e] = [] := by
  simp [receivedOn, h]

theorem seenBy_step {α : Type} (f : Nat → PluginCall → Option α) {c : Config} {b₀ b b' : Benchmark}
    {es : List Event}
    {id : Nat} {e : StreamEvent} {st : Stream} (hr : Runs.exec (step c) b₀ es = some b)
    (hs : step c b (.stream id e) = some b')
    (hcalls : b'.client.pluginCalls = b.client.pluginCalls ++ st.decoder.pluginCalls c e) (plugin i : Nat) :
    seenBy f plugin i (deliveries c b₀ (es ++ [.stream id e])) =
      seenBy f plugin i (deliveries c b₀ es) ++
        if id = i then (st.decoder.pluginCalls c e).filterMap (f plugin) else [] := by
  rw [deliveries_snoc c _ hr, deliveries_stream hs hcalls, seenBy_append]
  split_ifs with hi
  · rw [hi, seenBy_same]
  · rw [seenBy_other f plugin hi]

theorem receivedOn_step {α : Type} (f : StreamEvent → Option α) (es : List Event) (id i : Nat)
    (e : StreamEvent) :
    receivedOn f i (es ++ [.stream id e]) = receivedOn f i es ++ if id = i then (f e).toList else [] := by
  rw [receivedOn_append]
  split_ifs with hi
  · rw [hi, receivedOn_same]
  · rw [receivedOn_other f hi]

theorem receivedOn_start {α : Type} (f : StreamEvent → Option α) (es : List Event) (i : Nat) (pool : Bool)
    (request : Option Request) (now : Int) :
    receivedOn f i (es ++ [.tryStartRequest pool request now]) = receivedOn f i es := by
  rw [receivedOn_append]
  exact List.append_nil _

/-! ## The invariant -/

/-- A stream that has not ended has shown no headers to the plugins, and has received what its
decoder holds. -/
structure Withholds (c : Config) (ds : List (Nat × PluginCall)) (es : List Event) (id : Nat)
    (st : Stream) : Prop where
  received : receivedOn StreamEvent.headers id es = st.decoder.responseHeaders.toList
  seen : ∀ plugin < c.userDefinedOutputPlugins, seenBy PluginCall.headersTo plugin id ds = []
  ready : st.poolReady = false → st.decoder.responseHeaders = none

/-- The streams have distinct names, and a name that is not in use yet has no history. -/
structure Named (c : Config) (ds : List (Nat × PluginCall)) (es : List Event) (b : Benchmark) : Prop where
  nodup : (b.streams.map Prod.fst).Nodup
  fresh : ∀ id ∈ b.streams.map Prod.fst, id < b.started
  unused : ∀ id, b.started ≤ id → receivedOn StreamEvent.headers id es = [] ∧
    ∀ plugin, seenBy PluginCall.headersTo plugin id ds = []

/-- A reset that comes after the headers of its response. -/
def ResetsResponse (b : Benchmark) : Event → Prop
  | .stream id (.onResetStream ..) => ∀ st, b.streams.lookup id = some st →
      st.decoder.responseHeaders.isSome = true
  | _ => True

/-- The plugins saw the headers of exactly the streams that ended with some. -/
def SeesEnded (c : Config) (ds : List (Nat × PluginCall)) (es : List Event) (b : Benchmark) : Prop :=
  ∀ plugin < c.userDefinedOutputPlugins, ∀ id ∉ b.streams.map Prod.fst,
    seenBy PluginCall.headersTo plugin id ds = receivedOn StreamEvent.headers id es

structure Delivered (c : Config) (b₀ : Benchmark) (es : List Event) (b : Benchmark) : Prop where
  all : (deliveries c b₀ es).map Prod.snd = b.client.pluginCalls
  named : Named c (deliveries c b₀ es) es b
  streams : ∀ p ∈ b.streams, Withholds c (deliveries c b₀ es) es p.1 p.2
  once : ∀ id, (receivedOn StreamEvent.headers id es).length ≤ 1
  data : ∀ plugin < c.userDefinedOutputPlugins, ∀ id,
    seenBy PluginCall.dataTo plugin id (deliveries c b₀ es) = receivedOn StreamEvent.data id es
  exact : SeesEnded c (deliveries c b₀ es) es b ↔
    c.userDefinedOutputPlugins = 0 ∨ Runs.AllSteps (step c) ResetsResponse b₀ es

theorem delivered_init (c : Config) (measureLatencies : Bool) :
    Delivered c (.init measureLatencies) [] (.init measureLatencies) where
  all := rfl
  named := ⟨List.nodup_nil, fun _ h => absurd h List.not_mem_nil, fun _ _ => ⟨rfl, fun _ => rfl⟩⟩
  streams := fun _ h => absurd h List.not_mem_nil
  once := fun _ => Nat.zero_le _
  data := fun _ _ _ => rfl
  exact := iff_of_true (fun _ _ _ _ => rfl) (Or.inr trivial)

theorem quiet_delivered {c : Config} {b₀ b : Benchmark} {es : List Event} (pool : Bool)
    (request : Option Request)
    (now : Int) (hr : Runs.exec (step c) b₀ es = some b) (h : Delivered c b₀ es b) :
    Delivered c b₀ (es ++ [.tryStartRequest pool request now]) b := by
  have hds : deliveries c b₀ (es ++ [.tryStartRequest pool request now]) = deliveries c b₀ es := by
    rw [deliveries_snoc c _ hr, deliveries_start, List.append_nil]
  constructor
  case all => rw [hds]; exact h.all
  case named =>
    refine ⟨h.named.nodup, h.named.fresh, fun id hid => ?_⟩
    rw [hds, receivedOn_start]
    exact h.named.unused id hid
  case streams =>
    intro p hp
    have hw := h.streams p hp
    rw [hds]
    exact ⟨(receivedOn_start ..).trans hw.received, hw.seen, hw.ready⟩
  case once =>
    intro id
    rw [receivedOn_start]
    exact h.once id
  case data =>
    intro plugin hplugin id
    rw [hds, receivedOn_start]
    exact h.data plugin hplugin id
  case exact =>
    have hsteps : Runs.AllSteps (step c) ResetsResponse b₀ (es ++ [.tryStartRequest pool request now]) ↔
        Runs.AllSteps (step c) ResetsResponse b₀ es := by
      rw [Runs.allSteps_snoc hr]
      exact and_iff_left trivial
    rw [hds, hsteps, ← h.exact]
    simp only [SeesEnded, receivedOn_start]

theorem start_delivered {c : Config} {b₀ b b' : Benchmark} {es : List Event} {pool : Bool}
    {request : Option Request}
    {now : Int} (hr : Runs.exec (step c) b₀ es = some b) (h : Delivered c b₀ es b)
    (hs : step c b (.tryStartRequest pool request now) = some b') :
    Delivered c b₀ (es ++ [.tryStartRequest pool request now]) b' := by
  have hq := quiet_delivered pool request now hr h
  obtain rfl | ⟨d, -, -, hnone, -, rfl⟩ := step_tryStartRequest hs
  · exact hq
  obtain ⟨hreceived, hseen⟩ := hq.named.unused b.started le_rfl
  constructor
  case all => exact hq.all
  case named =>
    refine ⟨List.nodup_cons.mpr ⟨fun hin => absurd (h.named.fresh _ hin) (lt_irrefl _),
      h.named.nodup⟩, ?_, ?_⟩
    · intro id hid
      rcases List.mem_cons.mp hid with rfl | hid
      · exact Nat.lt_succ_self _
      · exact (h.named.fresh id hid).trans (Nat.lt_succ_self _)
    · intro id hid
      exact hq.named.unused id (Nat.le_of_succ_le hid)
  case streams =>
    intro p hp
    rcases List.mem_cons.mp hp with rfl | hp
    · exact ⟨by rw [hreceived, hnone]; rfl, fun plugin _ => hseen plugin, fun _ => hnone⟩
    · exact hq.streams p hp
  case once => exact hq.once
  case data => exact hq.data
  case exact =>
    rw [← hq.exact]
    constructor
    · intro hall plugin hplugin id hid
      by_cases hnew : id = b.started
      · rw [hnew, hreceived, hseen]
      · exact hall plugin hplugin id (by simp [hnew, hid])
    · intro hall plugin hplugin id hid
      exact hall plugin hplugin id fun hin => hid (List.mem_cons_of_mem _ hin)

/-! ## A stream event -/

/-- What a stream event does to the calls and to the streams. -/
structure Advances (c : Config) (b : Benchmark) (id : Nat) (e : StreamEvent) (st : Stream)
    (b' : Benchmark) : Prop where
  lookup : b.streams.lookup id = some st
  allowed : st.allows e = true
  calls : b'.client.pluginCalls = b.client.pluginCalls ++ st.decoder.pluginCalls c e
  started : b'.started = b.started
  streams :
    (e.ends = false ∧ ∃ d, d.responseHeaders = st.decoder.headersAfter e ∧
      b'.streams = b.streams.map fun (i, st) => if i = id then (i, ⟨d, true⟩) else (i, st)) ∨
    (e.ends = true ∧ b'.streams = b.streams.filter (·.1 ≠ id))

theorem step_advances {c : Config} {b b' : Benchmark} {id : Nat} {e : StreamEvent}
    (hs : step c b (.stream id e) = some b') : ∃ st, Advances c b id e st b' := by
  obtain ⟨st, hl, ha, hcases⟩ := step_stream hs
  have hd := handle_delivers c st.decoder b.client e
  refine ⟨st, ?_⟩
  rcases hcases with ⟨client, d, heq, rfl⟩ | ⟨client, complete, success, heq, rfl⟩
  · rw [heq] at hd
    exact ⟨hl, ha, hd.calls, rfl, Or.inl ⟨hd.progress.1, d, hd.progress.2, rfl⟩⟩
  · rw [heq] at hd
    exact ⟨hl, ha, hd.calls, rfl, Or.inr ⟨hd.progress, rfl⟩⟩

/-- The headers come once, so what a stream has received is what its decoder holds. -/
theorem headersAfter_toList {st : Stream} {e : StreamEvent} (ha : st.allows e = true) :
    (st.decoder.headersAfter e).toList = st.decoder.responseHeaders.toList ++ e.headers.toList := by
  cases e with
  | decodeHeaders headers endStream now now' =>
    simp only [Stream.allows, Bool.and_eq_true, Option.isNone_iff_eq_none] at ha
    rw [ha.2]
    rfl
  | _ => simp [StreamDecoder.headersAfter, StreamEvent.headers]

section

variable {c : Config} {b₀ b b' : Benchmark} {es : List Event} {id : Nat} {e : StreamEvent} {st : Stream}

theorem stream_received (h : Delivered c b₀ es b) (hadv : Advances c b id e st b') :
    receivedOn StreamEvent.headers id (es ++ [.stream id e]) = (st.decoder.headersAfter e).toList := by
  have hw := h.streams _ (mem_of_lookup hadv.lookup)
  rw [receivedOn_step, if_pos rfl, hw.received, headersAfter_toList hadv.allowed]

theorem stream_seen (hr : Runs.exec (step c) b₀ es = some b) (hs : step c b (.stream id e) = some b')
    (h : Delivered c b₀ es b) (hadv : Advances c b id e st b') {plugin : Nat}
    (hplugin : plugin < c.userDefinedOutputPlugins) :
    seenBy PluginCall.headersTo plugin id (deliveries c b₀ (es ++ [.stream id e])) =
      if e.completes then [(st.decoder.headersAfter e).getD .empty] else [] := by
  have hw := h.streams _ (mem_of_lookup hadv.lookup)
  rw [seenBy_step PluginCall.headersTo hr hs hadv.calls, if_pos rfl, hw.seen plugin hplugin,
    pluginCalls_headersTo c _ e hplugin, List.nil_append]

theorem stream_other {α β : Type} (f : Nat → PluginCall → Option α) (g : StreamEvent → Option β)
    (hr : Runs.exec (step c) b₀ es = some b) (hs : step c b (.stream id e) = some b')
    (hadv : Advances c b id e st b') {i : Nat} (hi : id ≠ i) (plugin : Nat) :
    seenBy f plugin i (deliveries c b₀ (es ++ [.stream id e])) = seenBy f plugin i (deliveries c b₀ es) ∧
      receivedOn g i (es ++ [.stream id e]) = receivedOn g i es := by
  rw [seenBy_step f hr hs hadv.calls, receivedOn_step, if_neg hi, if_neg hi, List.append_nil, List.append_nil]
  exact ⟨rfl, rfl⟩

theorem stream_ids (hadv : Advances c b id e st b') (i : Nat) :
    i ∈ b'.streams.map Prod.fst ↔ i ∈ b.streams.map Prod.fst ∧ (i = id → e.ends = false) := by
  rcases hadv.streams with ⟨hends, d, -, heq⟩ | ⟨hends, heq⟩
  · rw [heq, map_fst_update]
    simp [hends]
  · simp [heq, hends]

theorem stream_named (hr : Runs.exec (step c) b₀ es = some b) (hs : step c b (.stream id e) = some b')
    (h : Delivered c b₀ es b) (hadv : Advances c b id e st b') :
    Named c (deliveries c b₀ (es ++ [.stream id e])) (es ++ [.stream id e]) b' := by
  have hmem : id ∈ b.streams.map Prod.fst := List.mem_map_of_mem (mem_of_lookup hadv.lookup)
  constructor
  case nodup =>
    rcases hadv.streams with ⟨-, d, -, heq⟩ | ⟨-, heq⟩
    · rw [heq, map_fst_update]
      exact h.named.nodup
    · rw [heq]
      exact h.named.nodup.sublist (List.filter_sublist.map _)
  case fresh =>
    intro i hi
    rw [hadv.started]
    exact h.named.fresh i ((stream_ids hadv i).mp hi).1
  case unused =>
    intro i hi
    rw [hadv.started] at hi
    have hne : id ≠ i := by
      have := h.named.fresh id hmem
      omega
    obtain ⟨hreceived, hseen⟩ := h.named.unused i hi
    refine ⟨(stream_other PluginCall.headersTo StreamEvent.headers hr hs hadv hne 0).2.trans hreceived,
      fun plugin => ?_⟩
    exact (stream_other PluginCall.headersTo StreamEvent.headers hr hs hadv hne plugin).1.trans (hseen plugin)

theorem stream_withholds (hr : Runs.exec (step c) b₀ es = some b) (hs : step c b (.stream id e) = some b')
    (h : Delivered c b₀ es b) (hadv : Advances c b id e st b') (p : Nat × Stream) (hp : p ∈ b'.streams) :
    Withholds c (deliveries c b₀ (es ++ [.stream id e])) (es ++ [.stream id e]) p.1 p.2 := by
  have hother {p : Nat × Stream} (hq : p ∈ b.streams) (hne : id ≠ p.1) :
      Withholds c (deliveries c b₀ (es ++ [.stream id e])) (es ++ [.stream id e]) p.1 p.2 := by
    have hw := h.streams _ hq
    have hkeep := stream_other PluginCall.headersTo StreamEvent.headers hr hs hadv hne
    exact ⟨(hkeep 0).2.trans hw.received,
      fun plugin hplugin => (hkeep plugin).1.trans (hw.seen plugin hplugin), hw.ready⟩
  rcases hadv.streams with ⟨hends, d, hd, heq⟩ | ⟨-, heq⟩
  · rw [heq] at hp
    obtain ⟨⟨i, old⟩, hq, rfl⟩ := List.mem_map.mp hp
    by_cases hi : i = id
    · subst hi
      simp only [if_true]
      refine ⟨(stream_received h hadv).trans (by rw [hd]), fun plugin hplugin => ?_,
        fun hready => by cases hready⟩
      rw [stream_seen hr hs h hadv hplugin, StreamEvent.completes, hends]
      rfl
    · simp only [if_neg hi]
      exact hother hq (Ne.symm hi)
  · rw [heq] at hp
    obtain ⟨hq, hne⟩ := List.mem_filter.mp hp
    exact hother hq (Ne.symm (by simpa using hne))

theorem stream_once (h : Delivered c b₀ es b) (hadv : Advances c b id e st b') (i : Nat) :
    (receivedOn StreamEvent.headers i (es ++ [.stream id e])).length ≤ 1 := by
  by_cases hi : id = i
  · subst hi
    rw [stream_received h hadv, Option.length_toList]
    split <;> omega
  · rw [receivedOn_step, if_neg hi, List.append_nil]
    exact h.once i

theorem stream_data (hr : Runs.exec (step c) b₀ es = some b) (hs : step c b (.stream id e) = some b')
    (h : Delivered c b₀ es b) (hadv : Advances c b id e st b') {plugin : Nat}
    (hplugin : plugin < c.userDefinedOutputPlugins) (i : Nat) :
    seenBy PluginCall.dataTo plugin i (deliveries c b₀ (es ++ [.stream id e])) =
      receivedOn StreamEvent.data i (es ++ [.stream id e]) := by
  rw [seenBy_step PluginCall.dataTo hr hs hadv.calls, receivedOn_step, h.data plugin hplugin i,
    pluginCalls_dataTo c _ e hplugin]

theorem ended_seen_iff (hr : Runs.exec (step c) b₀ es = some b) (hs : step c b (.stream id e) = some b')
    (h : Delivered c b₀ es b) (hadv : Advances c b id e st b') (hends : e.ends = true) {plugin : Nat}
    (hplugin : plugin < c.userDefinedOutputPlugins) :
    seenBy PluginCall.headersTo plugin id (deliveries c b₀ (es ++ [.stream id e])) =
      receivedOn StreamEvent.headers id (es ++ [.stream id e]) ↔ ResetsResponse b (.stream id e) := by
  rw [stream_seen hr hs h hadv hplugin, stream_received h hadv]
  have ha := hadv.allowed
  have hl := hadv.lookup
  cases e with
  | onPoolReady now => cases hends
  | onPoolFailure reason =>
    have hnone : st.decoder.responseHeaders = none :=
      (h.streams _ (mem_of_lookup hl)).ready (by simpa [Stream.allows] using ha)
    simp [StreamEvent.completes, StreamEvent.isPoolFailure, StreamDecoder.headersAfter, StreamEvent.headers,
      hnone, ResetsResponse]
  | decodeHeaders headers endStream now now' =>
    have hend : endStream = true := hends
    simp [StreamEvent.completes, StreamEvent.ends, StreamEvent.isPoolFailure, StreamDecoder.headersAfter,
      StreamEvent.headers, ResetsResponse, hend]
  | decodeData data endStream now now' =>
    have hend : endStream = true := hends
    simp only [Stream.allows, Bool.and_eq_true, Option.isSome_iff_exists] at ha
    obtain ⟨-, headers, hh⟩ := ha
    simp [StreamEvent.completes, StreamEvent.ends, StreamEvent.isPoolFailure, StreamDecoder.headersAfter,
      StreamEvent.headers, ResetsResponse, hend, hh]
  | decodeTrailers now now' =>
    simp only [Stream.allows, Bool.and_eq_true, Option.isSome_iff_exists] at ha
    obtain ⟨-, headers, hh⟩ := ha
    simp [StreamEvent.completes, StreamEvent.ends, StreamEvent.isPoolFailure, StreamDecoder.headersAfter,
      StreamEvent.headers, ResetsResponse, hh]
  | onResetStream reason now now' =>
    simp only [StreamEvent.completes, StreamEvent.ends, StreamEvent.isPoolFailure, StreamDecoder.headersAfter,
      StreamEvent.headers, ResetsResponse, hl, Option.some.injEq, forall_eq', Option.none_or]
    cases st.decoder.responseHeaders <;> simp

theorem stream_exact (hr : Runs.exec (step c) b₀ es = some b) (hs : step c b (.stream id e) = some b')
    (h : Delivered c b₀ es b) (hadv : Advances c b id e st b') :
    SeesEnded c (deliveries c b₀ (es ++ [.stream id e])) (es ++ [.stream id e]) b' ↔
      SeesEnded c (deliveries c b₀ es) es b ∧
        (c.userDefinedOutputPlugins = 0 ∨ ResetsResponse b (.stream id e)) := by
  have hmem : id ∈ b.streams.map Prod.fst := List.mem_map_of_mem (mem_of_lookup hadv.lookup)
  have hkeep (plugin : Nat) {i : Nat} (hi : i ∉ b.streams.map Prod.fst) :=
    stream_other PluginCall.headersTo StreamEvent.headers hr hs hadv (i := i)
      (fun heq => hi (heq ▸ hmem)) plugin
  have hresets (hends : e.ends = false) : ResetsResponse b (.stream id e) := by
    cases e with
    | onResetStream reason now now' => cases hends
    | _ => trivial
  constructor
  · intro hall
    refine ⟨fun plugin hplugin i hi => ?_, ?_⟩
    · rw [← (hkeep plugin hi).1, ← (hkeep plugin hi).2]
      exact hall plugin hplugin i fun hin => hi ((stream_ids hadv i).mp hin).1
    · cases hends : e.ends with
      | false => exact Or.inr (hresets hends)
      | true =>
        by_cases hzero : c.userDefinedOutputPlugins = 0
        · exact Or.inl hzero
        · have hplugin : 0 < c.userDefinedOutputPlugins := Nat.pos_of_ne_zero hzero
          refine Or.inr ((ended_seen_iff hr hs h hadv hends hplugin).mp (hall 0 hplugin id fun hin => ?_))
          have := ((stream_ids hadv id).mp hin).2 rfl
          rw [hends] at this
          cases this
  · rintro ⟨hall, hreset⟩ plugin hplugin i hi
    by_cases hmem' : i ∈ b.streams.map Prod.fst
    · -- Only the stream of the event can have left.
      have hleft : i = id ∧ e.ends = true := by
        rw [stream_ids hadv i] at hi
        by_contra hnot
        exact hi ⟨hmem', fun heq => by simpa [heq] using hnot⟩
      obtain ⟨rfl, hends⟩ := hleft
      have hpos : c.userDefinedOutputPlugins ≠ 0 := by omega
      exact (ended_seen_iff hr hs h hadv hends hplugin).mpr (hreset.resolve_left hpos)
    · rw [(hkeep plugin hmem').1, (hkeep plugin hmem').2]
      exact hall plugin hplugin i hmem'

end

theorem stream_delivered {c : Config} {b₀ b b' : Benchmark} {es : List Event} {id : Nat} {e : StreamEvent}
    (hr : Runs.exec (step c) b₀ es = some b) (h : Delivered c b₀ es b)
    (hs : step c b (.stream id e) = some b') :
    Delivered c b₀ (es ++ [.stream id e]) b' := by
  obtain ⟨st, hadv⟩ := step_advances hs
  constructor
  case all =>
    rw [deliveries_snoc c _ hr, deliveries_stream hs hadv.calls, List.map_append, h.all, hadv.calls]
    simp [Function.comp_def]
  case named => exact stream_named hr hs h hadv
  case streams => exact stream_withholds hr hs h hadv
  case once => exact stream_once h hadv
  case data => exact fun plugin hplugin => stream_data hr hs h hadv hplugin
  case exact =>
    rw [stream_exact hr hs h hadv, h.exact, Runs.allSteps_snoc hr]
    tauto

theorem run_delivered {c : Config} {measureLatencies : Bool} {es : List Event} {b : Benchmark}
    (hr : Runs.exec (step c) (.init measureLatencies) es = some b) :
    Delivered c (.init measureLatencies) es b := by
  refine Runs.exec_history (delivered_init c measureLatencies) (fun es u e t hu h hs => ?_) hr
  cases e with
  | tryStartRequest pool request now => exact start_delivered hu h hs
  | stream id e => exact stream_delivered hu h hs

/-! ## Real responses -/

/-- Every call of a plugin was for a stream. For each stream that has ended a plugin saw the
headers received on it, of which there is at most one map, and before that none. It saw each
data frame as it was received. -/
structure SeesResponses (c : Config) (b₀ : Benchmark) (es : List Event) (b : Benchmark) : Prop where
  all : (deliveries c b₀ es).map Prod.snd = b.client.pluginCalls
  once : ∀ id, (receivedOn StreamEvent.headers id es).length ≤ 1
  headers : ∀ plugin < c.userDefinedOutputPlugins, ∀ id,
    seenBy PluginCall.headersTo plugin id (deliveries c b₀ es) =
      if id ∈ b.streams.map Prod.fst then [] else receivedOn StreamEvent.headers id es
  data : ∀ plugin < c.userDefinedOutputPlugins, ∀ id,
    seenBy PluginCall.dataTo plugin id (deliveries c b₀ es) = receivedOn StreamEvent.data id es

/-- The plugins of a run see real responses only exactly when no stream is reset before its
response headers. -/
theorem seesResponses_iff (c : Config) (measureLatencies : Bool) (es : List Event) (b : Benchmark)
    (hr : Runs.exec (step c) (.init measureLatencies) es = some b) :
    SeesResponses c (.init measureLatencies) es b ↔
      c.userDefinedOutputPlugins = 0 ∨ Runs.AllSteps (step c) ResetsResponse (.init measureLatencies) es := by
  have h := run_delivered hr
  rw [← h.exact]
  constructor
  · intro hsees plugin hplugin id hid
    rw [hsees.headers plugin hplugin id, if_neg hid]
  · intro hended
    refine ⟨h.all, h.once, fun plugin hplugin id => ?_, h.data⟩
    split_ifs with hid
    · obtain ⟨p, hp, rfl⟩ := List.mem_map.mp hid
      exact (h.streams p hp).seen plugin hplugin
    · exact hended plugin hplugin id hid

def onePlugin : Config := { oneSlot with userDefinedOutputPlugins := 1 }

theorem seesResponses_ok_response :
    ∃ b, Runs.exec (step onePlugin) (.init false) (statusRun 200) = some b ∧
      SeesResponses onePlugin (.init false) (statusRun 200) b := by
  obtain ⟨b, hb⟩ : ∃ b, Runs.exec (step onePlugin) (.init false) (statusRun 200) = some b := ⟨_, rfl⟩
  refine ⟨b, hb, (seesResponses_iff onePlugin false (statusRun 200) b hb).mpr (Or.inr ?_)⟩
  exact ⟨trivial, fun _ _ => ⟨trivial, fun _ _ => ⟨trivial, fun _ _ => trivial⟩⟩⟩

/-- The plugin is shown empty headers for a stream on which none were received. -/
theorem reset_shows_empty_headers :
    ∃ b, Runs.exec (step onePlugin) (.init false) resetRun = some b ∧
      receivedOn StreamEvent.headers 0 resetRun = [] ∧
        b.client.pluginCalls = [.handleResponseHeaders 0 .empty] ∧
      ¬ SeesResponses onePlugin (.init false) resetRun b := by
  refine ⟨_, rfl, rfl, rfl, fun hsees => ?_⟩
  exact absurd (hsees.headers 0 (by decide) 0) (by decide)

end Nighthawk.BenchmarkClient
