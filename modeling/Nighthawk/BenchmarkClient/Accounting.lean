import Nighthawk.BenchmarkClient.InFlight

/-!
# Every ended request is counted once

A request ends with a response, a reset or a pool failure. The client counts a response by
the class of its 64-bit status, and files its latency by the class of the 32 bits that the
decoder kept.
-/

namespace Nighthawk.BenchmarkClient

/-! ## The two classes of a status -/

/-- The class whose counter `onComplete` increments. -/
def counterClass (status : UInt64) : StatusClass := statusClass status.toInt64.toInt

/-- The class that `exportLatency` files the latency under. -/
def latencyClass (status : UInt64) : StatusClass := statusClass status.toUInt32.toNat

/-- The status is below `2 ^ 32`, or its low 32 bits are in no numbered class either. -/
def StatusFits (status : UInt64) : Prop :=
  status.toNat < 2 ^ 32 ∨ status.toNat % 2 ^ 32 < 100 ∨ 599 < status.toNat % 2 ^ 32

instance : DecidablePred StatusFits := fun _ => inferInstanceAs (Decidable (_ ∨ _ ∨ _))

theorem statusClass_eq_httpXxx_iff (status : Int) :
    statusClass status = .httpXxx ↔ status < 100 ∨ 599 < status := by
  unfold statusClass
  split_ifs <;> simp <;> omega

theorem toInt64_toInt (status : UInt64) :
    status.toInt64.toInt = if status.toNat < 2 ^ 63 then (status.toNat : Int) else status.toNat - 2 ^ 64 := by
  have h : status.toInt64.toInt = status.toBitVec.toInt := rfl
  rw [h, BitVec.toInt_eq_toNat_cond, UInt64.toNat_toBitVec]
  split_ifs <;> omega

theorem latencyClass_eq_httpXxx_iff (status : UInt64) :
    latencyClass status = .httpXxx ↔ status.toNat % 2 ^ 32 < 100 ∨ 599 < status.toNat % 2 ^ 32 := by
  rw [latencyClass, statusClass_eq_httpXxx_iff, UInt64.toNat_toUInt32]
  omega

/-- A status of `2 ^ 32` or more is too large for every class, or negative as an `int64_t`. -/
theorem counterClass_of_le {status : UInt64} (h : 2 ^ 32 ≤ status.toNat) :
    counterClass status = .httpXxx := by
  have hlt := status.toNat_lt
  rw [counterClass, statusClass_eq_httpXxx_iff, toInt64_toInt]
  split_ifs <;> omega

theorem counterClass_of_lt {status : UInt64} (h : status.toNat < 2 ^ 32) :
    counterClass status = latencyClass status := by
  rw [counterClass, latencyClass, toInt64_toInt, if_pos (by omega), UInt64.toNat_toUInt32, Nat.mod_eq_of_lt h]

theorem classes_of_fits {status : UInt64} (h : StatusFits status) :
    counterClass status = latencyClass status := by
  by_cases hlt : status.toNat < 2 ^ 32
  · exact counterClass_of_lt hlt
  · rw [counterClass_of_le (by omega), (latencyClass_eq_httpXxx_iff status).mpr (h.resolve_left hlt)]

theorem classes_of_not_fits {status : UInt64} (h : ¬ StatusFits status) :
    counterClass status = .httpXxx ∧ latencyClass status ≠ .httpXxx := by
  unfold StatusFits at h
  refine ⟨counterClass_of_le (by omega), fun hx => ?_⟩
  rw [latencyClass_eq_httpXxx_iff] at hx
  omega

/-! ## The tally -/

/-- How a request ended. -/
inductive Finish where
  | response (status : UInt64)
  | reset
  | poolFailure (reason : PoolFailureReason)
  deriving DecidableEq, Repr

/-- The counters of the client, and how many samples its statistics have. -/
structure Tally where
  http : StatusClass → Nat
  latency : StatusClass → Nat
  response : Nat
  streamResets : Nat
  poolOverflow : Nat
  poolConnectionFailure : Nat

def BenchmarkClientHttpImpl.tally (s : BenchmarkClientHttpImpl) : Tally where
  http := s.counters.http
  latency := fun k => (s.statistic.latency k).length
  response := s.statistic.response.length
  streamResets := s.counters.streamResets
  poolOverflow := s.counters.poolOverflow
  poolConnectionFailure := s.counters.poolConnectionFailure

def bump (f : StatusClass → Nat) (k : StatusClass) : StatusClass → Nat := Function.update f k (f k + 1)

namespace Tally

/-- What one ended request adds to a tally. -/
def file (t : Tally) : Finish → Tally
  | .response status =>
    { t with
      http := bump t.http (counterClass status)
      latency := bump t.latency (latencyClass status)
      response := t.response + 1 }
  | .reset => { t with streamResets := t.streamResets + 1 }
  | .poolFailure .overflow => { t with poolOverflow := t.poolOverflow + 1 }
  | .poolFailure .localConnectionFailure | .poolFailure .remoteConnectionFailure =>
    { t with poolConnectionFailure := t.poolConnectionFailure + 1 }
  | .poolFailure .timeout => t

def total (f : StatusClass → Nat) : Nat :=
  f .http1xx + f .http2xx + f .http3xx + f .http4xx + f .http5xx + f .httpXxx

theorem total_bump (f : StatusClass → Nat) (k : StatusClass) : total (bump f k) = total f + 1 := by
  cases k <;> simp [total, bump] <;> omega

def finished (t : Tally) : Nat := total t.http + t.streamResets + t.poolOverflow + t.poolConnectionFailure

theorem finished_file (t : Tally) (f : Finish) :
    (t.file f).finished + (if f = .poolFailure .timeout then 1 else 0) = t.finished + 1 := by
  cases f with
  | response status =>
    simp only [finished, file, total_bump, reduceCtorEq, if_false]
    omega
  | reset =>
    simp only [finished, file, reduceCtorEq, if_false]
    omega
  | poolFailure reason =>
    cases reason <;> simp only [finished, file, Finish.poolFailure.injEq, reduceCtorEq, if_false,
      if_true] <;> omega

/-- Each response has a counted class and a latency sample. A response whose status does
not fit is counted under `http_xxx`, so the numbered classes never have fewer samples. -/
structure Balanced (t : Tally) : Prop where
  http : total t.http = t.response
  latency : total t.latency = t.response
  numbered : ∀ k, k ≠ .httpXxx → t.http k ≤ t.latency k

theorem Balanced.bounds {t : Tally} (h : t.Balanced) :
    t.http .http1xx ≤ t.latency .http1xx ∧ t.http .http2xx ≤ t.latency .http2xx ∧
      t.http .http3xx ≤ t.latency .http3xx ∧ t.http .http4xx ≤ t.latency .http4xx ∧
      t.http .http5xx ≤ t.latency .http5xx :=
  ⟨h.numbered _ nofun, h.numbered _ nofun, h.numbered _ nofun, h.numbered _ nofun, h.numbered _ nofun⟩

theorem Balanced.latency_le {t : Tally} (h : t.Balanced) : t.latency .httpXxx ≤ t.http .httpXxx := by
  have hhttp := h.http
  have hlatency := h.latency
  obtain ⟨h1, h2, h3, h4, h5⟩ := h.bounds
  unfold total at hhttp hlatency
  omega

theorem Balanced.classes_iff {t : Tally} (h : t.Balanced) :
    (∀ k, t.latency k = t.http k) ↔ t.http .httpXxx = t.latency .httpXxx := by
  refine ⟨fun hall => (hall .httpXxx).symm, fun hx k => ?_⟩
  have hhttp := h.http
  have hlatency := h.latency
  obtain ⟨h1, h2, h3, h4, h5⟩ := h.bounds
  unfold total at hhttp hlatency
  cases k <;> omega

theorem Balanced.file {t : Tally} (h : t.Balanced) (f : Finish) : (t.file f).Balanced := by
  cases f with
  | reset => exact ⟨h.http, h.latency, h.numbered⟩
  | poolFailure reason => cases reason <;> exact ⟨h.http, h.latency, h.numbered⟩
  | response status =>
    refine ⟨?_, ?_, fun k hk => ?_⟩
    · simp only [Tally.file, total_bump, h.http]
    · simp only [Tally.file, total_bump, h.latency]
    · have hle := h.numbered k hk
      simp only [Tally.file, bump, Function.update_apply]
      by_cases hfit : StatusFits status
      · rw [classes_of_fits hfit]
        split_ifs with heq
        · subst heq; omega
        · exact hle
      · rw [(classes_of_not_fits hfit).1, if_neg hk]
        split_ifs with heq
        · subst heq; omega
        · exact hle

/-- `http_xxx` runs ahead of its latency samples with the first status that does not fit,
and for ever after. -/
theorem Balanced.file_xxx {t : Tally} (h : t.Balanced) (f : Finish) :
    (t.file f).http .httpXxx = (t.file f).latency .httpXxx ↔
      t.http .httpXxx = t.latency .httpXxx ∧ ∀ status, f = .response status → StatusFits status := by
  cases f with
  | reset => simp [Tally.file]
  | poolFailure reason => cases reason <;> simp [Tally.file]
  | response status =>
    simp only [Finish.response.injEq, forall_eq', Tally.file, bump, Function.update_apply]
    by_cases hfit : StatusFits status
    · rw [classes_of_fits hfit]
      simp only [hfit, and_true]
      split_ifs with heq
      · rw [← heq]; omega
      · rfl
    · obtain ⟨hcounter, hlatency⟩ := classes_of_not_fits hfit
      have hle := h.latency_le
      simp only [hfit, and_false, iff_false, hcounter, if_true, if_neg hlatency.symm]
      omega

end Tally

/-! ## One event ends at most one request -/

/-- A decoder that measures, and has kept 32 bits of the status of its response. -/
structure StreamDecoder.Measures (d : StreamDecoder) : Prop where
  on : d.measureLatencies = true
  code : d.streamInfo.responseCode = d.responseHeaders.map (·.status.toUInt32)

def StreamDecoder.finish (d : StreamDecoder) : StreamEvent → Option Finish
  | .onPoolReady _ => none
  | .onPoolFailure reason => some (.poolFailure reason)
  | .decodeHeaders headers endStream _ _ => if endStream then some (.response headers.status) else none
  | .decodeData _ endStream _ _ =>
    if endStream then some (.response (d.responseHeaders.getD .empty).status) else none
  | .decodeTrailers _ _ => some (.response (d.responseHeaders.getD .empty).status)
  | .onResetStream .. => some .reset

@[simp] theorem handleResponseData_tally (c : Config) (s : BenchmarkClientHttpImpl) (data : Str) :
    (s.handleResponseData c data).tally = s.tally := by
  apply foldl_keeps
  intro s plugin
  simp only [BenchmarkClientHttpImpl.handleResponseDataOne]
  split <;> rfl

theorem client_onComplete_tally (c : Config) (s : BenchmarkClientHttpImpl) (success : Bool)
    (headers : ResponseHeaderMap) :
    (s.onComplete c success headers).tally =
      if success then { s.tally with http := bump s.tally.http (counterClass headers.status) }
      else { s.tally with streamResets := s.tally.streamResets + 1 } := by
  unfold BenchmarkClientHttpImpl.onComplete
  rw [foldl_keeps BenchmarkClientHttpImpl.tally]
  · cases success <;> rfl
  · intro s plugin
    simp only [BenchmarkClientHttpImpl.handleResponseHeadersOne]
    split <;> rfl

theorem exportLatency_tally (s : BenchmarkClientHttpImpl) (status ns : UInt64) :
    (s.exportLatency status.toUInt32 ns).tally =
      { s.tally with latency := bump s.tally.latency (latencyClass status) } := by
  have hlen := Function.comp_update List.length s.statistic.latency (latencyClass status)
    (s.statistic.latency (latencyClass status) ++ [ns])
  rw [List.length_append] at hlen
  exact congrArg (fun latency => { s.tally with latency }) hlen

theorem recordLatency_tally {d : StreamDecoder} (hd : d.Measures) {headers : ResponseHeaderMap}
    (hh : d.responseHeaders = some headers) (s : BenchmarkClientHttpImpl) (now now' : Int) :
    (d.recordLatency s now now').tally =
      { s.tally with
        latency := bump s.tally.latency (latencyClass headers.status)
        response := s.tally.response + 1 } := by
  have hcode : d.streamInfo.responseCode = some headers.status.toUInt32 := by rw [hd.code, hh]; rfl
  simp only [StreamDecoder.recordLatency, hcode, exportLatency_tally]
  simp [BenchmarkClientHttpImpl.tally]

theorem onComplete_success_tally (c : Config) {d : StreamDecoder} (hd : d.Measures)
    {headers : ResponseHeaderMap}
    (hh : d.responseHeaders = some headers) (s : BenchmarkClientHttpImpl) (now now' : Int) :
    (d.onComplete c s true now now').1.tally = s.tally.file (.response headers.status) := by
  simp only [StreamDecoder.onComplete, hd.on, Bool.and_self, if_true, hh, Option.getD_some,
    client_onComplete_tally]
  have h := recordLatency_tally hd hh s now now'
  exact congrArg (fun t : Tally => { t with http := bump t.http (counterClass headers.status) }) h

theorem onComplete_reset_tally (c : Config) (d : StreamDecoder) (s : BenchmarkClientHttpImpl)
    (now now' : Int) :
    (d.onComplete c s false now now').1.tally = s.tally.file .reset := by
  simp only [StreamDecoder.onComplete, client_onComplete_tally]
  rfl

def StreamEvent.ends : StreamEvent → Bool
  | .onPoolReady _ => false
  | .decodeHeaders _ endStream _ _ | .decodeData _ endStream _ _ => endStream
  | .onPoolFailure _ | .decodeTrailers .. | .onResetStream .. => true

/-- A call ends the decoder exactly when its event ends the stream. The client's tally then
has that one request more, and is the same otherwise. -/
structure Files (d : StreamDecoder) (s : BenchmarkClientHttpImpl) (e : StreamEvent)
    (r : BenchmarkClientHttpImpl × Progress) : Prop where
  tally : r.1.tally = (d.finish e).elim s.tally s.tally.file
  measureLatencies : r.1.measureLatencies = s.measureLatencies
  progress : match r.2 with
    | .ongoing d => e.ends = false ∧ d.Measures
    | .ended _ _ => e.ends = true

theorem handleResponseData_measureLatencies (c : Config) (s : BenchmarkClientHttpImpl) (data : Str) :
    (s.handleResponseData c data).measureLatencies = s.measureLatencies := by
  apply foldl_keeps
  intro s plugin
  simp only [BenchmarkClientHttpImpl.handleResponseDataOne]
  split <;> rfl

theorem onComplete_measureLatencies (c : Config) (d : StreamDecoder) (s : BenchmarkClientHttpImpl)
    (success : Bool)
    (now now' : Int) : (d.onComplete c s success now now').1.measureLatencies = s.measureLatencies := by
  have hrecord : (d.recordLatency s now now').measureLatencies = s.measureLatencies := by
    unfold StreamDecoder.recordLatency
    cases d.streamInfo.responseCode <;> rfl
  simp only [StreamDecoder.onComplete, BenchmarkClientHttpImpl.onComplete]
  rw [foldl_keeps BenchmarkClientHttpImpl.measureLatencies]
  · cases success with
    | false => rfl
    | true =>
      cases d.measureLatencies with
      | false => rfl
      | true => exact hrecord
  · intro s plugin
    simp only [BenchmarkClientHttpImpl.handleResponseHeadersOne]
    split <;> rfl

theorem files_onComplete_success (c : Config) {d d' : StreamDecoder} (hd : d'.Measures)
    {headers : ResponseHeaderMap}
    (hh : d'.responseHeaders = some headers) {s s' : BenchmarkClientHttpImpl} (hs : s'.tally = s.tally)
    (hm : s'.measureLatencies = s.measureLatencies) {e : StreamEvent}
    (he : d.finish e = some (.response headers.status)) (hends : e.ends = true) (now now' : Int) :
    Files d s e (d'.onComplete c s' true now now') where
  tally := by
    rw [onComplete_success_tally c hd hh, he, hs]
    rfl
  measureLatencies := (onComplete_measureLatencies c d' s' true now now').trans hm
  progress := hends

theorem handle_files (c : Config) {st : Stream} (hd : st.decoder.Measures) (s : BenchmarkClientHttpImpl)
    {e : StreamEvent} (ha : st.allows e = true) : Files st.decoder s e (st.decoder.handle c s e) := by
  obtain ⟨d, ready⟩ := st
  have hd : d.Measures := hd
  have hon := hd.on
  cases e with
  | onPoolReady now =>
    simp only [StreamDecoder.handle, StreamDecoder.onPoolReady, hon, if_true]
    exact ⟨rfl, rfl, rfl, rfl, hd.code⟩
  | onPoolFailure reason => cases reason <;> exact ⟨rfl, rfl, rfl⟩
  | onResetStream reason now now' =>
    exact ⟨onComplete_reset_tally c _ s now now', onComplete_measureLatencies c _ s false now now', rfl⟩
  | decodeHeaders headers endStream now now' =>
    simp only [StreamDecoder.handle, StreamDecoder.decodeHeaders]
    cases endStream with
    | false => exact ⟨rfl, rfl, rfl, hd.on, rfl⟩
    | true =>
      have hd' : StreamDecoder.Measures { d with
          complete := true
          responseHeaders := some headers
          streamInfo := { d.streamInfo with responseCode := some headers.status.toUInt32 } } := ⟨hon, rfl⟩
      refine files_onComplete_success c hd' rfl ?_ ?_ ?_ ?_ now now' <;> rfl
  | decodeData data endStream now now' =>
    simp only [Stream.allows, Bool.and_eq_true, Option.isSome_iff_exists] at ha
    obtain ⟨-, headers, hh⟩ := ha
    simp only [StreamDecoder.handle, StreamDecoder.decodeData]
    cases endStream with
    | false =>
      exact ⟨handleResponseData_tally c s data, handleResponseData_measureLatencies c s data, rfl,
        hd.on, hd.code⟩
    | true =>
      have hfinish : d.finish (.decodeData data true now now') = some (.response headers.status) := by
        simp only [StreamDecoder.finish, if_true, hh, Option.getD_some]
      have hd' : StreamDecoder.Measures { d with
          complete := true
          streamInfo := { d.streamInfo with bytesSent := d.streamInfo.bytesSent + UInt64.ofNat data.length } } :=
        ⟨hon, hd.code⟩
      have h := files_onComplete_success c hd' hh (s := s) rfl rfl hfinish rfl now now'
      exact ⟨(handleResponseData_tally c _ data).trans h.tally,
        (handleResponseData_measureLatencies c _ data).trans h.measureLatencies, rfl⟩
  | decodeTrailers now now' =>
    simp only [Stream.allows, Bool.and_eq_true, Option.isSome_iff_exists] at ha
    obtain ⟨-, headers, hh⟩ := ha
    have hfinish : d.finish (.decodeTrailers now now') = some (.response headers.status) := by
      simp only [StreamDecoder.finish, hh, Option.getD_some]
    have hd' : StreamDecoder.Measures { d with complete := true } := ⟨hon, hd.code⟩
    exact files_onComplete_success c hd' hh rfl rfl hfinish rfl now now'

/-! ## Runs -/

structure Measuring (b : Benchmark) : Prop where
  client : b.client.measureLatencies = true
  streams : ∀ p ∈ b.streams, p.2.decoder.Measures

def Benchmark.finish (b : Benchmark) : Event → Option Finish
  | .tryStartRequest .. => none
  | .stream id e => (b.streams.lookup id).bind (·.decoder.finish e)

def Event.ended : Event → Option Nat
  | .tryStartRequest .. => none
  | .stream id e => if e.ends then some id else none

theorem step_tally {c : Config} {b b' : Benchmark} {e : Event} (hm : Measuring b)
    (hs : step c b e = some b') :
    Measuring b' ∧ b'.client.tally = (b.finish e).elim b.client.tally b.client.tally.file := by
  cases e with
  | tryStartRequest pool request now =>
    obtain rfl | ⟨d, -, hon, hnone, hcode, rfl⟩ := step_tryStartRequest hs
    · exact ⟨hm, rfl⟩
    refine ⟨⟨hm.client, fun p hp => ?_⟩, rfl⟩
    rcases List.mem_cons.mp hp with rfl | hp
    · exact ⟨hon.trans hm.client, by rw [hcode, hnone]; rfl⟩
    · exact hm.streams p hp
  | stream id e =>
    obtain ⟨st, hl, ha, hcases⟩ := step_stream hs
    have hfiles := handle_files c (hm.streams _ (mem_of_lookup hl)) b.client ha
    simp only [Benchmark.finish, hl, Option.bind_some]
    rcases hcases with ⟨client, d, heq, rfl⟩ | ⟨client, complete, success, heq, rfl⟩
    · rw [heq] at hfiles
      refine ⟨⟨hfiles.measureLatencies.trans hm.client, fun p hp => ?_⟩, hfiles.tally⟩
      obtain ⟨⟨i, old⟩, hq, rfl⟩ := List.mem_map.mp hp
      by_cases hi : i = id
      · simp only [if_pos hi]
        exact hfiles.progress.2
      · simp only [if_neg hi]
        exact hm.streams _ hq
    · rw [heq] at hfiles
      refine ⟨⟨hfiles.measureLatencies.trans hm.client, fun p hp => ?_⟩, hfiles.tally⟩
      exact hm.streams p (List.mem_of_mem_filter hp)

/-- The requests that the events have ended, in that order. -/
def endedRequests (es : List Event) : List Nat := es.filterMap Event.ended

def Event.isPoolTimeout : Event → Bool
  | .stream _ e => e.isPoolTimeout
  | .tryStartRequest .. => false

def poolTimeouts (es : List Event) : Nat := es.countP Event.isPoolTimeout

theorem finish_isSome {c : Config} {b b' : Benchmark} {e : Event} (hs : step c b e = some b') :
    (b.finish e).isSome = e.ended.isSome ∧
      (b.finish e = some (.poolFailure .timeout) ↔ e.isPoolTimeout = true) := by
  cases e with
  | tryStartRequest pool request now => exact ⟨rfl, nofun, nofun⟩
  | stream id e =>
    obtain ⟨st, hl, -, -⟩ := step_stream hs
    simp only [Benchmark.finish, hl, Option.bind_some, Event.ended]
    cases e with
    | onPoolReady now => exact ⟨rfl, nofun, nofun⟩
    | onPoolFailure reason =>
        cases reason <;> simp [StreamDecoder.finish, StreamEvent.ends, Event.isPoolTimeout,
          StreamEvent.isPoolTimeout]
    | decodeHeaders headers endStream now now' =>
      cases endStream <;> simp [StreamDecoder.finish, StreamEvent.ends, Event.isPoolTimeout,
        StreamEvent.isPoolTimeout]
    | decodeData data endStream now now' =>
      cases endStream <;> simp [StreamDecoder.finish, StreamEvent.ends, Event.isPoolTimeout,
        StreamEvent.isPoolTimeout]
    | decodeTrailers now now' =>
        simp [StreamDecoder.finish, StreamEvent.ends, Event.isPoolTimeout, StreamEvent.isPoolTimeout]
    | onResetStream reason now now' =>
        simp [StreamDecoder.finish, StreamEvent.ends, Event.isPoolTimeout, StreamEvent.isPoolTimeout]

/-- After the events, each started request is either outstanding or has been reported. -/
structure Reported (es : List Event) (b : Benchmark) : Prop where
  callbacks : b.completionCallbacks.map Prod.fst = endedRequests es
  deletes : b.deferredDeletes = endedRequests es
  nodup : (b.streams.map Prod.fst ++ endedRequests es).Nodup
  fresh : ∀ id ∈ b.streams.map Prod.fst ++ endedRequests es, id < b.started

theorem endedRequests_snoc (es : List Event) (e : Event) :
    endedRequests (es ++ [e]) = endedRequests es ++ e.ended.toList := by
  rw [endedRequests, List.filterMap_append]
  cases h : e.ended <;> simp [h, endedRequests]

theorem stream_reported {c : Config} {es : List Event} {b b' : Benchmark} {id : Nat} {e : StreamEvent}
    (h : Reported es b) (hm : Measuring b) (hs : step c b (.stream id e) = some b') :
    Reported (es ++ [.stream id e]) b' := by
  obtain ⟨st, hl, ha, hcases⟩ := step_stream hs
  have hmem : id ∈ b.streams.map Prod.fst := List.mem_map_of_mem (mem_of_lookup hl)
  have hfiles := handle_files c (hm.streams _ (mem_of_lookup hl)) b.client ha
  rcases hcases with ⟨client, d, heq, rfl⟩ | ⟨client, complete, success, heq, rfl⟩
  · rw [heq] at hfiles
    have hended : endedRequests (es ++ [.stream id e]) = endedRequests es := by
      rw [endedRequests_snoc, Event.ended, hfiles.progress.1]
      exact List.append_nil _
    constructor
    · exact h.callbacks.trans hended.symm
    · exact h.deletes.trans hended.symm
    · rw [map_fst_update, hended]; exact h.nodup
    · rw [map_fst_update, hended]; exact h.fresh
  · rw [heq] at hfiles
    have hended : endedRequests (es ++ [.stream id e]) = endedRequests es ++ [id] := by
      have hends : e.ends = true := hfiles.progress
      rw [endedRequests_snoc, Event.ended, hends]
      rfl
    -- The request moves from the outstanding ones to the ended ones.
    have hsub : ((b.streams.filter (·.1 ≠ id)).map Prod.fst ++ endedRequests es).Sublist
        (b.streams.map Prod.fst ++ endedRequests es) :=
      (List.filter_sublist.map _).append_right _
    have hnot : id ∉ (b.streams.filter (·.1 ≠ id)).map Prod.fst ++ endedRequests es := by
      intro hin
      rcases List.mem_append.mp hin with hin | hin
      · obtain ⟨p, hp, rfl⟩ := List.mem_map.mp hin
        simp at hp
      · exact List.disjoint_of_nodup_append h.nodup hmem hin
    constructor
    · simp [h.callbacks, hended]
    · simp [h.deletes, hended]
    · rw [hended, ← List.append_assoc]
      exact (h.nodup.sublist hsub).append (List.nodup_singleton id) (by simpa using hnot)
    · intro i hi
      rw [hended, ← List.append_assoc] at hi
      rcases List.mem_append.mp hi with hi | hi
      · exact h.fresh i (hsub.subset hi)
      · rw [List.mem_singleton.mp hi]
        exact h.fresh id (List.mem_append_left _ hmem)

theorem start_reported {c : Config} {es : List Event} {b b' : Benchmark} {pool : Bool}
    {request : Option Request}
    {now : Int} (h : Reported es b) (hs : step c b (.tryStartRequest pool request now) = some b') :
    Reported (es ++ [.tryStartRequest pool request now]) b' := by
  have hended : endedRequests (es ++ [.tryStartRequest pool request now]) = endedRequests es := by
    rw [endedRequests_snoc]
    exact List.append_nil _
  obtain rfl | ⟨d, -, -, -, -, rfl⟩ := step_tryStartRequest hs
  · exact ⟨hended ▸ h.callbacks, hended ▸ h.deletes, hended ▸ h.nodup, hended ▸ h.fresh⟩
  constructor
  · exact h.callbacks.trans hended.symm
  · exact h.deletes.trans hended.symm
  · rw [hended]
    exact List.nodup_cons.mpr ⟨fun hin => absurd (h.fresh _ hin) (lt_irrefl _), h.nodup⟩
  · intro id hid
    rw [hended] at hid
    rcases List.mem_cons.mp hid with rfl | hid
    · exact Nat.lt_succ_self _
    · exact (h.fresh id hid).trans (Nat.lt_succ_self _)

/-! ## The accounts -/

/-- A response that the event completes has a status of one class. -/
def FilesAlike (b : Benchmark) (e : Event) : Prop :=
  ∀ status, b.finish e = some (.response status) → StatusFits status

/-- What holds after the events of a run that started at `b₀`. -/
structure Tallied (c : Config) (b₀ : Benchmark) (es : List Event) (b : Benchmark) : Prop where
  measuring : Measuring b
  reported : Reported es b
  finished : (endedRequests es).length = b.client.tally.finished + poolTimeouts es
  balanced : b.client.tally.Balanced
  exact : b.client.tally.http .httpXxx = b.client.tally.latency .httpXxx ↔
    Runs.AllSteps (step c) FilesAlike b₀ es

theorem tallied_init (c : Config) : Tallied c (.init true) [] (.init true) where
  measuring := ⟨rfl, fun _ hp => absurd hp List.not_mem_nil⟩
  reported := ⟨rfl, rfl, List.nodup_nil, fun _ hid => absurd hid List.not_mem_nil⟩
  finished := rfl
  balanced := ⟨rfl, rfl, fun _ _ => le_rfl⟩
  exact := iff_of_true rfl trivial

theorem poolTimeouts_snoc (es : List Event) (e : Event) :
    poolTimeouts (es ++ [e]) = poolTimeouts es + if e.isPoolTimeout then 1 else 0 := by
  rw [poolTimeouts, List.countP_append, List.countP_singleton, poolTimeouts]

theorem step_tallied {c : Config} {b₀ b b' : Benchmark} {es : List Event} {e : Event}
    (hr : Runs.exec (step c) b₀ es = some b) (h : Tallied c b₀ es b) (hs : step c b e = some b') :
    Tallied c b₀ (es ++ [e]) b' := by
  obtain ⟨hmeasuring, htally⟩ := step_tally h.measuring hs
  obtain ⟨hsome, htimeout⟩ := finish_isSome hs
  have hreported : Reported (es ++ [e]) b' := by
    cases e with
    | tryStartRequest pool request now => exact start_reported h.reported hs
    | stream id e => exact stream_reported h.reported h.measuring hs
  have hlen := congrArg List.length (endedRequests_snoc es e)
  have hfinished := h.finished
  rw [List.length_append, Option.length_toList] at hlen
  constructor
  case measuring => exact hmeasuring
  case reported => exact hreported
  case finished =>
    rw [htally, poolTimeouts_snoc, hlen, ← hsome]
    cases hf : b.finish e with
    | none =>
      have hno : e.isPoolTimeout = false := by simpa [hf] using htimeout
      simpa [hno] using hfinished
    | some f =>
      have hadd := Tally.finished_file b.client.tally f
      have hiff : f = .poolFailure .timeout ↔ e.isPoolTimeout = true := by simpa [hf] using htimeout
      simp only [hiff] at hadd
      simp only [Option.elim_some, Option.isSome_some, if_true]
      omega
  case balanced =>
    rw [htally]
    cases b.finish e with
    | none => exact h.balanced
    | some f => exact h.balanced.file f
  case exact =>
    rw [htally, Runs.allSteps_snoc hr, ← h.exact, FilesAlike]
    cases b.finish e with
    | none => simp
    | some f => simpa using h.balanced.file_xxx f

theorem run_tallied {c : Config} {es : List Event} {b : Benchmark}
    (hr : Runs.exec (step c) (.init true) es = some b) : Tallied c (.init true) es b :=
  Runs.exec_history (tallied_init c) (fun _ _ _ _ hu h hs => step_tallied hu h hs) hr

/-- Each ended request was called back and deleted once, and no other was. The counters and
the pool timeouts add up to the ended requests, and each class has a latency sample for each
response it counted. -/
structure AccountedOnce (es : List Event) (b : Benchmark) : Prop where
  distinct : (endedRequests es).Nodup
  called : ∀ id, (b.completionCallbacks.map Prod.fst).count id = if id ∈ endedRequests es then 1 else 0
  deleted : ∀ id, b.deferredDeletes.count id = if id ∈ endedRequests es then 1 else 0
  total : (endedRequests es).length =
    Tally.total b.client.counters.http + b.client.counters.streamResets + b.client.counters.poolOverflow +
      b.client.counters.poolConnectionFailure + poolTimeouts es
  classes : ∀ k, (b.client.statistic.latency k).length = b.client.counters.http k
  response : Tally.total (fun k => (b.client.statistic.latency k).length) = b.client.statistic.response.length

/-- A run with latency measurement on accounts for its requests exactly when no response
that completed had a status of `2 ^ 32` or more with low 32 bits from 100 to 599. -/
theorem accountedOnce_iff (c : Config) (es : List Event) (b : Benchmark)
    (hr : Runs.exec (step c) (.init true) es = some b) :
    AccountedOnce es b ↔ Runs.AllSteps (step c) FilesAlike (.init true) es := by
  have h := run_tallied hr
  have hnodup : (endedRequests es).Nodup := (List.nodup_append.mp h.reported.nodup).2.1
  rw [← h.exact, ← h.balanced.classes_iff]
  constructor
  · intro haccounted
    exact haccounted.classes
  · intro hclasses
    constructor
    case distinct => exact hnodup
    case called =>
      intro id
      rw [h.reported.callbacks, hnodup.count]
    case deleted =>
      intro id
      rw [h.reported.deletes, hnodup.count]
    case total => exact h.finished
    case classes => exact hclasses
    case response => exact h.balanced.latency

def responseOf (status : UInt64) : ResponseHeaderMap := ⟨status, 0, []⟩

/-- A request that gets a response with this status. -/
def statusRun (status : UInt64) : List Event :=
  [.tryStartRequest true (some ⟨[], []⟩) 0, .stream 0 (.onPoolReady 1),
    .stream 0 (.decodeHeaders (responseOf status) true 2 2)]

theorem accountedOnce_ok_response :
    ∃ b, Runs.exec (step oneSlot) (.init true) (statusRun 200) = some b ∧
      AccountedOnce (statusRun 200) b := by
  obtain ⟨b, hb⟩ : ∃ b, Runs.exec (step oneSlot) (.init true) (statusRun 200) = some b := ⟨_, rfl⟩
  refine ⟨b, hb, (accountedOnce_iff oneSlot (statusRun 200) b hb).mpr ?_⟩
  apply Runs.allSteps_of_forall
  intro e he b status hfinish
  simp only [statusRun, List.mem_cons, List.not_mem_nil, or_false] at he
  rcases he with rfl | rfl | rfl
  · cases hfinish
  · obtain ⟨st, -, h⟩ := Option.bind_eq_some_iff.mp hfinish
    cases h
  · obtain ⟨st, -, h⟩ := Option.bind_eq_some_iff.mp hfinish
    cases h
    decide

/-- The status `2 ^ 32 + 200` is counted under `http_xxx` and its latency is filed under 2xx. -/
theorem wide_status_misfiled :
    ∃ b, Runs.exec (step oneSlot) (.init true) (statusRun 4294967496) = some b ∧
      b.client.counters.http .httpXxx = 1 ∧ b.client.statistic.latency .httpXxx = [] ∧
      b.client.counters.http .http2xx = 0 ∧ b.client.statistic.latency .http2xx = [1] ∧
      ¬ AccountedOnce (statusRun 4294967496) b := by
  refine ⟨_, rfl, by decide, by decide, by decide, by decide, fun h => ?_⟩
  exact absurd (h.classes .http2xx) (by decide)

end Nighthawk.BenchmarkClient
