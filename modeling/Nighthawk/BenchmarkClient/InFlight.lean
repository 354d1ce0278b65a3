import Mathlib.Tactic.Ring
import Nighthawk.Lib.Keyed
import Nighthawk.Lib.Runs
import Nighthawk.BenchmarkClient.Code

/-!
# In-flight accounting

`requests_initiated_ - requests_completed_` is what `tryStartRequest` compares with the
limit. It counts the streams that have not ended, and each pool failure as one more.
-/

namespace Nighthawk.BenchmarkClient

/-! ## What the calls do to the two counters -/

/-- `requests_initiated_` and `requests_completed_`. -/
def BenchmarkClientHttpImpl.counts (s : BenchmarkClientHttpImpl) : UInt64 × UInt64 :=
  (s.requestsInitiated, s.requestsCompleted)

theorem foldl_keeps {α β γ : Type} (f : α → γ) (g : α → β → α) (h : ∀ a b, f (g a b) = f a) (l : List β)
    (a : α) : f (l.foldl g a) = f a := by
  induction l generalizing a with
  | nil => rfl
  | cons b l ih => rw [List.foldl_cons, ih, h]

@[simp] theorem handleResponseData_counts (c : Config) (s : BenchmarkClientHttpImpl) (data : Str) :
    (s.handleResponseData c data).counts = s.counts := by
  apply foldl_keeps
  intro s plugin
  simp only [BenchmarkClientHttpImpl.handleResponseDataOne]
  split <;> rfl

@[simp] theorem client_onComplete_counts (c : Config) (s : BenchmarkClientHttpImpl) (success : Bool)
    (headers : ResponseHeaderMap) :
    (s.onComplete c success headers).counts = (s.requestsInitiated, s.requestsCompleted + 1) := by
  unfold BenchmarkClientHttpImpl.onComplete
  rw [foldl_keeps BenchmarkClientHttpImpl.counts]
  · cases success <;> rfl
  · intro s plugin
    simp only [BenchmarkClientHttpImpl.handleResponseHeadersOne]
    split <;> rfl

@[simp] theorem client_onPoolFailure_counts (s : BenchmarkClientHttpImpl) (reason : PoolFailureReason) :
    (s.onPoolFailure reason).counts = s.counts := by
  cases reason <;> rfl

theorem recordLatency_counts (d : StreamDecoder) (s : BenchmarkClientHttpImpl) (now now' : Int) :
    (d.recordLatency s now now').counts = s.counts := by
  unfold StreamDecoder.recordLatency
  cases d.streamInfo.responseCode <;> rfl

theorem decoder_onComplete_counts (c : Config) (d : StreamDecoder) (s : BenchmarkClientHttpImpl)
    (success : Bool)
    (now now' : Int) :
    (d.onComplete c s success now now').1.counts = (s.requestsInitiated, s.requestsCompleted + 1) ∧
      (d.onComplete c s success now now').2 = .ended d.complete success := by
  refine ⟨?_, rfl⟩
  unfold StreamDecoder.onComplete
  simp only [client_onComplete_counts]
  cases success && d.measureLatencies with
  | false => rfl
  | true => exact congrArg (fun p : UInt64 × UInt64 => (p.1, p.2 + 1)) (recordLatency_counts d s now now')

/-- A decoder that goes on leaves the counters alone. One that ends completes a request,
unless it ends by a pool failure. -/
def StepsCounts (isPoolFailure : Bool) (s : BenchmarkClientHttpImpl)
    (r : BenchmarkClientHttpImpl × Progress) : Prop :=
  match r.2 with
  | .ongoing _ => r.1.counts = s.counts ∧ isPoolFailure = false
  | .ended _ _ =>
    r.1.counts = (s.requestsInitiated, if isPoolFailure then s.requestsCompleted else s.requestsCompleted + 1)

def StreamEvent.isPoolFailure : StreamEvent → Bool
  | .onPoolFailure _ => true
  | _ => false

def Event.isPoolFailure : Event → Bool
  | .stream _ e => e.isPoolFailure
  | .tryStartRequest .. => false

theorem handle_counts (c : Config) (d : StreamDecoder) (s : BenchmarkClientHttpImpl) (e : StreamEvent) :
    StepsCounts e.isPoolFailure s (d.handle c s e) := by
  cases e with
  | onPoolReady now =>
    simp only [StreamDecoder.handle, StreamDecoder.onPoolReady]
    refine ⟨?_, rfl⟩
    split <;> rfl
  | onPoolFailure reason => exact client_onPoolFailure_counts s reason
  | decodeHeaders headers endStream now now' =>
    simp only [StreamDecoder.handle, StreamDecoder.decodeHeaders]
    cases endStream with
    | false => exact ⟨rfl, rfl⟩
    | true => exact (decoder_onComplete_counts c _ _ true now now').1
  | decodeData data endStream now now' =>
    simp only [StreamDecoder.handle, StreamDecoder.decodeData]
    cases endStream with
    | false => exact ⟨handleResponseData_counts c s data, rfl⟩
    | true =>
      refine (handleResponseData_counts c _ data).trans ?_
      exact (decoder_onComplete_counts c _ s true now now').1
  | decodeTrailers now now' => exact (decoder_onComplete_counts c _ s true now now').1
  | onResetStream reason now now' => exact (decoder_onComplete_counts c _ s false now now').1

/-! ## What a step can do -/

theorem step_tryStartRequest {c : Config} {b b' : Benchmark} {pool : Bool}
    {request : Option Request} {now : Int}
    (h : step c b (.tryStartRequest pool request now) = some b') :
    b' = b ∨ ∃ d, ¬ (c.provideResourceBackpressure = true ∧
        c.maxInFlight ≤ b.client.requestsInitiated - b.client.requestsCompleted) ∧
      d.measureLatencies = b.client.measureLatencies ∧ d.responseHeaders = none ∧
      d.streamInfo.responseCode = none ∧
      b' = { b with
        client := { b.client with requestsInitiated := b.client.requestsInitiated + 1 }
        streams := (b.started, { decoder := d }) :: b.streams
        started := b.started + 1 } := by
  simp only [step, BenchmarkClientHttpImpl.tryStartRequest] at h
  cases pool with
  | false => exact Or.inl (Option.some.inj h).symm
  | true =>
    by_cases hbp : c.provideResourceBackpressure = true ∧
        c.maxInFlight ≤ b.client.requestsInitiated - b.client.requestsCompleted
    · simp only [Bool.not_true, Bool.false_eq_true, if_false, ge_iff_le, if_pos hbp] at h
      exact Or.inl (Option.some.inj h).symm
    · simp only [Bool.not_true, Bool.false_eq_true, if_false, ge_iff_le, if_neg hbp] at h
      cases request with
      | none => exact Or.inl (Option.some.inj h).symm
      | some request => exact Or.inr ⟨_, hbp, rfl, rfl, rfl, (Option.some.inj h).symm⟩

theorem ready_of_ongoing {c : Config} {st : Stream} {e : StreamEvent} {s client : BenchmarkClientHttpImpl}
    {d : StreamDecoder} : st.allows e = true → st.decoder.handle c s e = (client, .ongoing d) →
    (st.poolReady || (match e with | .onPoolReady _ => true | _ => false)) = true := by
  intro ha h
  cases e with
  | onPoolReady now => exact Bool.or_true _
  | onPoolFailure reason => cases h
  | decodeHeaders headers endStream now now' =>
    simp only [Stream.allows, Bool.and_eq_true] at ha
    simp [ha.1]
  | decodeData data endStream now now' =>
    simp only [Stream.allows, Bool.and_eq_true] at ha
    simp [ha.1]
  | decodeTrailers now now' => cases h
  | onResetStream reason now now' => cases h

theorem step_stream {c : Config} {b b' : Benchmark} {id : Nat} {e : StreamEvent}
    (h : step c b (.stream id e) = some b') :
    ∃ st, b.streams.lookup id = some st ∧ st.allows e = true ∧
      ((∃ client d, st.decoder.handle c b.client e = (client, .ongoing d) ∧
        b' = { b with
          client
          streams := b.streams.map fun (i, st) => if i = id then (i, ⟨d, true⟩) else (i, st) }) ∨
      ∃ client complete success, st.decoder.handle c b.client e = (client, .ended complete success) ∧
        b' = { b with
          client
          streams := b.streams.filter (·.1 ≠ id)
          completionCallbacks := b.completionCallbacks ++ [(id, complete, success)]
          deferredDeletes := b.deferredDeletes ++ [id]
          poolTimeouts := b.poolTimeouts + if e.isPoolTimeout then 1 else 0 }) := by
  simp only [step] at h
  cases hl : b.streams.lookup id with
  | none => simp [hl] at h
  | some st =>
    simp only [hl] at h
    cases ha : st.allows e with
    | false => simp [ha] at h
    | true =>
      refine ⟨st, rfl, ha, ?_⟩
      simp only [ha, Bool.not_true, Bool.false_eq_true, if_false] at h
      rcases hr : st.decoder.handle c b.client e with ⟨client, d | ⟨complete, success⟩⟩
      · rw [hr] at h
        have hready := ready_of_ongoing ha hr
        refine Or.inl ⟨client, d, rfl, (Option.some.inj h).symm.trans ?_⟩
        exact congrArg (fun ready => { b with
          client
          streams := b.streams.map fun (i, st) => if i = id then (i, ⟨d, ready⟩) else (i, st) }) hready
      · rw [hr] at h
        exact Or.inr ⟨client, complete, success, rfl, (Option.some.inj h).symm⟩

/-! ## The streams that have not ended -/

theorem mem_of_lookup {l : List (Nat × Stream)} {id : Nat} {st : Stream} (h : l.lookup id = some st) :
    (id, st) ∈ l := by
  obtain ⟨before, after, rfl, -⟩ := List.lookup_eq_some_iff.mp h
  exact List.mem_append_right _ List.mem_cons_self

theorem length_filter_of_lookup (l : List (Nat × Stream)) (id : Nat) (st : Stream)
    (hn : (l.map Prod.fst).Nodup)
    (h : l.lookup id = some st) : (l.filter (·.1 ≠ id)).length + 1 = l.length :=
  Keyed.length_filter_ne Prod.fst hn (mem_of_lookup h)

theorem map_fst_update (l : List (Nat × Stream)) (id : Nat) (st : Stream) :
    (l.map fun (i, x) => if i = id then (i, st) else (i, x)).map Prod.fst = l.map Prod.fst := by
  rw [List.map_map]
  apply List.map_congr_left
  intro p _
  simp only [Function.comp_apply]
  split <;> rfl

/-! ## The invariant -/

/-- The limit that applies to the protocol. -/
def Config.activeLimit (c : Config) : UInt32 :=
  if c.protocol = .http2 ∨ c.protocol = .http3 then c.maxActiveRequests else c.connectionLimit

theorem maxInFlight_toNat (c : Config) :
    c.maxInFlight.toNat = c.maxPendingRequests.toNat + c.activeLimit.toNat := by
  have h1 := c.maxPendingRequests.toNat_lt
  have h2 := c.activeLimit.toNat_lt
  have h : c.maxInFlight = c.maxPendingRequests.toUInt64 + c.activeLimit.toUInt64 := by
    unfold Config.maxInFlight Config.activeLimit
    split <;> rfl
  rw [h, UInt64.toNat_add, UInt32.toNat_toUInt64, UInt32.toNat_toUInt64]
  omega

theorem maxInFlight_lt (c : Config) : c.maxInFlight.toNat < 2 ^ 33 := by
  have h1 := c.maxPendingRequests.toNat_lt
  have h2 := c.activeLimit.toNat_lt
  rw [maxInFlight_toNat]
  omega

/-- What `tryStartRequest` compares with `max_in_flight`. -/
def inFlight (b : Benchmark) : Nat := (b.client.requestsInitiated - b.client.requestsCompleted).toNat

/-- The number of started requests whose `StreamDecoder` has not ended. -/
def outstanding (b : Benchmark) : Nat := b.streams.length

/-- The counters after `n` pool failures. -/
structure Accounted (c : Config) (n : Nat) (b : Benchmark) : Prop where
  counts : b.client.requestsInitiated = b.client.requestsCompleted + UInt64.ofNat (outstanding b + n)
  bound : outstanding b + n ≤ c.maxInFlight.toNat
  nodup : (b.streams.map Prod.fst).Nodup
  fresh : ∀ id ∈ b.streams.map Prod.fst, id < b.started

theorem accounted_init (c : Config) (measureLatencies : Bool) : Accounted c 0 (.init measureLatencies) where
  counts := rfl
  bound := Nat.zero_le _
  nodup := List.nodup_nil
  fresh := by simp [Benchmark.init]

theorem inFlight_eq {c : Config} {n : Nat} {b : Benchmark} (h : Accounted c n b) :
    inFlight b = outstanding b + n := by
  have hlt := maxInFlight_lt c
  have hb := h.bound
  have hcounts := h.counts
  have : b.client.requestsInitiated - b.client.requestsCompleted =
    UInt64.ofNat (outstanding b + n) := by grind
  rw [inFlight, this, UInt64.toNat_ofNat']
  omega

theorem start_accounted {c : Config} (hc : c.provideResourceBackpressure = true) {n : Nat} {b b' : Benchmark}
    {pool : Bool} {request : Option Request} {now : Int} (h : Accounted c n b)
    (hs : step c b (.tryStartRequest pool request now) = some b') : Accounted c n b' := by
  obtain rfl | ⟨d, hroom, -, -, -, rfl⟩ := step_tryStartRequest hs
  · exact h
  have hlt : outstanding b + n < c.maxInFlight.toNat := by
    rw [← inFlight_eq h, inFlight, ← UInt64.lt_iff_toNat_lt]
    exact UInt64.not_le.mp fun hge => hroom ⟨hc, hge⟩
  constructor
  · have hcounts := h.counts
    have hsucc : UInt64.ofNat (outstanding b + n + 1) = UInt64.ofNat (outstanding b + n) + 1 := by
      rw [UInt64.ofNat_add]; rfl
    simp only [outstanding, List.length_cons] at hcounts hsucc ⊢
    rw [show b.streams.length + 1 + n = b.streams.length + n + 1 by omega, hsucc, hcounts]
    grind
  · simp only [outstanding, List.length_cons] at hlt ⊢
    omega
  · simp only [List.map_cons, List.nodup_cons]
    exact ⟨fun hm => absurd (h.fresh _ hm) (lt_irrefl _), h.nodup⟩
  · intro id hid
    rcases List.mem_cons.mp hid with rfl | hid
    · exact Nat.lt_succ_self _
    · exact (h.fresh id hid).trans (Nat.lt_succ_self _)

theorem stream_accounted {c : Config} {n : Nat} {b b' : Benchmark} {id : Nat} {e : StreamEvent}
    (h : Accounted c n b) (hs : step c b (.stream id e) = some b') :
    Accounted c (n + if e.isPoolFailure then 1 else 0) b' := by
  obtain ⟨st, hl, -, hcases⟩ := step_stream hs
  have hcounts := handle_counts c st.decoder b.client e
  rcases hcases with ⟨client, d, heq, rfl⟩ | ⟨client, complete, success, heq, rfl⟩
  · rw [heq] at hcounts
    obtain ⟨hkeep, hpf⟩ := hcounts
    obtain ⟨hi, hcomp⟩ := Prod.mk.inj hkeep
    rw [hpf]
    refine ⟨?_, ?_, ?_, ?_⟩
    · simp only at hi hcomp
      simpa [outstanding, hi, hcomp] using h.counts
    · simpa [outstanding] using h.bound
    · rw [map_fst_update]; exact h.nodup
    · rw [map_fst_update]; exact h.fresh
  · rw [heq] at hcounts
    obtain ⟨hi, hcomp⟩ := Prod.mk.inj hcounts
    have hlen := length_filter_of_lookup b.streams id st h.nodup hl
    have hsub : ((b.streams.filter (·.1 ≠ id)).map Prod.fst).Sublist (b.streams.map Prod.fst) :=
      List.filter_sublist.map _
    have hcnt := h.counts
    have hbound := h.bound
    refine ⟨?_, ?_, h.nodup.sublist hsub, fun i hmem => h.fresh i (hsub.subset hmem)⟩
    · simp only [outstanding] at hi hcomp hcnt ⊢
      rw [hi, hcomp, hcnt, ← hlen]
      generalize (b.streams.filter (·.1 ≠ id)).length = k
      cases e.isPoolFailure with
      | true => simp only [if_true]; congr 2; omega
      | false =>
        simp only [Bool.false_eq_true, if_false, Nat.add_zero]
        rw [show k + 1 + n = k + n + 1 by omega, UInt64.ofNat_add]
        grind
    · simp only [outstanding] at hbound ⊢
      split <;> omega

def poolFailures (es : List Event) : Nat := es.countP Event.isPoolFailure

theorem run_accounted {c : Config} (hc : c.provideResourceBackpressure = true) {n : Nat} {b b' : Benchmark}
    {es : List Event} (h : Accounted c n b) (hr : Runs.exec (step c) b es = some b') :
    Accounted c (n + poolFailures es) b' := by
  induction es generalizing b n with
  | nil => cases hr; exact h
  | cons e es ih =>
    obtain ⟨u, hu, hes⟩ := (Runs.exec_cons_eq_some _).mp hr
    have hstep : Accounted c (n + if e.isPoolFailure then 1 else 0) u := by
      cases e with
      | tryStartRequest pool request now => exact start_accounted hc h hu
      | stream id e => exact stream_accounted h hu
    have := ih hstep hes
    rw [poolFailures, List.countP_cons] at *
    rwa [show n + (es.countP Event.isPoolFailure + if e.isPoolFailure = true then 1 else 0) =
      (n + if e.isPoolFailure = true then 1 else 0) + es.countP Event.isPoolFailure by omega]

/-! ## Exact accounting -/

/-- The difference of the counters is the number of outstanding requests, and a start is
refused for backpressure exactly when that number has reached the limit. -/
def AccountsExactly (c : Config) (b : Benchmark) : Prop :=
  inFlight b = outstanding b ∧
    ∀ request now, (b.client.tryStartRequest c true request now).2 = .backpressure ↔
      c.maxPendingRequests.toNat + c.activeLimit.toNat ≤ outstanding b

theorem tryStartRequest_backpressure {c : Config} (hc : c.provideResourceBackpressure = true) (b : Benchmark)
    (request : Option Request) (now : Int) :
    (b.client.tryStartRequest c true request now).2 = .backpressure ↔ c.maxInFlight.toNat ≤ inFlight b := by
  rw [inFlight, ← UInt64.le_iff_toNat_le]
  simp only [BenchmarkClientHttpImpl.tryStartRequest, hc, true_and, Bool.not_true, Bool.false_eq_true,
    if_false, ge_iff_le]
  split_ifs with h
  · simp [h]
  · cases request <;> simp [h]

/-- A closed-loop client accounts exactly for as long as no stream ended by a pool failure. -/
theorem accountsExactly_iff_no_pool_failure (c : Config) (hc : c.provideResourceBackpressure = true)
    (measureLatencies : Bool) (es : List Event) (b : Benchmark)
    (hr : Runs.exec (step c) (.init measureLatencies) es = some b) :
    AccountsExactly c b ↔ ∀ e ∈ es, e.isPoolFailure = false := by
  have hacc := run_accounted hc (accounted_init c measureLatencies) hr
  have hflight : inFlight b = outstanding b + poolFailures es := by
    have := inFlight_eq hacc
    omega
  have hzero : poolFailures es = 0 ↔ ∀ e ∈ es, e.isPoolFailure = false := by
    rw [poolFailures, List.countP_eq_zero]
    simp
  rw [← hzero]
  constructor
  · rintro ⟨hexact, -⟩
    omega
  · intro hno
    refine ⟨by omega, fun request now => ?_⟩
    rw [tryStartRequest_backpressure hc, maxInFlight_toNat, hflight, hno, Nat.add_zero]

/-- One connection and no queue. -/
def oneSlot : Config :=
  { protocol := .http11, connectionLimit := 1, maxPendingRequests := 0, provideResourceBackpressure := true }

def resetRun : List Event :=
  [.tryStartRequest true (some ⟨[], []⟩) 0, .stream 0 (.onPoolReady 1),
    .stream 0 (.onResetStream .remoteReset 2 2)]

theorem accountsExactly_after_reset :
    ∃ b, Runs.exec (step oneSlot) (.init true) resetRun = some b ∧ AccountsExactly oneSlot b := by
  obtain ⟨b, hb⟩ : ∃ b, Runs.exec (step oneSlot) (.init true) resetRun = some b := ⟨_, rfl⟩
  exact ⟨b, hb, (accountsExactly_iff_no_pool_failure oneSlot rfl true resetRun b hb).mpr (by decide)⟩

def poolFailureRun : List Event :=
  [.tryStartRequest true (some ⟨[], []⟩) 0, .stream 0 (.onPoolFailure .remoteConnectionFailure)]

/-- After a pool failure the only slot stays taken with no request outstanding. -/
theorem pool_failure_keeps_slot :
    ∃ b, Runs.exec (step oneSlot) (.init true) poolFailureRun = some b ∧ outstanding b = 0 ∧ inFlight b = 1 ∧
      (b.client.tryStartRequest oneSlot true (some ⟨[], []⟩) 1).2 = .backpressure ∧
        ¬ AccountsExactly oneSlot b := by
  refine ⟨_, rfl, rfl, by decide, by decide, ?_⟩
  rintro ⟨hexact, -⟩
  exact absurd hexact (by decide)

end Nighthawk.BenchmarkClient
