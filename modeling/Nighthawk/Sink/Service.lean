import Nighthawk.Lib.Rpc
import Nighthawk.Sink.Loads
import Nighthawk.Sink.Merge

/-!
# The sink service and its clients

The service stores the pieces that clients send, and sends the merge of those it loads. Its calls on
the file sink overlap. A client that was told that its piece is stored finds the results of the piece
in whatever it asks for later.
-/

namespace Nighthawk.Sink

open Results

/-! ## The service -/

/-- `absl::StatusCodeToString`. -/
def codeText : StatusCode → Str
  | .cancelled => "CANCELLED".toList
  | .unknown => "UNKNOWN".toList
  | .invalidArgument => "INVALID_ARGUMENT".toList
  | .deadlineExceeded => "DEADLINE_EXCEEDED".toList
  | .notFound => "NOT_FOUND".toList
  | .alreadyExists => "ALREADY_EXISTS".toList
  | .permissionDenied => "PERMISSION_DENIED".toList
  | .resourceExhausted => "RESOURCE_EXHAUSTED".toList
  | .failedPrecondition => "FAILED_PRECONDITION".toList
  | .aborted => "ABORTED".toList
  | .outOfRange => "OUT_OF_RANGE".toList
  | .unimplemented => "UNIMPLEMENTED".toList
  | .internal => "INTERNAL".toList
  | .unavailable => "UNAVAILABLE".toList
  | .dataLoss => "DATA_LOSS".toList
  | .unauthenticated => "UNAUTHENTICATED".toList

def abslStatusToGrpcStatus (status : Status) : Status :=
  ⟨.internal, codeText status.code ++ ": ".toList ++ status.message⟩

/-- `StoreExecutionResponseStream`, with what `StoreExecutionResultPiece` returns for each piece that
is read. The message in return is empty. -/
def storeExecutionResponseStream : List (Except Status Unit) → Rpc.Served Unit Status
  | [] => ⟨[()], some (.ok ())⟩
  | .error status :: _ => ⟨[], some (.error (abslStatusToGrpcStatus status))⟩
  | .ok () :: pieces => storeExecutionResponseStream pieces

/-- `SinkRequestStream`, with what `LoadExecutionResult` returns for each id that is read. `writes`
tells which writes succeed, from some point on all of them. -/
def sinkRequestStream (m : Messages) :
    List Bool → List (Str × Except Status (List ExecutionResponse)) → Rpc.Served ExecutionResponse Status
  | _, [] => ⟨[], some (.ok ())⟩
  | _, (_, .error status) :: _ => ⟨[], some (.error (abslStatusToGrpcStatus status))⟩
  | writes, (executionId, .ok responses) :: requests =>
    match mergeExecutionResponses m executionId responses with
    | .error status => ⟨[], some (.error (abslStatusToGrpcStatus status))⟩
    | .ok response =>
      if writes.headD true then
        let rest := sinkRequestStream m writes.tail requests
        { rest with written := response :: rest.written }
      else ⟨[], some (.error
        (abslStatusToGrpcStatus ⟨.internal, "Failure writing response to stream.".toList⟩))⟩

/-! ## The clients -/

namespace NighthawkSinkClientImpl

def unwritten : Status := ⟨.unavailable, "Failed to write request to the Nighthawk Sink gRPC channel.".toList⟩

def unclosed : Status := ⟨.internal, "WritesDone() failed on the Nighthawk Sink gRPC channel.".toList⟩

def storeExecutionResponseStream (x : Rpc.Exchange Unit Status) : Except Status Unit :=
  if !x.wrote then .error unwritten
  else if !x.closed then .error unclosed
  else x.status

/-- A second message ends the client. Without a message the response is an empty one. -/
def sinkRequestStream (x : Rpc.Exchange ExecutionResponse Status) :
    Option (Except Status ExecutionResponse) :=
  if !x.wrote then some (.error unwritten)
  else if !x.closed then some (.error unclosed)
  else
    match x.messages with
    | [] => some (x.status.map fun _ => {})
    | [response] => some (x.status.map fun _ => response)
    | _ :: _ :: _ => none

end NighthawkSinkClientImpl

/-! ## The merge -/

variable {m : Messages} {id : Str}

theorem mergeOutput_results {input target merged : Output} (h : mergeOutput m input target = .ok merged) :
    merged.results = target.results ++ input.results := by
  unfold mergeOutput at h
  split_ifs at h <;> cases h <;> rfl

theorem mergePieces_results {pieces : List ExecutionResponse} {e : Option RpcStatus} {target : Output}
    {merged : ExecutionResponse} (h : mergePieces m id pieces e target = .ok merged) :
    merged.executionId = id ∧ (outputOf merged).results = target.results ++ resultsOf pieces := by
  induction pieces generalizing e target with
  | nil =>
    cases h
    exact ⟨rfl, (List.append_nil _).symm⟩
  | cons piece pieces ih =>
    unfold mergePieces at h
    split at h
    · cases h
    · obtain ⟨next, hnext, h⟩ := Fallible.bind_eq_ok.mp h
      obtain ⟨hid, hresults⟩ := ih h
      refine ⟨hid, ?_⟩
      rw [hresults, mergeOutput_results hnext, List.append_assoc]
      rfl

theorem merged_results {pieces : List ExecutionResponse} {merged : ExecutionResponse}
    (h : mergeExecutionResponses m id pieces = .ok merged) :
    merged.executionId = id ∧ (outputOf merged).results = resultsOf pieces := by
  unfold mergeExecutionResponses at h
  split_ifs at h
  exact mergePieces_results h

/-! ## What the clients are told -/

/-- A client was told that the piece of this call is stored. -/
def StoreCall.Acked (c : StoreCall) : Prop :=
  ∃ result y, c.pc = .done result ∧
    Rpc.Carried (fun reads : List ExecutionResponse =>
      storeExecutionResponseStream (reads.map fun _ => result)) c.response y ∧
    NighthawkSinkClientImpl.storeExecutionResponseStream y = .ok ()

theorem StoreCall.Acked.stored {c : StoreCall} (h : c.Acked) : c.Stored := by
  obtain ⟨result, y, hpc, hcarried, hclient⟩ := h
  have hstatus : y.status = .ok () := by
    unfold NighthawkSinkClientImpl.storeExecutionResponseStream at hclient
    split_ifs at hclient
    exact hclient
  have hthrough := (hcarried.through hstatus).2
  rw [hstatus] at hthrough
  cases result with
  | error status => simp [storeExecutionResponseStream] at hthrough
  | ok u => exact hpc

theorem sinkRequestStream_single (m : Messages) (writes : List Bool) (executionId : Str)
    (result : Except Status (List ExecutionResponse)) :
    (∃ responses merged, result = .ok responses ∧
      mergeExecutionResponses m executionId responses = .ok merged ∧
      sinkRequestStream m writes [(executionId, result)] = ⟨[merged], some (.ok ())⟩) ∨
    ∃ status, sinkRequestStream m writes [(executionId, result)] = ⟨[], some (.error status)⟩ := by
  cases result with
  | error status => exact Or.inr ⟨_, rfl⟩
  | ok responses =>
    unfold sinkRequestStream
    cases hmerge : mergeExecutionResponses m executionId responses with
    | error status => exact Or.inr ⟨_, rfl⟩
    | ok merged =>
      simp only
      by_cases hwrite : writes.headD true = true
      · rw [if_pos hwrite]
        exact Or.inl ⟨responses, merged, rfl, hmerge, rfl⟩
      · rw [if_neg hwrite]
        exact Or.inr ⟨_, rfl⟩

section

variable {x : Rpc.Exchange ExecutionResponse Status} {response : ExecutionResponse}

theorem client_ok (h : NighthawkSinkClientImpl.sinkRequestStream x = some (.ok response)) :
    x.status = .ok () ∧ ∀ merged, x.messages = [merged] → response = merged := by
  unfold NighthawkSinkClientImpl.sinkRequestStream at h
  split_ifs at h
  · cases h
  · cases h
  · split at h
    · rename_i hnil
      obtain ⟨_, hstatus, -⟩ := Fallible.map_eq_ok.mp (Option.some.inj h)
      refine ⟨hstatus, fun merged hmessages => ?_⟩
      rw [hnil] at hmessages
      cases hmessages
    · rename_i message hone
      obtain ⟨_, hstatus, rfl⟩ := Fallible.map_eq_ok.mp (Option.some.inj h)
      refine ⟨hstatus, fun merged hmessages => ?_⟩
      rw [hone] at hmessages
      exact List.head_eq_of_cons_eq hmessages
    · cases h

theorem exists_client (h : x.messages.length ≤ 1) :
    ∃ answer, NighthawkSinkClientImpl.sinkRequestStream x = some answer := by
  unfold NighthawkSinkClientImpl.sinkRequestStream
  split_ifs
  · exact ⟨_, rfl⟩
  · exact ⟨_, rfl⟩
  · split
    · exact ⟨_, rfl⟩
    · exact ⟨_, rfl⟩
    · rename_i hmessages
      rw [hmessages] at h
      simp at h

end

/-- Whatever the interleaving of the calls and whatever the network does, a client that gets a
response for an id gets the results of distinct pieces that were stored under it, each as often as the
piece has it, and among them those of every piece whose client had been told so before the load
began. It never takes an empty response for the answer. -/
theorem sink_round_trip {B : Type} (m : Messages) (wire : Wire (List B)) {es fs : List SinkEvent}
    {s t : Sinks B}
    {executionId reference : Str} {l : LoadCall} {result : Except Status (List ExecutionResponse)}
    (writes : List Bool)
    {x : Rpc.Exchange ExecutionResponse Status} (hs : Runs.exec (Sinks.step wire) {} es = some s)
    (ht : Runs.exec (Sinks.step wire) s (.startLoad executionId reference :: fs) = some t)
    (hl : t.loads[s.loads.length]? = some l) (hdone : l.pc = .done result)
    (hx : Rpc.Carried (fun reads : List Str => sinkRequestStream m writes (reads.map fun id => (id, result)))
      executionId x) :
    ∃ answer, NighthawkSinkClientImpl.sinkRequestStream x = some answer ∧
      ∀ response, answer = .ok response → response.executionId = executionId ∧
        ∃ calls : List StoreCall, (outputOf response).results = resultsOf (calls.map StoreCall.response) ∧
          (calls.map StoreCall.uuid).Nodup ∧ (∀ c ∈ calls, Kept t.stores executionId c) ∧
          ∀ c ∈ s.stores, c.response.executionId = executionId → c.Acked → c ∈ calls := by
  have hsingle := sinkRequestStream_single m writes executionId result
  have hlength : x.messages.length ≤ 1 := by
    refine hx.length_le ?_ rfl
    rcases hsingle with ⟨_, _, -, -, h⟩ | ⟨_, h⟩
    · simp [h]
    · simp [h]
  obtain ⟨answer, hanswer⟩ := exists_client hlength
  refine ⟨answer, hanswer, ?_⟩
  rintro response rfl
  obtain ⟨hstatus, hmessage⟩ := client_ok hanswer
  obtain ⟨hwritten, hserved⟩ := hx.through hstatus
  rw [hstatus] at hserved
  rcases hsingle with ⟨responses, merged, rfl, hmerge, h⟩ | ⟨status, h⟩
  · simp only [List.map_cons, List.map_nil, h] at hwritten
    obtain rfl := hmessage merged hwritten
    obtain ⟨hid, hresults⟩ := merged_results hmerge
    obtain ⟨calls, rfl, hdistinct, hkept, hall⟩ := (loading_start hs ht).returned hl hdone
    refine ⟨hid, calls, hresults, hdistinct, hkept, ?_⟩
    intro c hc hkey hacked
    exact hall c ⟨hc, hacked.stored, hkey⟩
  · simp only [List.map_cons, List.map_nil, h] at hserved
    cases hserved

/-- The piece of `storeOne`, whose client was told that it is stored, is in the response. -/
theorem sink_round_trip_one :
    ∃ (s t : Sinks ExecutionResponse) (response : ExecutionResponse),
      Runs.exec (Sinks.step unitWire) {} storeOne = some s ∧
      Runs.exec (Sinks.step unitWire) s (.startLoad secondUuid firstUuid :: loadOne) = some t ∧
      NighthawkSinkClientImpl.sinkRequestStream ⟨true, true, [response], .ok ()⟩ = some (.ok response) ∧
      ∃ calls : List StoreCall, (outputOf response).results = resultsOf (calls.map StoreCall.response) ∧
        ∃ c ∈ s.stores, c.Acked ∧ c ∈ calls := by
  have hrun : ∃ s t l c response, Runs.exec (Sinks.step unitWire) {} storeOne = some s ∧
      Runs.exec (Sinks.step unitWire) s (.startLoad secondUuid firstUuid :: loadOne) = some t ∧
      t.loads[s.loads.length]? = some l ∧ l.pc = .done (.ok [emptyResponse]) ∧
      s.stores[0]? = some c ∧ c.pc = .done (.ok ()) ∧ c.response = emptyResponse ∧
      mergeExecutionResponses plainMessages secondUuid [emptyResponse] = .ok response :=
    ⟨_, _, _, _, _, rfl, rfl, rfl, rfl, rfl, rfl, rfl, rfl⟩
  obtain ⟨s, t, l, c, response, hs, ht, hl, hdone, hc, hpc, hresponse, hmerge⟩ := hrun
  have hacked : c.Acked := ⟨.ok (), ⟨true, true, [()], .ok ()⟩, hpc, Or.inl ⟨rfl, rfl⟩, rfl⟩
  have hserved : sinkRequestStream plainMessages [] [(secondUuid, .ok [emptyResponse])] =
      ⟨[response], some (.ok ())⟩ := by
    simp [sinkRequestStream, hmerge]
  have hx : Rpc.Carried
      (fun reads : List Str =>
        sinkRequestStream plainMessages [] (reads.map fun id => (id, .ok [emptyResponse])))
      secondUuid ⟨true, true, [response], .ok ()⟩ := by
    refine Or.inl ⟨?_, ?_⟩ <;> simp [hserved]
  obtain ⟨answer, hanswer, hok⟩ := sink_round_trip plainMessages unitWire [] hs ht hl hdone hx
  have hclient : NighthawkSinkClientImpl.sinkRequestStream ⟨true, true, [response], .ok ()⟩ =
    some (.ok response) := rfl
  obtain ⟨-, calls, hresults, -, -, hall⟩ := hok response (Option.some.inj (hanswer.symm.trans hclient))
  have hmem := List.mem_of_getElem? hc
  exact ⟨s, t, response, hs, ht, hclient, calls, hresults, c, hmem, hacked,
    hall c hmem (by rw [hresponse]; rfl) hacked⟩

end Nighthawk.Sink
