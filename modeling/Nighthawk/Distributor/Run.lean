import Nighthawk.Distributor.Code
import Mathlib.Data.List.Forall2

/-!
# A distributed run

A client of the distributor gets a response only when every service gave one, and then it has all of
them in the order of the services. Of what went wrong it learns nothing: when a request is turned
down, it hears that there was no response, and when services fail, only that some did.
-/

namespace Nighthawk.Distributor

open Options Results

/-- The call brought just this response and ended well. -/
def Completed (x : Rpc.Exchange ExecutionResponse Status) (response : ExecutionResponse) : Prop :=
  x.wrote = true ∧ x.closed = true ∧ x.messages = [response] ∧ x.status = .ok ()

theorem performNighthawkBenchmark_eq_ok {x : Rpc.Exchange ExecutionResponse Status}
    {response : ExecutionResponse} :
    performNighthawkBenchmark x = some (.ok response) ↔ Completed x response :=
  Rpc.single_eq_ok

variable {v : Validator} {backend : Backend} {request : DistributedRequest} {call : ℕ}
    {services : List Address}

/-- The entry of a service, with what its call came to. -/
def Entry (backend : Backend) (request : DistributedRequest) (service : Address × ℕ)
    (entry : DistributedServiceResponse) :
    Prop :=
  ∃ result, handleExecutionRequest backend service.2 service.1 request = some result ∧
    entry = serviceResponse service.1 result

theorem handleServices_spec {responses entries : List DistributedServiceResponse}
    {hasErrors hasErrors' : Bool}
    (h : handleServices backend request call services responses hasErrors = some (entries, hasErrors')) :
    ∃ new, entries = responses ++ new ∧ List.Forall₂ (Entry backend request) (services.zipIdx call) new ∧
      (hasErrors' = true ↔ hasErrors = true ∨
        ∃ entry ∈ new, ∃ status, entry.responseType = .error status) := by
  induction services generalizing call responses hasErrors with
  | nil =>
    cases h
    exact ⟨[], (List.append_nil _).symm, .nil, by simp⟩
  | cons service services ih =>
    unfold handleServices at h
    split at h
    · cases h
    · rename_i response hcall
      obtain ⟨new, rfl, hnew, herrors⟩ := ih h
      refine ⟨_ :: new, List.append_assoc _ _ _, .cons ⟨_, hcall, rfl⟩ hnew, ?_⟩
      rw [herrors]
      simp [serviceResponse]
    · rename_i status hcall
      obtain ⟨new, rfl, hnew, herrors⟩ := ih h
      refine ⟨_ :: new, List.append_assoc _ _ _, .cons ⟨_, hcall, rfl⟩ hnew, ?_⟩
      rw [herrors]
      simp [serviceResponse]

/-- The call to a service in a request. -/
def callTo (backend : Backend) (request : DistributedRequest) (service : Address × ℕ) :
    Rpc.Exchange ExecutionResponse Status :=
  backend service.2 service.1 ((optionsOf request).getD {})

theorem entries_ok {numbered : List (Address × ℕ)} {entries : List DistributedServiceResponse}
    (h : List.Forall₂ (Entry backend request) numbered entries)
    (hok : ¬∃ entry ∈ entries, ∃ status, entry.responseType = .error status) :
    ∃ responses, List.Forall₂ (fun service => Completed (callTo backend request service)) numbered responses ∧
      entries = List.zipWith (fun service response =>
        ⟨.executionResponse response, service.1⟩) numbered responses := by
  induction h with
  | nil => exact ⟨[], .nil, rfl⟩
  | @cons service entry numbered entries hentry _ ih =>
    simp only [List.mem_cons, exists_eq_or_imp, not_or] at hok
    obtain ⟨responses, hresponses, rfl⟩ := ih hok.2
    obtain ⟨result, hresult, rfl⟩ := hentry
    cases result with
    | error status => exact absurd ⟨_, rfl⟩ hok.1
    | ok response => exact
        ⟨response :: responses, .cons (performNighthawkBenchmark_eq_ok.mp hresult) hresponses, rfl⟩

theorem exists_failed {numbered : List (Address × ℕ)} {entries : List DistributedServiceResponse}
    (h : List.Forall₂ (Entry backend request) numbered entries)
    (herror : ∃ entry ∈ entries, ∃ status, entry.responseType = .error status) :
    ∃ service ∈ numbered, ∀ response, ¬Completed (callTo backend request service) response := by
  induction h with
  | nil => simp at herror
  | @cons service entry numbered entries hentry _ ih =>
    simp only [List.mem_cons, exists_eq_or_imp] at herror ⊢
    rcases herror with ⟨status, hstatus⟩ | herror
    · refine Or.inl fun response hcompleted => ?_
      obtain ⟨result, hresult, rfl⟩ := hentry
      have hok : handleExecutionRequest backend service.2 service.1 request = some (.ok response) :=
        performNighthawkBenchmark_eq_ok.mpr hcompleted
      rw [hok] at hresult
      cases hresult
      cases hstatus
    · exact Or.inr (ih herror)

/-- All calls to the services were complete, and these are their responses. -/
def AllCompleted (backend : Backend) (request : DistributedRequest) (call : ℕ)
    (response : DistributedResponse) : Prop :=
  ∃ responses, List.Forall₂ (fun service => Completed (callTo backend request service))
    (request.services.zipIdx call)
      responses ∧
    response = ⟨List.zipWith (fun service response => ⟨.executionResponse response, service.1⟩)
      (request.services.zipIdx call) responses⟩

def someFailed : Status := ⟨.internal, "One or more execution requests failed".toList⟩

theorem handleRequest_spec {status : Except Status Unit} {response : DistributedResponse}
    (h : handleRequest backend call request = some (status, response)) :
    List.Forall₂ (Entry backend request) (request.services.zipIdx call) response.serviceResponse ∧
      ((status = .ok () ∧ AllCompleted backend request call response) ∨
      (status = .error someFailed ∧
        ∃ service ∈ request.services.zipIdx call, ∀ response,
          ¬Completed (callTo backend request service) response)) := by
  obtain ⟨⟨entries, hasErrors⟩, hloop, heq⟩ := Option.map_eq_some_iff.mp h
  obtain ⟨new, rfl, hnew, herrors⟩ := handleServices_spec hloop
  cases heq
  refine ⟨hnew, ?_⟩
  by_cases herror : hasErrors = true
  · rw [if_pos herror]
    exact Or.inr ⟨rfl, exists_failed hnew ((herrors.mp herror).resolve_left Bool.false_ne_true)⟩
  · rw [if_neg herror]
    obtain ⟨responses, hresponses, rfl⟩ := entries_ok hnew fun hsome => herror (herrors.mpr (Or.inr hsome))
    exact Or.inl ⟨rfl, responses, hresponses, rfl⟩

/-! ## The stream of the service -/

/-- The calls to services that were made for the first `k` requests. -/
def callsBefore (requests : List DistributedRequest) (k : ℕ) : ℕ :=
  ((requests.take k).flatMap DistributedRequest.services).length

theorem callsBefore_succ (request : DistributedRequest) (requests : List DistributedRequest) (k : ℕ) :
    callsBefore (request :: requests) (k + 1) = request.services.length + callsBefore requests k := by
  simp [callsBefore]

/-- What a response says about the request that it answers. -/
structure Answer (v : Validator) (backend : Backend) (request : DistributedRequest) (call : ℕ) (good : Prop)
    (response : DistributedResponse) : Prop where
  valid : validateRequest v request = .ok ()
  entries : List.Forall₂ (Entry backend request) (request.services.zipIdx call) response.serviceResponse
  completed : good → AllCompleted backend request call response

theorem stream_answers_from (v : Validator) (backend : Backend) (call : ℕ) (writes : List Bool)
    (requests : List DistributedRequest) :
    let served := distributedRequestStream v backend call writes requests
    (served.status = some (.ok ()) → served.written.length = requests.length) ∧
    ∀ k response, served.written[k]? = some response → ∃ request, requests[k]? = some request ∧
      Answer v backend request (call + callsBefore requests k)
        (k + 1 < served.written.length ∨ served.status = some (.ok ())) response := by
  -- The loop goes on only after a request all of whose services answered.
  induction requests generalizing call writes with
  | nil => exact ⟨fun _ => rfl, fun k response h => by simp [distributedRequestStream] at h⟩
  | cons request requests ih =>
    unfold distributedRequestStream
    cases hvalid : validateRequest v request with
    | error status => exact ⟨fun h => by simp at h, fun k response h => by simp at h⟩
    | ok u =>
      simp only
      cases hrequest : handleRequest backend call request with
      | none => exact ⟨fun h => by simp at h, fun k response h => by simp at h⟩
      | some pair =>
        obtain ⟨status, response⟩ := pair
        obtain ⟨hentries, hstatus⟩ := handleRequest_spec hrequest
        simp only
        by_cases hwrite : writes.headD true = true
        · rw [if_pos hwrite]
          rcases hstatus with ⟨rfl, hall⟩ | ⟨rfl, -⟩
          · obtain ⟨hlength, hanswers⟩ := ih (call + request.services.length) writes.tail
            refine ⟨fun h => congrArg (· + 1) (hlength h), ?_⟩
            rintro (_ | k) response' hk
            · cases hk
              exact ⟨request, rfl, hvalid, hentries, fun _ => hall⟩
            · obtain ⟨request', hrequest', hvalid', hentries', hcompleted⟩ := hanswers k response' hk
              rw [callsBefore_succ, ← Nat.add_assoc]
              refine ⟨request', hrequest', hvalid', hentries', fun hgood => hcompleted ?_⟩
              exact hgood.imp_left Nat.lt_of_succ_lt_succ
          · refine ⟨fun h => by simp at h, ?_⟩
            rintro (_ | k) response' hk
            · cases hk
              refine ⟨request, rfl, hvalid, hentries, ?_⟩
              rintro (hgood | hgood) <;> simp at hgood
            · simp at hk
        · rw [if_neg hwrite]
          exact ⟨fun h => by simp at h, fun k response h => by simp at h⟩

/-- Every response on a stream answers the request at its position, with an entry for each of its
services in their order. All services answered, except perhaps in the last response of a stream that
fails. -/
theorem stream_answers (v : Validator) (backend : Backend) (writes : List Bool)
    (requests : List DistributedRequest) :
    ((distributedRequestStream v backend 0 writes requests).status = some (.ok ()) →
      (distributedRequestStream v backend 0 writes requests).written.length = requests.length) ∧
    ∀ k response, (distributedRequestStream v backend 0 writes requests).written[k]? = some response →
      ∃ request, requests[k]? = some request ∧
        Answer v backend request (callsBefore requests k)
          (k + 1 < (distributedRequestStream v backend 0 writes requests).written.length ∨
            (distributedRequestStream v backend 0 writes requests).status = some (.ok ())) response := by
  have h := stream_answers_from v backend 0 writes requests
  simp only [Nat.zero_add] at h
  exact h

/-! ## The client and the service -/

theorem services_ne_of_valid (h : validateRequest v request = .ok ()) : request.services ≠ [] := by
  unfold validateRequest at h
  split at h
  · cases h
  · exact v.services_ne request ‹_›

theorem stream_single (v : Validator) (backend : Backend) (writes : List Bool)
    (request : DistributedRequest) :
    let served := distributedRequestStream v backend 0 writes [request]
    (∃ status, validateRequest v request = .error status ∧ served = ⟨[], some (.error status)⟩) ∨
    (validateRequest v request = .ok () ∧ (served = ⟨[], none⟩ ∨
      (writes.headD true = false ∧ served.written = [] ∧ ∃ status, served.status = some (.error status)) ∨
      (∃ response, AllCompleted backend request 0 response ∧ served = ⟨[response], some (.ok ())⟩) ∨
      (∃ response, (∃ service ∈ request.services.zipIdx, ∀ r, ¬Completed (callTo backend request service) r) ∧
        served = ⟨[response], some (.error someFailed)⟩))) := by
  unfold distributedRequestStream
  cases hvalid : validateRequest v request with
  | error status => exact Or.inl ⟨status, rfl, rfl⟩
  | ok u =>
    refine Or.inr ⟨rfl, ?_⟩
    simp only
    cases hrequest : handleRequest backend 0 request with
    | none => exact Or.inl rfl
    | some pair =>
      obtain ⟨status, response⟩ := pair
      refine Or.inr ?_
      simp only
      by_cases hwrite : writes.headD true = true
      · rw [if_pos hwrite]
        rcases (handleRequest_spec hrequest).2 with ⟨rfl, hall⟩ | ⟨rfl, hfailed⟩
        · exact Or.inr (Or.inl ⟨response, hall, rfl⟩)
        · exact Or.inr (Or.inr ⟨response, hfailed, rfl⟩)
      · rw [if_neg hwrite]
        exact Or.inl ⟨Bool.eq_false_iff.mpr hwrite, rfl, _, rfl⟩

/-- Whatever the network and the services do, the client lives. A response has those of all services,
and the two errors that a distributor causes name none of them. -/
theorem distributed_run (v : Validator) (backend : Backend) (writes : List Bool)
    (request : DistributedRequest)
    (x : Rpc.Exchange DistributedResponse Status)
    (hx : Rpc.Carried (distributedRequestStream v backend 0 writes) request x) :
    ∃ result, distributedRequest x = some result ∧
      (∀ response, result = .ok response →
        validateRequest v request = .ok () ∧ request.services ≠ [] ∧
          AllCompleted backend request 0 response) ∧
      (x.wrote = true → x.closed = true → writes.headD true = true →
        Rpc.Through (distributedRequestStream v backend 0 writes [request]) x →
        (∃ response, result = .ok response) ∨
        (result = .error ⟨.internal, "Distributor Service did not send a gRPC response.".toList⟩ ∧
          ∃ status, validateRequest v request = .error status) ∨
        (result = .error ⟨.internal, "One or more execution requests failed".toList⟩ ∧
          ∃ service ∈ request.services.zipIdx, ∀ response,
            ¬Completed (callTo backend request service) response)) := by
  have hsingle := stream_single v backend writes request
  simp only at hsingle
  obtain ⟨result, hresult⟩ : ∃ result, distributedRequest x = some result := by
    apply Rpc.exists_single
    refine hx.length_le ?_ rfl
    rcases hsingle with ⟨_, -, h⟩ | ⟨-, h | ⟨-, h, -⟩ | ⟨_, -, h⟩ | ⟨_, -, h⟩⟩ <;> simp [h]
  refine ⟨result, hresult, ?_, ?_⟩
  · rintro response rfl
    obtain ⟨-, -, hmessages, hstatus⟩ := Rpc.single_eq_ok.mp hresult
    obtain ⟨hwritten, hserved⟩ := hx.through hstatus
    rw [hmessages] at hwritten
    rw [hstatus] at hserved
    rcases hsingle with ⟨_, -, h⟩ | ⟨hvalid, h | ⟨-, -, _, h⟩ | ⟨response', hall, h⟩ | ⟨_, -, h⟩⟩
    · simp [h] at hserved
    · simp [h] at hserved
    · simp [h] at hserved
    · rw [h] at hwritten
      cases hwritten
      exact ⟨hvalid, services_ne_of_valid hvalid, hall⟩
    · simp [h] at hserved
  · rintro hwrote hclosed hwrite ⟨hwritten, hserved⟩
    have hone : ∀ response, x.messages = [response] → result = x.status.map fun _ => response :=
      fun response h =>
      Option.some.inj (hresult.symm.trans (Rpc.single_one hwrote hclosed h))
    rcases hsingle with ⟨status, hinvalid, h⟩ | ⟨-,
      h | ⟨hfalse, -, -⟩ | ⟨response, -, h⟩ | ⟨response, hfailed, h⟩⟩
    · rw [h] at hwritten
      have hsilent := Option.some.inj (hresult.symm.trans (Rpc.single_nil hwrote hclosed hwritten))
      exact Or.inr (Or.inl ⟨hsilent, status, hinvalid⟩)
    · simp [h] at hserved
    · rw [hwrite] at hfalse
      cases hfalse
    · rw [h] at hwritten hserved
      rw [hone response hwritten, ← Option.some.inj hserved]
      exact Or.inl ⟨response, rfl⟩
    · rw [h] at hwritten hserved
      rw [hone response hwritten, ← Option.some.inj hserved]
      exact Or.inr (Or.inr ⟨rfl, hfailed⟩)

/-- Every rule but the one about services is met. -/
def plainValidator : Validator where
  validate request := if request.services = [] then some "no services".toList else none
  services_ne request h := by
    split_ifs at h with hnil
    exact hnil

/-- Each service answers with the number of the call. -/
def numberingBackend : Backend :=
  fun call _ _ => ⟨true, true, [{ executionId := List.replicate call 'x' }], .ok ()⟩

def twoServices : DistributedRequest :=
  { executionRequest := some (.startRequest (some {}))
    services := [⟨"10.0.0.1".toList, 8443⟩, ⟨"10.0.0.2".toList, 8443⟩] }

def twoResponses : DistributedResponse :=
  ⟨[⟨.executionResponse {}, ⟨"10.0.0.1".toList, 8443⟩⟩,
    ⟨.executionResponse { executionId := ['x'] }, ⟨"10.0.0.2".toList, 8443⟩⟩]⟩

theorem distributed_run_two_services :
    distributedRequest ⟨true, true, [twoResponses], .ok ()⟩ = some (.ok twoResponses) ∧
      AllCompleted numberingBackend twoServices 0 twoResponses := by
  have hx : Rpc.Carried (distributedRequestStream plainValidator numberingBackend 0 []) twoServices
      ⟨true, true, [twoResponses], .ok ()⟩ := Or.inl ⟨rfl, rfl⟩
  obtain ⟨result, hresult, hok, -⟩ := distributed_run plainValidator numberingBackend [] twoServices _ hx
  have hreceived : distributedRequest ⟨true, true, [twoResponses], .ok ()⟩ = some (.ok twoResponses) := rfl
  exact ⟨hreceived, (hok twoResponses (Option.some.inj (hresult.symm.trans hreceived))).2.2⟩

end Nighthawk.Distributor
