import Nighthawk.RequestStream.Code

/-!
# Specifiers over the base header

What each header of a remote request is: an explicit field of the specifier, else the last of its
list, else the base header's.
-/

namespace Nighthawk.RequestStream

open RequestSource
open BenchmarkClient (Request)

def explicitField (specifier : RequestSpecifier) (name : Str) : Option Str :=
  if name = HeaderMap.contentLengthName then specifier.contentLength.map fun v => Text.decimal v.toNat
  else if name = "host".toList ∨ name = ":authority".toList then specifier.authority
  else if name = ":path".toList then specifier.path
  else if name = ":method".toList then specifier.method
  else none

def listed (specifier : RequestSpecifier) : List (Str × Str) :=
  (specifier.headers.map OneofHeaders.list).getD []

/-- The values of a name, in any spelling, once the message lies over the base header. -/
def overlaid (baseHeader : HeaderMap) (message : Response) (name : Str) : List Str :=
  match message.bind fun specifier =>
      (explicitField specifier (Text.toLower name)).or
        (HeaderMap.lastValue (listed specifier) (HeaderMap.requestName name)) with
  | some value => [value]
  | none => baseHeader.lookup name

theorem get_replace (h : HeaderMap) (name : Str) (value : Option Str) (other : Str) :
    (replace h name value).get other = if other = name then
      value.elim (h.get other) ([·]) else h.get other := by
  cases value with
  | none => exact (ite_self _).symm
  | some value => exact HeaderMap.get_setCopy h name value other

/-- The four fields have different names, so their order does not matter. -/
theorem lookup_replace_fields (h : HeaderMap) (specifier : RequestSpecifier) (name : Str) :
    (replace (replace (replace (replace h HeaderMap.contentLengthName
      (specifier.contentLength.map fun v => Text.decimal v.toNat)) ":authority".toList specifier.authority)
      ":path".toList specifier.path) ":method".toList specifier.method).lookup name =
        (explicitField specifier (Text.toLower name)).elim (h.lookup name) ([·]) := by
  unfold HeaderMap.lookup HeaderMap.requestName
  generalize Text.toLower name = lower
  simp only [get_replace]
  by_cases hhost : lower = "host".toList
  · subst hhost
    rfl
  rw [if_neg hhost]
  by_cases hlength : lower = HeaderMap.contentLengthName
  · subst hlength
    rfl
  by_cases hauthority : lower = ":authority".toList
  · subst hauthority
    rfl
  by_cases hpath : lower = ":path".toList
  · subst hpath
    rfl
  by_cases hmethod : lower = ":method".toList
  · subst hmethod
    rfl
  simp only [explicitField, hlength, hhost, hauthority, hpath, hmethod, or_self, if_false, Option.elim_none]

theorem lookup_messageToRequest (baseHeader : HeaderMap) (message : Response) (name : Str) :
    (messageToRequest baseHeader message).header.lookup name = overlaid baseHeader message name := by
  cases message with
  | none => rfl
  | some specifier =>
    have hfields := lookup_replace_fields (baseHeader.setAll (listed specifier)) specifier name
    have hlisted := HeaderMap.get_setAll baseHeader (listed specifier) (HeaderMap.requestName name)
    refine hfields.trans ?_
    rw [HeaderMap.lookup, hlisted, overlaid, Option.bind_some]
    cases explicitField specifier (Text.toLower name) with
    | none => rfl
    | some value => rfl

theorem maybeDequeue_base (client : RequestStreamGrpcClientImpl) :
    client.maybeDequeue.1 = client.messages.head?.map (messageToRequest client.baseHeader) ∧
      client.maybeDequeue.2.1.baseHeader = client.baseHeader ∧
      client.maybeDequeue.2.1.messages = client.messages.tail := by
  unfold RequestStreamGrpcClientImpl.maybeDequeue RequestStreamGrpcClientImpl.trySendRequest
  cases hmessages : client.messages with
  | nil => exact ⟨rfl, rfl, hmessages⟩
  | cons message messages =>
    dsimp only
    split_ifs <;> exact ⟨rfl, rfl, rfl⟩

/-- An explicit field wins over the list of headers, whose last value of a name wins over the base
header. Both kinds of list give the same request, and the base header is not changed. -/
theorem messageToRequest_overlays (baseHeader : HeaderMap) (message : Response)
    (client : RequestStreamGrpcClientImpl) :
    (∀ name, (messageToRequest baseHeader message).header.lookup name = overlaid baseHeader message name) ∧
      (∀ (specifier : RequestSpecifier) list,
        messageToRequest baseHeader (some { specifier with headers := some (.headers list) }) =
          messageToRequest baseHeader (some { specifier with headers := some (.v3Headers list) })) ∧
      client.maybeDequeue.1 = client.messages.head?.map (messageToRequest client.baseHeader) ∧
      client.maybeDequeue.2.1.baseHeader = client.baseHeader := by
  obtain ⟨hrequest, hbase, -⟩ := maybeDequeue_base client
  exact ⟨lookup_messageToRequest baseHeader message, fun _ _ => rfl, hrequest, hbase⟩

example : (messageToRequest [("x".toList, "0".toList), ("y".toList, "1".toList), (":path".toList, "/".toList)]
    (some { path := some "/p".toList, headers := some (.headers
      [("X".toList, "a".toList), (":Path".toList, "/q".toList), ("x".toList, "b".toList)]) })).header =
    [("y".toList, "1".toList), ("x".toList, "b".toList), (":path".toList, "/p".toList)] := by decide

-- The ambiguous host of the unit tests.
example : (messageToRequest []
    (some { authority := some "foohost".toList, headers := some (.headers [("host".toList, "foohost2".toList)]) })).header =
    [(":authority".toList, "foohost".toList)] := by decide

/-! ## Runs -/

section

variable {σ ε : Type} {serve : σ → ε → Option (σ × List Response)} {send : σ → List UInt64 → σ}
  {baseHeader : HeaderMap} {s t : System σ}

/-- Each request is made from the base header and a message that was received. -/
structure FromBase (baseHeader : HeaderMap) (s : System σ) : Prop where
  base : s.client.baseHeader = baseHeader
  queued : ∀ message ∈ s.client.messages, message ∈ s.received
  yielded : ∀ request ∈ s.yielded, ∃ message ∈ s.received, request = messageToRequest baseHeader message

theorem fromBase_step (hs : FromBase baseHeader s) {e : Event ε} (h : System.step serve send s e = some t) :
    FromBase baseHeader t := by
  cases e with
  | server e =>
    obtain ⟨_, -, rfl⟩ := Option.map_eq_some_iff.mp h
    exact ⟨hs.base, hs.queued, hs.yielded⟩
  | deliver =>
    simp only [System.step] at h
    split at h
    · cases h
      refine ⟨hs.base, ?_, ?_⟩
      · intro m hm
        rcases List.mem_append.mp hm with hm | hm
        · exact List.mem_append_left _ (hs.queued m hm)
        · exact List.mem_append_right _ hm
      · intro request hrequest
        obtain ⟨m, hm, heq⟩ := hs.yielded request hrequest
        exact ⟨m, List.mem_append_left _ hm, heq⟩
    · cases h
  | maybeDequeue =>
    obtain ⟨hrequest, hbase, hmessages⟩ := maybeDequeue_base s.client
    simp only [System.step] at h
    generalize s.client.maybeDequeue = result at h hrequest hbase hmessages
    cases h
    refine ⟨hbase.trans hs.base, ?_, ?_⟩
    · intro m hm
      rw [hmessages] at hm
      exact hs.queued m (List.mem_of_mem_tail hm)
    · intro request hmem
      rcases List.mem_append.mp hmem with hmem | hmem
      · exact hs.yielded request hmem
      · rw [hrequest, hs.base] at hmem
        obtain ⟨m, hm, rfl⟩ := Option.map_eq_some_iff.mp (Option.mem_toList.mp hmem)
        exact ⟨m, hs.queued m (List.mem_of_head? hm), rfl⟩

/-- Whatever the server does, each request that the client yields is a received message over the
base header. -/
theorem yielded_overlaid (server : σ) (headerBufferLength : UInt32) {events : List (Event ε)}
    (h : Runs.exec (System.step serve send)
      (System.init send server baseHeader headerBufferLength) events = some s)
    {request : Request} (hrequest : request ∈ s.yielded) :
    ∃ message ∈ s.received, ∀ name, request.header.lookup name = overlaid baseHeader message name := by
  have hinit : FromBase baseHeader (System.init send server baseHeader headerBufferLength) := by
    refine ⟨rfl, ?_, ?_⟩ <;> intro _ hmem <;> cases hmem
  have hs : FromBase baseHeader s := Runs.exec_inv (fun _ _ _ hu hstep => fromBase_step hu hstep) hinit h
  obtain ⟨message, hmessage, rfl⟩ := hs.yielded request hrequest
  exact ⟨message, hmessage, lookup_messageToRequest baseHeader message⟩

end

end Nighthawk.RequestStream
