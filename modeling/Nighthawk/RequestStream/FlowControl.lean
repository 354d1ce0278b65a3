import Nighthawk.RequestStream.Code

/-!
# Flow control of the request stream

What the client has in flight is what the server still has to send and what is on the wire. The
client asks for more only when nothing is in flight and its queue is short, and it looks at that
only when it takes a message out. That is enough never to run dry.
-/

namespace Nighthawk.RequestStream

open RequestSource
open BenchmarkClient (Request)

/-! ## The server -/

/-- The messages that the server still has to write. -/
def Server.owed (s : Server) : ℕ := s.left + (s.requests.map UInt64.toNat).sum

theorem Server.owed_step {s s' : Server} {e : ServerStep} {written : List Response}
    (h : s.step e = some (s', written)) : s'.owed + written.length = s.owed := by
  unfold Server.owed
  cases e with
  | read =>
    simp only [Server.step] at h
    split at h
    · rename_i hleft hrequests
      cases h
      rw [hleft, hrequests]
      simp
    · cases h
  | write message =>
    simp only [Server.step] at h
    split at h
    · rename_i left hleft
      cases h
      rw [hleft]
      simp only [List.length_singleton]
      omega
    · cases h

theorem Server.owed_send (s : Server) (sent : List UInt64) :
    (s.send sent).owed = s.owed + (sent.map UInt64.toNat).sum := by
  simp only [Server.owed, Server.send, List.map_append, List.sum_append]
  omega

/-! ## What holds in every state -/

abbrev step : System Server → Event ServerStep → Option (System Server) := System.step Server.step Server.send

structure Controlled (baseHeader : HeaderMap) (n : UInt32) (s : System Server) : Prop where
  stream : s.client.stream = true
  length : s.client.headerBufferLength = n
  base : s.client.baseHeader = baseHeader
  flight : s.client.inFlightHeaders.toNat = s.server.owed + s.wire.length
  count : s.client.inFlightHeaders.toNat + s.received.length = s.requested
  bound : s.client.messages.length + s.client.inFlightHeaders.toNat ≤ 2 * n.toNat - 1
  supplied : 0 < s.client.messages.length + s.client.inFlightHeaders.toNat
  order : s.received.map (messageToRequest baseHeader) =
    s.yielded ++ s.client.messages.map (messageToRequest baseHeader)

variable {baseHeader : HeaderMap} {n : UInt32} {s t : System Server}

theorem controlled_init (hn : 1 ≤ n) :
    Controlled baseHeader n (System.init Server.send ⟨[], 0⟩ baseHeader n) := by
  have hpos : 1 ≤ n.toNat := UInt32.le_iff_toNat_le.mp hn
  constructor <;>
    simp only [System.init, RequestStreamGrpcClientImpl.start, RequestStreamGrpcClientImpl.trySendRequest,
      if_true, Server.owed, Server.send, List.map_cons, List.map_nil, List.nil_append, List.sum_singleton,
      List.length_nil, UInt32.toNat_toUInt64]
  all_goals omega

theorem deliver_controlled (hs : Controlled baseHeader n s) (h : step s .deliver = some t) :
    Controlled baseHeader n t := by
  simp only [step, System.step] at h
  split at h
  · rename_i message wire hwire
    cases h
    have hflight := hs.flight
    rw [hwire, List.length_cons] at hflight
    -- A message on the wire is in flight, so the count does not wrap.
    have hone : (s.client.inFlightHeaders - 1).toNat = s.client.inFlightHeaders.toNat - 1 :=
      UInt32.toNat_sub_of_le _ _ (UInt32.le_iff_toNat_le.mpr (by rw [UInt32.toNat_one]; omega))
    have hcount := hs.count
    have hbound := hs.bound
    constructor
    case stream => exact hs.stream
    case length => exact hs.length
    case base => exact hs.base
    case order =>
      simp only [RequestStreamGrpcClientImpl.onReceiveMessage, List.map_append, hs.order, List.append_assoc]
    all_goals
      simp only [RequestStreamGrpcClientImpl.onReceiveMessage, hone, List.length_append,
        List.length_singleton]
      omega
  · cases h

theorem maybeDequeue_cons {c : RequestStreamGrpcClientImpl} (hstream : c.stream = true) {message : Response}
    {messages : List Response} (h : c.messages = message :: messages) :
    ∃ refill : Bool, (refill = true ↔ c.inFlightHeaders = 0 ∧ messages.length < c.headerBufferLength.toNat) ∧
      c.maybeDequeue = (some (messageToRequest c.baseHeader message),
        { c with messages, inFlightHeaders := if refill then c.headerBufferLength else c.inFlightHeaders },
        if refill then [c.headerBufferLength.toUInt64] else []) := by
  unfold RequestStreamGrpcClientImpl.maybeDequeue
  rw [h]
  by_cases hrefill : c.inFlightHeaders = 0 ∧ messages.length < c.headerBufferLength.toNat
  · refine ⟨true, iff_of_true rfl hrefill, ?_⟩
    simp only [hrefill, RequestStreamGrpcClientImpl.trySendRequest, hstream]
    simp
  · refine ⟨false, iff_of_false Bool.false_ne_true hrefill, ?_⟩
    simp only [hrefill]
    simp

theorem step_maybeDequeue {request : Option Request} {client : RequestStreamGrpcClientImpl}
    {sent : List UInt64}
    (h : s.client.maybeDequeue = (request, client, sent)) :
    step s .maybeDequeue = some { s with
      client
      server := s.server.send sent
      requested := s.requested + (sent.map UInt64.toNat).sum
      yielded := s.yielded ++ request.toList } := by
  simp only [step, System.step, h]

theorem dequeue_yields (hs : Controlled baseHeader n s) {message : Response} {messages : List Response}
    (hmessages : s.client.messages = message :: messages) :
    ∃ t, step s .maybeDequeue = some t ∧ t.yielded = s.yielded ++ [messageToRequest baseHeader message] ∧
      t.client.messages = messages := by
  obtain ⟨refill, -, hdequeue⟩ := maybeDequeue_cons hs.stream hmessages
  rw [hs.base] at hdequeue
  exact ⟨_, step_maybeDequeue hdequeue, rfl, rfl⟩

theorem dequeue_nothing_controlled (hs : Controlled baseHeader n s) (hmessages : s.client.messages = [])
    (h : step s .maybeDequeue = some t) : Controlled baseHeader n t := by
  have hidle : s.client.maybeDequeue = (none, s.client, []) := by
    unfold RequestStreamGrpcClientImpl.maybeDequeue
    rw [hmessages]
  rw [step_maybeDequeue hidle] at h
  cases h
  refine { hs with flight := ?_, order := ?_ }
  · rw [Server.owed_send]
    exact hs.flight
  · simpa using hs.order

theorem dequeue_message_controlled {message : Response} {messages : List Response}
    (hs : Controlled baseHeader n s) (hmessages : s.client.messages = message :: messages)
    (h : step s .maybeDequeue = some t) : Controlled baseHeader n t := by
  obtain ⟨refill, hrefill, hdequeue⟩ := maybeDequeue_cons hs.stream hmessages
  rw [step_maybeDequeue hdequeue] at h
  cases h
  have hbound := hs.bound
  have hsupplied := hs.supplied
  have hflight := hs.flight
  have hcount := hs.count
  have hlength := congrArg UInt32.toNat hs.length
  have horder := hs.order
  rw [hmessages, List.length_cons] at hbound hsupplied
  rw [hmessages, List.map_cons] at horder
  have hzero : s.client.inFlightHeaders = 0 ↔ s.client.inFlightHeaders.toNat = 0 := by
    rw [← UInt32.toNat_inj, UInt32.toNat_zero]
  rw [hzero] at hrefill
  constructor
  case stream => exact hs.stream
  case length => exact hs.length
  case base => exact hs.base
  case order => simpa [hs.base] using horder
  case flight =>
    rw [Server.owed_send]
    cases refill with
    | true =>
      simp only [if_true, List.map_cons, List.map_nil, List.sum_singleton, UInt32.toNat_toUInt64]
      have := hrefill.mp rfl
      omega
    | false =>
      simpa using hflight
  case count =>
    cases refill with
    | true =>
      simp only [if_true, List.map_cons, List.map_nil, List.sum_singleton, UInt32.toNat_toUInt64]
      have := hrefill.mp rfl
      omega
    | false =>
      simpa using hcount
  case bound =>
    cases refill with
    | true =>
      simp only [if_true]
      have := hrefill.mp rfl
      omega
    | false =>
      simp only [Bool.false_eq_true, if_false]
      omega
  case supplied =>
    -- Without a refill there is something in flight, or the queue is not short.
    cases refill with
    | true =>
      simp only [if_true]
      have := hrefill.mp rfl
      omega
    | false =>
      simp only [Bool.false_eq_true, if_false]
      have hnot := mt hrefill.mpr Bool.false_ne_true
      omega

theorem dequeue_controlled (hs : Controlled baseHeader n s) (h : step s .maybeDequeue = some t) :
    Controlled baseHeader n t := by
  cases hmessages : s.client.messages with
  | nil => exact dequeue_nothing_controlled hs hmessages h
  | cons message messages => exact dequeue_message_controlled hs hmessages h

theorem server_controlled (hs : Controlled baseHeader n s) {e : ServerStep}
    (h : step s (.server e) = some t) :
    Controlled baseHeader n t := by
  obtain ⟨⟨server, written⟩, hserver, rfl⟩ := Option.map_eq_some_iff.mp h
  have howed := Server.owed_step hserver
  have hflight := hs.flight
  refine { hs with flight := ?_ }
  simp only [List.length_append]
  omega

theorem step_controlled (hs : Controlled baseHeader n s) {e : Event ServerStep} (h : step s e = some t) :
    Controlled baseHeader n t := by
  cases e with
  | server e => exact server_controlled hs h
  | deliver => exact deliver_controlled hs h
  | maybeDequeue => exact dequeue_controlled hs h

theorem exec_controlled (hn : 1 ≤ n) {es : List (Event ServerStep)}
    (h : Runs.exec step (System.init Server.send ⟨[], 0⟩ baseHeader n) es = some s) :
    Controlled baseHeader n s :=
  Runs.exec_inv (fun _ _ _ hs hstep => step_controlled hs hstep) (controlled_init hn) h

/-! ## Any run -/

theorem flow_control (n : UInt32) (hn : 1 ≤ n) (baseHeader : HeaderMap) (es : List (Event ServerStep))
    (s : System Server) (h : Runs.exec step (System.init Server.send ⟨[], 0⟩ baseHeader n) es = some s) :
    (s.wire ≠ [] → s.client.inFlightHeaders ≠ 0) ∧
      s.client.inFlightHeaders.toNat + s.received.length = s.requested ∧
      s.client.messages.length + s.client.inFlightHeaders.toNat ≤ 2 * n.toNat - 1 ∧
      ¬ (s.client.inFlightHeaders = 0 ∧ s.client.messages = []) ∧
      s.received.map (messageToRequest baseHeader) =
        s.yielded ++ s.client.messages.map (messageToRequest baseHeader) ∧
      ∀ message messages, s.client.messages = message :: messages →
        ∃ t, step s .maybeDequeue = some t ∧ t.yielded = s.yielded ++ [messageToRequest baseHeader message] ∧
          t.client.messages = messages := by
  have hs : Controlled baseHeader n s := exec_controlled hn h
  have hflight := hs.flight
  have hsupplied := hs.supplied
  refine ⟨?_, hs.count, hs.bound, ?_, hs.order, fun _ _ => dequeue_yields hs⟩
  · intro hwire hzero
    have hlength := List.length_pos_of_ne_nil hwire
    rw [hzero, UInt32.toNat_zero] at hflight
    omega
  · rintro ⟨hzero, hempty⟩
    rw [hzero, hempty] at hsupplied
    simp at hsupplied

/-- Two messages are asked for, arrive and are taken. The second dequeue asks for two more. -/
def twoRounds : List (Event ServerStep) :=
  [.server .read, .server (.write none), .deliver, .maybeDequeue, .server (.write none), .deliver,
    .maybeDequeue]

theorem flow_control_two_rounds :
    ∃ s, Runs.exec step (System.init Server.send ⟨[], 0⟩ [] 2) twoRounds = some s ∧ s.requested = 4 ∧
      s.client.inFlightHeaders.toNat + s.received.length = s.requested ∧ s.yielded.length = 2 := by
  obtain ⟨-, hcount, -⟩ := flow_control 2 (by decide) [] twoRounds _ rfl
  exact ⟨_, rfl, rfl, hcount, rfl⟩

/-! ## The server of the tests -/

/-- The messages that the inner loop of `RequestStream` still writes. -/
def yieldsLeft : Option Source → ℕ
  | some (.static _ yieldsLeft) => yieldsLeft.toNat
  | _ => 0

def RequestSourceServiceImpl.toServer (s : RequestSourceServiceImpl) : Server :=
  ⟨s.requests, yieldsLeft s.source⟩

/-- Quantities fit in the 32 bits that `createStaticEmptyRequestSource` takes. -/
structure RequestSourceServiceImpl.Sound (s : RequestSourceServiceImpl) : Prop where
  quantities : ∀ quantity ∈ s.requests, quantity.toNat < 2 ^ 32
  source : ∀ source, s.source = some source → ∃ header yieldsLeft, source = .static header yieldsLeft

theorem yieldsLeft_create {quantity : UInt64} (h : quantity.toNat < 2 ^ 32) :
    yieldsLeft (some (createStaticEmptyRequestSource quantity.toUInt32)) = quantity.toNat := by
  simp only [yieldsLeft, createStaticEmptyRequestSource, UInt32.toNat_toUInt64, UInt64.toNat_toUInt32]
  omega

/-- A round of the loops is a step of the server above, or changes nothing there. -/
theorem RequestSourceServiceImpl.step_simulated {s s' : RequestSourceServiceImpl} (hs : s.Sound)
    {e : ServiceStep}
    {written : List Response} (h : s.step e = some (s', written)) :
    s'.Sound ∧ ((s'.toServer = s.toServer ∧ written = []) ∨
      ∃ e', s.toServer.step e' = some (s'.toServer, written)) := by
  cases e with
  | read =>
    simp only [RequestSourceServiceImpl.step] at h
    split at h
    · rename_i quantity requests hsource hrequests
      cases h
      have hq := hs.quantities quantity (by rw [hrequests]; exact List.mem_cons_self)
      refine ⟨⟨fun q hmem => hs.quantities q (by rw [hrequests]; exact List.mem_cons_of_mem _ hmem), ?_⟩,
        Or.inr ⟨.read, ?_⟩⟩
      · intro source heq
        cases heq
        exact ⟨_, _, rfl⟩
      · simp only [toServer, hsource, hrequests, Server.step, yieldsLeft_create hq]
        rfl
    · cases h
  | next =>
    obtain ⟨source, hsource, hround⟩ := Option.map_eq_some_iff.mp h
    obtain ⟨header, left, rfl⟩ := hs.source source hsource
    by_cases hleft : left = 0
    · subst hleft
      cases hround
      refine ⟨⟨hs.quantities, fun source heq => by cases heq⟩, Or.inl ⟨?_, rfl⟩⟩
      simp only [toServer, hsource]
      rfl
    · simp only [Source.generate, hleft, ne_eq, not_false_eq_true, if_true] at hround
      cases hround
      have hpos : 1 ≤ left.toNat := by
        have : left.toNat ≠ 0 := fun hzero => hleft (UInt64.toNat_inj.mp hzero)
        omega
      have hone : (left - 1).toNat = left.toNat - 1 :=
        UInt64.toNat_sub_of_le _ _ (UInt64.le_iff_toNat_le.mpr (by rw [UInt64.toNat_one]; omega))
      refine ⟨⟨hs.quantities, fun source heq => ?_⟩,
        Or.inr ⟨.write (some { headers := some (.v3Headers header) }), ?_⟩⟩
      · cases heq
        exact ⟨_, _, rfl⟩
      · obtain ⟨k, hk⟩ : ∃ k, left.toNat = k + 1 := ⟨left.toNat - 1, by omega⟩
        simp only [toServer, hsource, Server.step, yieldsLeft, hone, hk]
        rfl

abbrev serviceStep : System RequestSourceServiceImpl → Event ServiceStep →
    Option (System RequestSourceServiceImpl) :=
  System.step RequestSourceServiceImpl.step RequestSourceServiceImpl.send

def System.toServer (s : System RequestSourceServiceImpl) : System Server :=
  { s with server := s.server.toServer }

theorem RequestSourceServiceImpl.sound_send {s : RequestSourceServiceImpl} (hs : s.Sound) {sent : List UInt64}
    (hsent : ∀ quantity ∈ sent, quantity.toNat < 2 ^ 32) : (s.send sent).Sound := by
  refine ⟨fun quantity hmem => ?_, hs.source⟩
  rcases List.mem_append.mp hmem with hmem | hmem
  · exact hs.quantities quantity hmem
  · exact hsent quantity hmem

theorem sent_lt (c : RequestStreamGrpcClientImpl) :
    ∀ quantity ∈ c.maybeDequeue.2.2, quantity.toNat < 2 ^ 32 := by
  intro quantity hmem
  have hlt := c.headerBufferLength.toNat_lt
  unfold RequestStreamGrpcClientImpl.maybeDequeue RequestStreamGrpcClientImpl.trySendRequest at hmem
  split at hmem
  · cases hmem
  · simp only at hmem
    split_ifs at hmem
    · obtain rfl := List.mem_singleton.mp hmem
      rwa [UInt32.toNat_toUInt64]
    · cases hmem
    · cases hmem

theorem serviceStep_simulated (s : System RequestSourceServiceImpl) (e : Event ServiceStep)
    (t : System RequestSourceServiceImpl) (hs : s.server.Sound) (h : serviceStep s e = some t) :
    t.server.Sound ∧ ∃ fs, Runs.exec step s.toServer fs = some t.toServer := by
  cases e with
  | server e =>
    obtain ⟨⟨server, written⟩, hserver, rfl⟩ := Option.map_eq_some_iff.mp h
    obtain ⟨hsound, ⟨hsame, rfl⟩ | ⟨e', he'⟩⟩ := RequestSourceServiceImpl.step_simulated hs hserver
    · refine ⟨hsound, [], ?_⟩
      simp only [Runs.exec_nil, System.toServer, hsame, List.append_nil]
    · refine ⟨hsound, [.server e'], ?_⟩
      simp only [Runs.exec, step, System.step, System.toServer, he', Option.map_some, Option.bind_some]
  | deliver =>
    simp only [serviceStep, System.step] at h
    split at h
    · rename_i message wire hwire
      cases h
      refine ⟨hs, [.deliver], ?_⟩
      simp only [Runs.exec, step, System.step, System.toServer, hwire, Option.bind_some]
    · cases h
  | maybeDequeue =>
    cases h
    exact ⟨RequestSourceServiceImpl.sound_send hs (sent_lt s.client), [.maybeDequeue], rfl⟩

/-- The stream between the client and `RequestStream` is controlled. -/
theorem service_controlled (hn : 1 ≤ n) {es : List (Event ServiceStep)} {s : System RequestSourceServiceImpl}
    (h : Runs.exec serviceStep
      (System.init RequestSourceServiceImpl.send ⟨[], none⟩ baseHeader n) es = some s) :
    Controlled baseHeader n s.toServer := by
  have hsound : RequestSourceServiceImpl.Sound ⟨[n.toUInt64], none⟩ := by
    refine ⟨fun quantity hmem => ?_, fun source heq => by cases heq⟩
    obtain rfl := List.mem_singleton.mp hmem
    rw [UInt32.toNat_toUInt64]
    exact n.toNat_lt
  obtain ⟨fs, hfs⟩ := Runs.exec_simulated serviceStep_simulated hsound h
  exact exec_controlled hn hfs

end Nighthawk.RequestStream
