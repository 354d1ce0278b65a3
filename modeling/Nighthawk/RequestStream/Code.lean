import Mathlib.Algebra.Ring.Nat
import Nighthawk.RequestSource.Code

/-!
# The stream of a remote request source

`RequestStreamGrpcClientImpl` asks a server for requests and keeps what it gets in a queue. The
server of the tests is `RequestSourceServiceImpl::RequestStream`.
-/

namespace Nighthawk.RequestStream

open RequestSource
open BenchmarkClient (Request)

abbrev Response := Option RequestSpecifier

/-! ## The client -/

/-- `stream` tells whether `stream_` is set. -/
structure RequestStreamGrpcClientImpl where
  baseHeader : HeaderMap
  headerBufferLength : UInt32
  stream : Bool := false
  messages : List Response := []
  inFlightHeaders : UInt32 := 0
  totalMessagesReceived : UInt32 := 0
  deriving DecidableEq, Repr

namespace RequestStreamGrpcClientImpl

/-- The client, and the quantities of the requests that it sent. -/
def trySendRequest (c : RequestStreamGrpcClientImpl) : RequestStreamGrpcClientImpl × List UInt64 :=
  if c.stream then ({ c with inFlightHeaders := c.headerBufferLength },
    [c.headerBufferLength.toUInt64]) else (c, [])

/-- `stream` is what the library answers. -/
def start (c : RequestStreamGrpcClientImpl) (stream : Bool) : RequestStreamGrpcClientImpl × List UInt64 :=
  trySendRequest { c with stream }

def onReceiveMessage (c : RequestStreamGrpcClientImpl) (message : Response) : RequestStreamGrpcClientImpl :=
  { c with
    inFlightHeaders := c.inFlightHeaders - 1
    totalMessagesReceived := c.totalMessagesReceived + 1
    messages := c.messages ++ [message] }

def onRemoteClose (c : RequestStreamGrpcClientImpl) : RequestStreamGrpcClientImpl :=
  { c with stream := false }

def maybeDequeue (c : RequestStreamGrpcClientImpl) :
    Option Request × RequestStreamGrpcClientImpl × List UInt64 :=
  match c.messages with
  | [] => (none, c, [])
  | message :: messages =>
    let request := messageToRequest c.baseHeader message
    let c := { c with messages }
    if c.inFlightHeaders = 0 ∧ messages.length < c.headerBufferLength.toNat then
      (some request, c.trySendRequest)
    else (some request, c, [])

end RequestStreamGrpcClientImpl

/-! ## The server -/

/-- `createStaticEmptyRequestSource`, whose parameter has 32 bits. -/
def createStaticEmptyRequestSource (amount : UInt32) : Source :=
  .static [("x-from-remote-request-source".toList, "1".toList)] amount.toUInt64

/-- The loops of `RequestStream`: `source` is what the inner one reads from, if it is there. -/
structure RequestSourceServiceImpl where
  requests : List UInt64
  source : Option Source := none

inductive ServiceStep where
  | read
  | next
  deriving DecidableEq, Repr

/-- One round of a loop, and what it writes. -/
def RequestSourceServiceImpl.step (s : RequestSourceServiceImpl) :
    ServiceStep → Option (RequestSourceServiceImpl × List Response)
  | .read =>
    match s.source, s.requests with
    | none, quantity :: requests =>
      some ({ requests, source := some (createStaticEmptyRequestSource quantity.toUInt32) }, [])
    | _, _ => none
  | .next =>
    s.source.map fun source =>
      match source.generate ⟨none, fun _ => 0⟩ with
      | (some request, source) =>
        ({ s with source := some source }, [some { headers := some (.v3Headers request.header) }])
      | (none, _) => ({ s with source := none }, [])

/-! ## Client and server -/

/-- A server that answers each request with its quantity of messages, in order. `left` are the
messages that the request it is at still lacks. -/
structure Server where
  requests : List UInt64
  left : ℕ := 0
  deriving DecidableEq, Repr

inductive ServerStep where
  | read
  | write (message : Response)
  deriving DecidableEq, Repr

def Server.step (s : Server) : ServerStep → Option (Server × List Response)
  | .read =>
    match s.left, s.requests with
    | 0, quantity :: requests => some ({ requests, left := quantity.toNat }, [])
    | _, _ => none
  | .write message =>
    match s.left with
    | left + 1 => some ({ s with left }, [message])
    | 0 => none

/-- `wire` are the messages on their way to the client. The last three fields record what was
asked for, what arrived, and what the client yielded. -/
structure System (σ : Type) where
  client : RequestStreamGrpcClientImpl
  server : σ
  wire : List Response := []
  requested : ℕ := 0
  received : List Response := []
  yielded : List Request := []

inductive Event (ε : Type) where
  | server (e : ε)
  | deliver
  | maybeDequeue
  deriving DecidableEq, Repr

/-- `send` puts requests where the server reads them. -/
def System.step {σ ε : Type} (serve : σ → ε → Option (σ × List Response)) (send : σ → List UInt64 → σ)
    (s : System σ) : Event ε → Option (System σ)
  | .server e => (serve s.server e).map fun (server, written) => { s with server, wire := s.wire ++ written }
  | .deliver =>
    match s.wire with
    | message :: wire =>
      some { s with client := s.client.onReceiveMessage message, wire, received := s.received ++ [message] }
    | [] => none
  | .maybeDequeue =>
    let (request, client, sent) := s.client.maybeDequeue
    some { s with
      client
      server := send s.server sent
      requested := s.requested + (sent.map UInt64.toNat).sum
      yielded := s.yielded ++ request.toList }

def Server.send (s : Server) (sent : List UInt64) : Server := { s with requests := s.requests ++ sent }

def RequestSourceServiceImpl.send (s : RequestSourceServiceImpl) (sent : List UInt64) :
    RequestSourceServiceImpl :=
  { s with requests := s.requests ++ sent }

/-- After `start`, on a stream that opened. -/
def System.init {σ : Type} (send : σ → List UInt64 → σ) (server : σ) (baseHeader : HeaderMap)
    (headerBufferLength : UInt32) : System σ :=
  let (client, sent) := RequestStreamGrpcClientImpl.start { baseHeader, headerBufferLength } true
  { client, server := send server sent, requested := (sent.map UInt64.toNat).sum }

end Nighthawk.RequestStream
