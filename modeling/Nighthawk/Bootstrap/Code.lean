import Nighthawk.Absl.Status
import Nighthawk.Counters.Code
import Nighthawk.Options.Code

/-!
# The bootstrap configuration

What `process_bootstrap.cc` makes of the options: the URIs of the targets and of the request
source, and the transport socket with its server name indication.
-/

namespace Nighthawk.Bootstrap

open Options Uri
open BenchmarkClient (Protocol)
open Counters (stripPrefix)

/-! ## Resolving -/

inductive DnsLookupFamily where
  | v4Only | v6Only | auto
  deriving DecidableEq, Repr

inductive IpVersion where
  | v4 | v6
  deriving DecidableEq, Repr

/-- The version of the first address that is found for a name. -/
abbrev DnsResolver := Str → DnsLookupFamily → Option IpVersion

inductive Failure where
  | uriException (what : String)
  | panic
  deriving DecidableEq, Repr

/-- A number without a name is not reached. -/
def translateFamilyOptionString : Enum AddressFamilyOptions → Except Failure DnsLookupFamily
  | .named .v4 => .ok .v4Only
  | .named .v6 => .ok .v6Only
  | .named .auto => .ok .auto
  | .unnamed _ => .error .panic

/-- Brackets are not part of an address. -/
def lookupName (hostname : Str) : Str :=
  if hostname.head? = some '[' ∧ hostname.getLast? = some ']' then hostname.filter fun c => c ≠ '[' ∧ c ≠ ']'
  else hostname

def resolve (dns : DnsResolver) (uri : UriImpl) (family : DnsLookupFamily) : Except Failure Unit :=
  match dns (lookupName uri.hostWithoutPort) family, family with
  | some .v4, .v6Only | some .v6, .v4Only | none, _ => .error (.uriException "Could not determine address")
  | some _, _ => .ok ()

/-! ## The URIs -/

structure Uris where
  uris : List UriImpl
  encapUri : Option UriImpl
  requestSourceUri : Option UriImpl
  deriving DecidableEq, Repr

def makeUri (uri : Str) : Except Failure UriImpl := (UriImpl.create uri "http".toList).mapError .uriException

def multiTargetScheme (useHttps : Bool) : Str := if useHttps then "https".toList else "http".toList

/-- The text for one endpoint of a multi-target. -/
def multiTargetUri (useHttps : Bool) (path address : Str) (port : ℕ) : Str :=
  multiTargetScheme useHttps ++ "://".toList ++ address ++ ':' :: Text.decimal port ++ path

def endpointUri (o : OptionsImpl) (e : Endpoint) : Str :=
  multiTargetUri o.multiTargetUseHttps o.multiTargetPath (e.address.getD []) (e.port.getD 0).toNat

def makeTargetUris (o : OptionsImpl) : Except Failure (List UriImpl) :=
  match o.uri with
  | some uri => (makeUri uri).map ([·])
  | none => o.multiTargetEndpoints.mapM fun e => makeUri (endpointUri o e)

/-- Makes the URI of a text that is not empty, and resolves it. -/
def makeAndResolve (dns : DnsResolver) (o : OptionsImpl) (condition : Bool) (uri : Str) :
    Except Failure (Option UriImpl) :=
  if condition then do
    let uri ← makeUri uri
    resolve dns uri (← translateFamilyOptionString o.addressFamily)
    return some uri
  else return none

def makeUris (dns : DnsResolver) (o : OptionsImpl) : Except Failure Uris := do
  let uris ← makeTargetUris o
  uris.forM fun uri => do resolve dns uri (← translateFamilyOptionString o.addressFamily)
  let encapUri ← makeAndResolve dns o (o.tunnelUri ≠ [])
    ("https://localhost:".toList ++ Text.decimal o.encapPort.toNat)
  let requestSourceUri ← makeAndResolve dns o (o.requestSource ≠ []) o.requestSource
  return { uris, encapUri, requestSourceUri }

/-- A panic is `none`. -/
def extractAndResolveUrisFromOptions (dns : DnsResolver) (o : OptionsImpl) : Option (Except Status Uris) :=
  match makeUris dns o with
  | .ok uris => some (.ok uris)
  | .error (.uriException what) => some (.error ⟨.invalidArgument,
      ("URI exception (for example, malformed URI syntax, bad MultiTarget path, unresolvable host DNS): " ++
        what).toList⟩)
  | .error .panic => none

/-! ## The transport socket -/

def considersAuthority (protocol : Protocol) : Bool := protocol = .http2 || protocol = .http3

def isHostHeader (protocol : Protocol) (loweredHeader : Str) : Bool :=
  "host:".toList.isPrefixOf loweredHeader ||
    (":authority:".toList.isPrefixOf loweredHeader && considersAuthority protocol)

/-- `request_sni` and `ambiguous`, after one header. -/
def scanHeader (protocol : Protocol) (found : Str × Bool) (header : Str) : Str × Bool :=
  let loweredHeader := Text.toLower header
  if isHostHeader protocol loweredHeader then
    let host := stripPrefix (stripPrefix loweredHeader "host:".toList) ":authority:".toList
    (Text.strip host, found.2 || found.1 ≠ [])
  else found

def uriSni : List UriImpl → Str
  | [uri] => uri.hostWithoutPort
  | _ => []

/-- `SniUtility::computeSniHost`. -/
def computeSniHost (uris : List UriImpl) (requestHeaders : List Str) (protocol : Protocol) : Str :=
  let (requestSni, ambiguous) := requestHeaders.foldl (scanHeader protocol) ([], false)
  if ambiguous then [] else if requestSni = [] then uriSni uris else requestSni

/-- A socket that was configured, or one that is made from the TLS context. An empty server name
leaves the context as it is. -/
inductive TransportSocket where
  | configured (value : Message)
  | generated (name alpnProtocol : Str) (tlsContext : Message) (sni : Option Str)
  deriving DecidableEq, Repr

def needTransportSocket (o : OptionsImpl) (uris : List UriImpl) : Bool :=
  uris.head?.map UriImpl.scheme = some "https".toList || o.transportSocket.isSome

def createTransportSocket (o : OptionsImpl) (uris : List UriImpl) : TransportSocket :=
  match o.transportSocket with
  | some socket => .configured socket
  | none =>
    let sniHost := computeSniHost uris o.requestHeaders o.protocol
    let sni := if sniHost = [] then none else some sniHost
    match o.protocol with
    | .http2 => .generated "envoy.transport_sockets.tls".toList "h2".toList o.tlsContext sni
    | .http3 => .generated "envoy.transport_sockets.quic".toList "h3".toList o.tlsContext sni
    | _ => .generated "envoy.transport_sockets.tls".toList "http/1.1".toList o.tlsContext sni

end Nighthawk.Bootstrap
