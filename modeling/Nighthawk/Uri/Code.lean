import Mathlib.Algebra.Group.Nat.Defs
import Nighthawk.Lib.Text

/-! # URIs -/

namespace Nighthawk.Uri

/-- Envoy's helper. The host runs from after `://`, or from the start, to the next slash. -/
def extractHostPathFromUri (uri : Str) : Str × Str :=
  let rest := match Text.find "://".toList uri with
    | some pos => uri.drop (pos + 3)
    | none => uri
  let path := rest.dropWhile (· ≠ '/')
  (rest.takeWhile (· ≠ '/'), if path = [] then ['/'] else path)

/-- `Utility::findPortSeparator`. -/
def findPortSeparator (hostname : Str) : Option Nat :=
  if hostname.head? = some '[' then
    (hostname.findIdx? (· = ']')).bind fun close =>
      ((hostname.drop close).findIdx? (· = ':')).map (· + close)
  else Text.rfind ':' hostname

/-- A host that `host` accepts and a port that fits an `int`, with a colon between them. -/
def matchHostPort (host : Str → Bool) (s : Str) : Option (Str × Nat) :=
  (Text.rfind ':' s).bind fun colon =>
    let digits := s.drop (colon + 1)
    if host (s.take colon) && digits ≠ [] then
      ((Text.digitsVal digits).filter (· ≤ 2147483647)).map fun port => (s.take colon, port)
    else none

def isV4 (host : Str) : Bool :=
  let groups := host.splitOn '.'
  groups.length = 4 && groups.all fun g => g ≠ [] && g.all Char.isDigit

def isHexDigit (c : Char) : Bool := c.isDigit || ('a' ≤ c && c ≤ 'f') || ('A' ≤ c && c ≤ 'F')

def isBracketed (host : Str) : Bool :=
  let inner := host.tail.dropLast
  host = '[' :: inner ++ [']'] && inner ≠ [] && inner.all fun c => c = '.' || c = ':' || isHexDigit c

def isDnsName (host : Str) : Bool := host ≠ [] && host.all fun c => c = '-' || c = '.' || c.isAlphanum

/-- `Utility::parseHostPort`, with one case for each of its patterns. -/
def parseHostPort (hostPort : Str) : Option (Str × Nat) :=
  matchHostPort isV4 hostPort <|> matchHostPort isBracketed hostPort <|> matchHostPort isDnsName hostPort

structure UriImpl where
  hostAndPort : Str
  hostWithoutPort : Str
  path : Str
  port : Nat
  scheme : Str
  deriving DecidableEq, Repr

namespace UriImpl

def isValid (u : UriImpl) : Bool :=
  (u.scheme = "http".toList || u.scheme = "https".toList || u.scheme = "zipkin".toList ||
    u.scheme = "grpc".toList) &&
    (0 < u.port && u.port ≤ 65535) && u.hostWithoutPort ≠ [] && u.hostWithoutPort.head? ≠ some '-'

def defaultPort (scheme : Str) : Nat :=
  if scheme = "https".toList then 443 else if scheme = "grpc".toList then 8443 else 80

/-- The host and the port, before they are checked. The port is read as a 64-bit number. -/
def splitPort (host scheme path : Str) : Except String UriImpl :=
  match findPortSeparator host with
  | none =>
    let port := defaultPort scheme
    .ok ⟨host ++ ':' :: Text.decimal port, host, path, port, scheme⟩
  | some colon =>
    match Text.parseUnsigned (2 ^ 64 - 1) (host.drop (colon + 1)) with
    | some port => .ok ⟨host, host.take colon, path, port, scheme⟩
    | none => .error "Invalid URI, couldn't parse port"

/-- The constructor, or the text of its `UriException`. -/
def create (uri defaultScheme : Str) : Except String UriImpl :=
  let (host, path) := extractHostPathFromUri uri
  if host = [] then .error "Invalid URI (no host)"
  else
    let scheme := match Text.find "://".toList uri with
      | some schemeEnd => Text.toLower (uri.take schemeEnd)
      | none => defaultScheme
    (splitPort host scheme path).bind fun u => if u.isValid then .ok u else .error "Invalid URI"

end UriImpl

end Nighthawk.Uri
