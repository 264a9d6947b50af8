import LoadReport.Text.Quoted
import LoadReport.Url.Address

/-!
# Scheme and authority of a URL

Of a URL only two parts matter here: the scheme, which names the protocol,
and the authority, which says whom to talk to.

Before anything is split, control characters and spaces are dropped from
the front and tabs and line ends from everywhere. The scheme is what stands
before the first colon, if it starts with a letter and goes on with letters,
digits and `+ - .`; the authority is what follows two slashes, up to the
next slash, question mark or number sign.

An authority can be refused, whatever its scheme:

- square brackets have to enclose the whole host, and what is in them has to
  be an IPv6 address or an address of a future version;
- no character may turn into one of `/ ? # @ :` when compatibility forms are
  replaced by ordinary ones, because the authority would then end elsewhere.
-/

namespace LoadReport

/-- Why the authority of a URL is refused. -/
inductive UrlError
  | misplacedBracket
  | futureAddress
  | bracketedIPv4
  | notAnAddress (host : String)
  | compatibilityDelimiter (authority : String)
deriving DecidableEq, Repr

def UrlError.message : UrlError → String
  | misplacedBracket => "Invalid IPv6 URL"
  | futureAddress => "IPvFuture address is invalid"
  | bracketedIPv4 => "An IPv4 address cannot be in brackets"
  | notAnAddress host =>
      Text.quoted host ++ " does not appear to be an IPv4 or IPv6 address"
  | compatibilityDelimiter authority =>
      "netloc '" ++ authority ++ "' contains invalid characters under NFKC normalization"

/-- The two parts of a URL that say what to connect to. -/
structure UrlTarget where
  scheme : List Char
  authority : List Char
deriving DecidableEq, Repr

namespace Url

/-! ## Splitting -/

/-- Drops control characters and spaces from the front, and tabs and line
ends from everywhere. -/
def clean (text : List Char) : List Char :=
  (text.dropWhile fun c => decide (c.toNat ≤ 0x20)).filter fun c =>
    !(c == '\t' || c == '\n' || c == '\r')

def isSchemeChar (c : Char) : Bool :=
  c.isAlphanum || c == '+' || c == '-' || c == '.'

def isScheme : List Char → Bool
  | [] => false
  | c :: rest => c.isAlpha && rest.all isSchemeChar

/-- Splits off the scheme, in lower case. A URL without one keeps all its
characters. -/
def splitScheme (text : List Char) : List Char × List Char :=
  let name := text.takeWhile (· ≠ ':')
  match text.dropWhile (· ≠ ':') with
  | _ :: rest => if isScheme name then (name.map Char.toLower, rest) else ([], text)
  | [] => ([], text)

/-- The characters that end an authority. -/
def endsAuthority (c : Char) : Bool := c == '/' || c == '?' || c == '#'

/-- The authority of what follows the scheme; empty if there is none. -/
def authorityOf : List Char → List Char
  | '/' :: '/' :: rest => rest.takeWhile fun c => !endsAuthority c
  | _ => []

/-! ## Brackets -/

/-- What stands in brackets, where an authority has both of them. -/
def bracketedHost (authority : List Char) : Except UrlError (List Char) :=
  let hostAndPort := (authority.reverse.takeWhile (· ≠ '@')).reverse
  let before := hostAndPort.takeWhile (· ≠ '[')
  match hostAndPort.dropWhile (· ≠ '[') with
  | _ :: inner =>
      let port := (inner.dropWhile (· ≠ ']')).drop 1
      if before.isEmpty && (port.isEmpty || port.head? == some ':') then
        .ok (inner.takeWhile (· ≠ ']'))
      else
        .error .misplacedBracket
  | [] => .ok (hostAndPort.takeWhile (· ≠ ':'))

/-- The written form of an address of a future version: a version in
hexadecimal, a point, and something. -/
def isFutureAddress (text : List Char) : Bool :=
  match text.dropWhile isHexDigit with
  | '.' :: rest => !(text.takeWhile isHexDigit).isEmpty && !rest.isEmpty
  | _ => false

def checkHost (host : List Char) : Except UrlError Unit :=
  match host with
  | 'v' :: rest => if isFutureAddress rest then .ok () else .error .futureAddress
  | _ =>
      if isIPv4 host then .error .bracketedIPv4
      else if isIPv6 host then .ok ()
      else .error (.notAnAddress (String.ofList host))

def checkBrackets (authority : List Char) : Except UrlError Unit :=
  match authority.contains '[', authority.contains ']' with
  | false, false => .ok ()
  | true, true => (bracketedHost authority).bind checkHost
  | _, _ => .error .misplacedBracket

/-! ## Compatibility forms -/

/-- The characters beyond ASCII whose compatibility form holds one of
`/ ? # @ :`. -/
def compatibilityDelimiters : List Nat :=
  [0x2047, 0x2048, 0x2049, 0x2100, 0x2101, 0x2105, 0x2106, 0x2a74, 0xfe13, 0xfe16,
   0xfe55, 0xfe56, 0xfe5f, 0xfe6b, 0xff03, 0xff0f, 0xff1a, 0xff1f, 0xff20]

def checkCompatibility (authority : List Char) : Except UrlError Unit :=
  if authority.any fun c => compatibilityDelimiters.contains c.toNat then
    .error (.compatibilityDelimiter (String.ofList authority))
  else
    .ok ()

/-! ## The whole URL -/

/-- Splits a URL and checks its authority. -/
def split (text : String) : Except UrlError UrlTarget := do
  let (scheme, rest) := splitScheme (clean text.toList)
  let authority := authorityOf rest
  checkBrackets authority
  checkCompatibility authority
  return { scheme, authority }

/-- Whether a target can be reached over HTTP: the scheme is one of the two
and there is an authority. -/
def isHttp (target : UrlTarget) : Bool :=
  (target.scheme == ['h', 't', 't', 'p'] || target.scheme == ['h', 't', 't', 'p', 's'])
    && !target.authority.isEmpty

/-- Without brackets there is nothing to check about them. -/
theorem checkBrackets_of_not_contains {authority : List Char} (ho : authority.contains '[' = false)
    (hc : authority.contains ']' = false) : checkBrackets authority = .ok () := by
  simp only [checkBrackets, ho, hc]

end Url
end LoadReport
