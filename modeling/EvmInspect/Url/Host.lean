import EvmInspect.Text.Numeral
import EvmInspect.Url.Domain

/-!
# Hosts

A host of a URL is an IPv6 address in brackets, an IPv4 address, or the name of a domain,
and a domain that ends in a number has to be an IPv4 address. In a URL of a scheme without
rules of its own the host is any text without certain characters.
-/

namespace EvmInspect.Url

/-- Why a text is no URL. -/
inductive UrlError where
  /-- There is no scheme in front. -/
  | noScheme
  | emptyHost
  | badDomain
  | badPort
  | badIpv4
  | badIpv6
  /-- A character that no host has. -/
  | badHostCharacter
deriving DecidableEq

/-- The wording of the error. -/
def UrlError.message : UrlError → String
  | noScheme => "relative URL without a base"
  | emptyHost => "empty host"
  | badDomain => "invalid international domain name"
  | badPort => "invalid port number"
  | badIpv4 => "invalid IPv4 address"
  | badIpv6 => "invalid IPv6 address"
  | badHostCharacter => "invalid domain character"

open Text (splitOnChar)

/-! ## IPv4 -/

/-- The number in a part of an IPv4 address: hexadecimal after `0x`, octal after `0`,
otherwise decimal. One that does not fit 32 bits is as large as nothing that does. -/
def ipv4Part? (part : List Char) : Option Nat :=
  let readIn (base : Nat) (digits : List Char) : Option Nat :=
    match Numeral.readDigits base UInt32.size 0 digits with
    | .ok n => some n
    | .error .tooLarge =>
      if digits.all fun c => (Numeral.digitValue? base c).isSome then some UInt32.size else none
    | .error _ => none
  match part with
  | [] => none
  | '0' :: 'x' :: digits => readIn 16 digits
  | '0' :: 'X' :: digits => readIn 16 digits
  | ['0'] => some 0
  | '0' :: digits => readIn 8 digits
  | digits => readIn 10 digits

/-- The parts between the dots of a domain, without an empty one at the end. -/
def domainParts (domain : List Char) : List (List Char) :=
  let parts := splitOnChar '.' domain
  match parts.getLast? with
  | some [] => parts.dropLast
  | _ => parts

/-- Whether the last part of a domain is a number. -/
def endsInNumber (domain : List Char) : Bool :=
  match (domainParts domain).getLast? with
  | none => false
  | some part => (!part.isEmpty && part.all Char.isDigit) || (ipv4Part? part).isSome

/-- Whether numbers are the parts of an address: each is a byte, but for the last, which
fills what is left of the four bytes. -/
def fitsIpv4 : (bytesLeft : Nat) → List Nat → Bool
  | bytesLeft, [n] => 0 < bytesLeft && n < BigEndian.span bytesLeft
  | bytesLeft + 1, n :: rest => n < 256 && fitsIpv4 bytesLeft rest
  | _, _ => false

def isIpv4 (domain : List Char) : Bool :=
  match (domainParts domain).mapM ipv4Part? with
  | some numbers => fitsIpv4 4 numbers
  | none => false

/-! ## IPv6 -/

/-- A group of one to four hexadecimal digits. -/
def isHexGroup (group : List Char) : Bool :=
  0 < group.length && group.length ≤ 4 && group.all fun c => (Numeral.digitValue? 16 c).isSome

/-- A byte in decimal, without leading zeros. -/
def isDecimalByte (cs : List Char) : Bool :=
  cs.all Char.isDigit &&
    match cs with
    | [] => false
    | ['0'] => true
    | '0' :: _ => false
    | cs => (Numeral.readDigits 10 256 0 cs).toOption.isSome

/-- Four bytes with dots between them. -/
def isDotted (cs : List Char) : Bool :=
  let parts := splitOnChar '.' cs
  parts.length = 4 && parts.all isDecimalByte

/-- The number of 16-bit pieces in groups, of which the last may be four bytes with dots. -/
def countPieces (mayEndDotted : Bool) : List (List Char) → Option Nat
  | [] => some 0
  | [group] =>
    if isHexGroup group then some 1
    else if mayEndDotted && isDotted group then some 2
    else none
  | group :: rest =>
    if isHexGroup group then (countPieces mayEndDotted rest).map (· + 1) else none

/-- The groups between colons; an empty text has none. -/
def groups (cs : List Char) : List (List Char) := if cs.isEmpty then [] else splitOnChar ':' cs

/-- The text before and after the first double colon. -/
def splitDoubleColon : List Char → Option (List Char × List Char)
  | ':' :: ':' :: rest => some ([], rest)
  | c :: rest => (splitDoubleColon rest).map fun (before, after) => (c :: before, after)
  | [] => none

/-- Eight pieces, or fewer around one double colon. -/
def isIpv6 (cs : List Char) : Bool :=
  match splitDoubleColon cs with
  | none => countPieces true (groups cs) == some 8
  | some (before, after) =>
    match countPieces false (groups before), countPieces true (groups after) with
    | some m, some n => m + n < 8
    | _, _ => false

/-! ## Hosts of both kinds of schemes -/

/-- Checks the host of a URL whose scheme has rules of its own. -/
def checkHost (cs : List Char) : Except UrlError Unit :=
  match cs with
  | '[' :: rest =>
    match rest.reverse with
    | ']' :: inner => if isIpv6 inner.reverse then .ok () else .error .badIpv6
    | _ => .error .badIpv6
  | cs =>
    match readDomain? cs with
    | none => .error .badDomain
    | some domain =>
      if domain.isEmpty then .error .emptyHost
      else if endsInNumber domain && !isIpv4 domain then .error .badIpv4
      else .ok ()

/-- Checks the host of a URL of any other scheme. -/
def checkOpaqueHost (cs : List Char) : Except UrlError Unit :=
  match cs with
  | '[' :: _ => checkHost cs
  | cs =>
    if cs.any fun c => c = '\x00' || " #/:<>?@[\\]^|".toList.contains c then
      .error .badHostCharacter
    else .ok ()

example : isIpv6 "::1".toList ∧ isIpv6 "1:2:3:4:5:6:7::".toList ∧ isIpv6 "::ffff:1.2.3.4".toList := by
  decide
example : ¬ isIpv6 "1::2::3".toList ∧ ¬ isIpv6 ":1".toList ∧ ¬ isIpv6 "1.2.3.4::".toList := by decide
example : isIpv4 "127.1".toList ∧ ¬ isIpv4 "256.1.1.1".toList := by decide

end EvmInspect.Url
