import EvmInspect.Url.Host

/-!
# The scheme of a URL

A text is checked to be a complete URL and gives its scheme in small letters. What is
checked beyond the scheme is the authority: the user and the password in front of the
last `@`, the host and its number. Paths, queries and fragments are never at fault.
-/

namespace EvmInspect.Url

/-- How the text after a scheme is read. -/
inductive SchemeKind where
  | file
  /-- A scheme of the web: the host has to be there, and backslashes count as slashes. -/
  | web
  | other
deriving DecidableEq

def kindOf (scheme : String) : SchemeKind :=
  if scheme = "file" then .file
  else if ["http", "https", "ws", "wss", "ftp"].contains scheme then .web
  else .other

/-- The text as it is read: blanks and controls at its ends do not count, nor do tabs and
ends of lines anywhere. -/
def significant (text : String) : List Char :=
  let isEdge (c : Char) : Bool := c.toNat ≤ 32
  let cs := ((text.toList.dropWhile isEdge).reverse.dropWhile isEdge).reverse
  cs.filter fun c => c != '\t' && c != '\n' && c != '\r'

def isSchemeChar (c : Char) : Bool := c.isAlphanum || c == '+' || c == '-' || c == '.'

/-- The scheme, and the text after its colon. -/
def splitScheme? (cs : List Char) : Option (String × List Char) :=
  match cs.span isSchemeChar with
  | (first :: scheme, ':' :: rest) =>
    if first.isAlpha then some (String.ofList ((first :: scheme).map Char.toLower), rest) else none
  | _ => none

/-- Whether a character ends the authority. -/
def endsAuthority (kind : SchemeKind) (c : Char) : Bool :=
  c = '/' || c = '?' || c = '#' || (c = '\\' && kind != .other)

/-- What stands before the last `@` of a text, and what stands after it. -/
def splitLastAt? (cs : List Char) : Option (List Char × List Char) :=
  let (after, before) := cs.reverse.span (· != '@')
  match before with
  | _at :: user => some (user.reverse, after.reverse)
  | [] => none

/-- The host in front of a text, up to a colon that is not between brackets. -/
def spanHost (inBrackets : Bool) : List Char → List Char × List Char
  | [] => ([], [])
  | c :: rest =>
    if c = ':' && !inBrackets then ([], c :: rest)
    else
      let (host, rest) := spanHost (if c = '[' then true else if c = ']' then false else inBrackets) rest
      (c :: host, rest)

/-- Checks what stands after the host: nothing, or a colon and a number of 16 bits. A
backslash ends the number. -/
def checkPort : List Char → Except UrlError Unit
  | [] => .ok ()
  | _colon :: rest =>
    let (digits, rest) := rest.span Char.isDigit
    match Numeral.readDigits 10 UInt16.size 0 digits, rest with
    | .error _, _ => .error .badPort
    | .ok _, [] => .ok ()
    | .ok _, c :: _ => if c = '\\' then .ok () else .error .badPort

/-- Checks the authority in front of a text. A user without a host is at fault, and a host
is missing when nothing stands before its colon. -/
def checkAuthority (kind : SchemeKind) (cs : List Char) : Except UrlError Unit := do
  let authority := cs.takeWhile fun c => !endsAuthority kind c
  let (user, place) := (splitLastAt? authority).getD ([], authority)
  let (host, rest) := spanHost false place
  let nameless := (splitLastAt? authority).isSome && user.isEmpty
  if nameless && place.isEmpty && authority.length < cs.length then throw .emptyHost
  if kind = .web then
    if host.isEmpty then throw .emptyHost
    checkHost host
  else
    checkOpaqueHost host
    if host.isEmpty && !rest.isEmpty then throw .emptyHost
  checkPort rest
  if host.isEmpty && !user.isEmpty && user ≠ [':'] then throw .emptyHost

/-- Whether a text names a drive, such as `c:`. -/
def isDrive : List Char → Bool
  | [letter, mark] => letter.isAlpha && (mark = ':' || mark = '|')
  | _ => false

/-- Checks the host of a file, which may be missing. -/
def checkFileHost (cs : List Char) : Except UrlError Unit :=
  let host := cs.takeWhile fun c => !endsAuthority .file c
  if host.isEmpty || isDrive host then .ok () else checkHost host

/-- Checks what stands after the colon of a scheme. -/
def checkRest (kind : SchemeKind) (cs : List Char) : Except UrlError Unit :=
  let isSlash (c : Char) : Bool := c = '/' || c = '\\'
  match kind, cs with
  | .web, cs => checkAuthority .web (cs.dropWhile isSlash)
  | .other, '/' :: '/' :: rest => checkAuthority .other rest
  | .file, a :: b :: rest => if isSlash a && isSlash b then checkFileHost rest else .ok ()
  | _, _ => .ok ()

/-- The scheme of a text that is a complete URL. -/
def scheme (text : String) : Except UrlError String := do
  match splitScheme? (significant text) with
  | none => throw .noScheme
  | some (scheme, rest) =>
    checkRest (kindOf scheme) rest
    return scheme

end EvmInspect.Url
