import EvmInspect.Abi.Ty

/-!
# The text of ABI types

A type is written as a name, a name with a dot and at most one other after it, or a list
of types between parentheses, followed by any number of array sizes. Reading a text checks
this form only; `resolve?` then asks what the names mean, which may fail.
-/

namespace EvmInspect.Abi

/-- A type as it is written. -/
inductive TypeText where
  | name (text : List Char)
  /-- A name with a dot after it, which always stands for an enumeration. The name in the
  enumeration's place may be missing. -/
  | qualified
  | tuple (members : List TypeText)
  | array (element : TypeText) (size : Option Nat)

namespace TypeText

def isNameStart (c : Char) : Bool := c.isAlpha || c == '_' || c == '$'

def isNameChar (c : Char) : Bool := c.isAlphanum || c == '_' || c == '$'

/-- Whether the characters are a name: a letter, `_` or `$`, then also digits. -/
def isName : List Char → Bool
  | [] => false
  | c :: rest => isNameStart c && rest.all isNameChar

/-- The name at the front of a text. -/
def takeName? : List Char → Option (List Char × List Char)
  | [] => none
  | c :: rest =>
    if isNameStart c then some (c :: rest.takeWhile isNameChar, rest.dropWhile isNameChar)
    else none

/-- The size between brackets: none at all, or a number from 1 to 2^64 - 1. -/
def size? (digits : List Char) : Option (Option Nat) :=
  match digits with
  | [] => some none
  | digits =>
    let n := digits.foldl (fun n c => n * 10 + (c.toNat - 48)) 0
    if 0 < n && n < UInt64.size then some (some n) else none

/-- Reads array sizes; `open?` holds the digits of a bracket that is still open, in reverse. -/
def suffixes? (element : TypeText) : (open? : Option (List Char)) → List Char →
    Option (TypeText × List Char)
  | none, '[' :: rest => suffixes? element (some []) rest
  | none, rest => some (element, rest)
  | some digits, ']' :: rest =>
    match size? digits.reverse with
    | some size => suffixes? (array element size) none rest
    | none => none
  | some digits, c :: rest =>
    if c.isDigit then suffixes? element (some (c :: digits)) rest else none
  | some _, [] => none

def dropSpaces (cs : List Char) : List Char := cs.dropWhile fun c => c == ' ' || c == '\t'

/-- The name at the front of a text, with a dot and what it qualifies if they follow. -/
def takeStem? (cs : List Char) : Option (TypeText × List Char) :=
  match takeName? cs with
  | none => none
  | some (text, rest) =>
    match rest with
    | '.' :: more =>
      match takeName? more with
      | some (_, rest) => some (qualified, rest)
      | none => some (qualified, more)
    | rest => some (name text, rest)

/-- What stands after the parenthesis that opens a tuple, if one does here. -/
def openTuple? : List Char → Option (List Char)
  | '(' :: rest => some (dropSpaces rest)
  | 't' :: 'u' :: 'p' :: 'l' :: 'e' :: '(' :: rest => some (dropSpaces rest)
  | _ => none

mutual

/-- Reads the type at the front of a text; `nesting` bounds the parentheses still to come. -/
def take? : (fuel nesting : Nat) → List Char → Option (TypeText × List Char)
  | 0, _, _ => none
  | fuel + 1, nesting, cs =>
    match openTuple? cs with
    | none =>
      match takeStem? cs with
      | some (stem, rest) => suffixes? stem none rest
      | none => none
    | some rest =>
      if nesting = 0 then none
      else
        match rest with
        | ')' :: rest => suffixes? (tuple []) none rest
        | rest =>
          match takeMembers? fuel (nesting - 1) rest with
          | some (members, rest) => suffixes? (tuple members) none rest
          | none => none

/-- Reads the members of a tuple, of which there is at least one, and its closing parenthesis. -/
def takeMembers? : (fuel nesting : Nat) → List Char → Option (List TypeText × List Char)
  | 0, _, _ => none
  | fuel + 1, nesting, cs =>
    match take? fuel nesting cs with
    | none => none
    | some (member, rest) =>
      match rest with
      | ',' :: rest =>
        match dropSpaces rest with
        | ')' :: rest => some ([member], rest)
        | rest =>
          match takeMembers? fuel nesting rest with
          | some (members, rest) => some (member :: members, rest)
          | none => none
      | rest =>
        match dropSpaces rest with
        | ')' :: rest => some ([member], rest)
        | _ => none

end

/-- How many parentheses may be open at once. -/
def maxNesting : Nat := 79

/-- Reads a type. Each step of the reader uses up a character or goes one level down, so
twice the length of the text is fuel enough. -/
def parse? (text : String) : Option TypeText :=
  let cs := text.toList
  match take? (2 * cs.length + 2) maxNesting cs with
  | some (t, []) => some t
  | _ => none

/-! ## What the names mean -/

/-- The number that a row of decimal digits writes; there has to be one. -/
def decimal? (cs : List Char) : Option Nat :=
  if cs.isEmpty || !cs.all Char.isDigit then none
  else some (cs.foldl (fun n c => n * 10 + (c.toNat - 48)) 0)

/-- The width of an integer type: a multiple of eight from 8 to 256. -/
def width? (digits : List Char) : Option Nat :=
  match decimal? digits with
  | some n => if 0 < n ∧ n ≤ 256 ∧ n % 8 = 0 then some n else none
  | none => none

/-- The type of a name. -/
def ofName? (text : List Char) : Option Ty :=
  if text = "address".toList then some .address
  else if text = "bool".toList then some .bool
  else if text = "string".toList then some .string
  else if text = "bytes".toList then some .bytes
  else if text = "function".toList then some .function
  else if text = "uint".toList then some (.uint 256)
  else if text = "int".toList then some (.int 256)
  else
    match text with
    | 'u' :: 'i' :: 'n' :: 't' :: digits => (width? digits).map .uint
    | 'i' :: 'n' :: 't' :: digits => (width? digits).map .int
    | 'b' :: 'y' :: 't' :: 'e' :: 's' :: digits =>
      match decimal? digits with
      | some n => if 0 < n ∧ n ≤ 32 then some (.fixedBytes n) else none
      | none => none
    | _ => none

mutual

/-- The type that a text means. -/
def resolve? : TypeText → Option Ty
  | name text => ofName? text
  | qualified => some (.uint 8)
  | tuple members => (resolveAll? members).map .tuple
  | array element none => (resolve? element).map .array
  | array element (some n) => (resolve? element).map fun t => .fixedArray t n

def resolveAll? : List TypeText → Option (List Ty)
  | [] => some []
  | t :: ts =>
    match resolve? t with
    | none => none
    | some t =>
      match resolveAll? ts with
      | none => none
      | some ts => some (t :: ts)

end

/-- The array sizes of a text, around another type in place of its stem. -/
def wrap : TypeText → Ty → Ty
  | array element none, t => .array (wrap element t)
  | array element (some n), t => .fixedArray (wrap element t) n
  | _, t => t

end TypeText

end EvmInspect.Abi
