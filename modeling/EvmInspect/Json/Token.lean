import EvmInspect.Json.Basic
import EvmInspect.Text.Numeral

/-!
# The tokens of JSON

The lexer reads one character at a time and carries what it is in the middle of, so it
is a fold over the text. A run of characters that are neither blank nor punctuation nor
a quote is one bare word, which has to be a number or one of the three literals.

A word that is no number is an error, and so is a wrong escape. A number that is too
large and a string with half a surrogate pair are well written: they are tokens without
a meaning.
-/

namespace EvmInspect.Json

inductive Token where
  | openArray
  | closeArray
  | openObject
  | closeObject
  | comma
  | colon
  /-- A string; none when its escapes do not spell characters. -/
  | text (value : Option String)
  /-- A literal or a number. -/
  | leaf (value : Json)

/-! ## Numbers -/

/-- The number with 53 binary digits nearest to `n`; of two, the even one. -/
def roundedBinary (n : Nat) : Nat :=
  let unit := Nat.pow 2 (n.log2 - 52)
  let below := n / unit
  let rest := 2 * (n % unit)
  if rest < unit || (rest = unit && below % 2 = 0) then below * unit else (below + 1) * unit

/-- Whether `digits` times a power of ten is finite in the 64-bit floating format, both
factors being rounded before they are multiplied. -/
def fitsFloat (digits : Nat) (exponent : Int) : Bool :=
  if digits = 0 || exponent ≤ 0 then true
  else if 308 < exponent then false
  else roundedBinary digits * roundedBinary (Nat.pow 10 exponent.toNat) < Numeral.floatLimit

/-- The number of a row of decimal digits. -/
def natOfDigits (cs : List Char) : Nat := cs.foldl (fun n c => n * 10 + (c.toNat - 48)) 0

/-- Reads on from the number read so far while it stays below 2^64, and counts the digits
that are left. -/
def leadingDigits (soFar : Nat) : List Char → Nat × Nat
  | [] => (soFar, 0)
  | c :: rest =>
    let next := soFar * 10 + (c.toNat - 48)
    if next < UInt64.size then leadingDigits next rest else (soFar, rest.length + 1)

/-- The digits after `e` or `E`, with a sign in front allowed. -/
def exponent? (cs : List Char) : Option Int :=
  let (sign, digits) : Int × List Char :=
    match cs with
    | '+' :: rest => (1, rest)
    | '-' :: rest => (-1, rest)
    | rest => (1, rest)
  if digits.isEmpty || !digits.all Char.isDigit then none
  else some (sign * natOfDigits digits)

/-- The value of a number word: digits without a leading zero, a fraction and an exponent.
A number too large for the 64-bit floating format has no meaning; of its digits those that
64 bits hold decide that, the others count as places only. -/
def number? (word : List Char) : Option Json :=
  let (negative, unsigned) : Bool × List Char :=
    match word with
    | '-' :: rest => (true, rest)
    | rest => (false, rest)
  let (whole, rest) := unsigned.span Char.isDigit
  let wellFormed :=
    match whole with
    | [] => false
    | ['0'] => true
    | '0' :: _ => false
    | _ => true
  if !wellFormed then none
  else
    let fraction (digits : Nat) (exponent : Int) : Json :=
      if fitsFloat digits exponent then .fraction (String.ofList word) else .unreadable
    let exponentPart (digits : Nat) (scale : Int) (cs : List Char) : Option Json :=
      (exponent? cs).map fun e => fraction digits (e + scale)
    let n := natOfDigits whole
    let (significand, dropped) := leadingDigits 0 whole
    match rest with
    | [] =>
      if negative then
        if 0 < n && n ≤ Numeral.int64Limit then some (.integer (-(n : Int)))
        else some (fraction significand dropped)
      else if n < UInt64.size then some (.integer n)
      else some (fraction significand dropped)
    | 'e' :: cs => exponentPart significand dropped cs
    | 'E' :: cs => exponentPart significand dropped cs
    | '.' :: cs =>
      let (places, rest) := cs.span Char.isDigit
      if places.isEmpty then none
      else
        let (significand, left) := leadingDigits significand places
        let scale := (dropped : Int) + left - places.length
        match rest with
        | [] => some (fraction significand scale)
        | 'e' :: cs => exponentPart significand scale cs
        | 'E' :: cs => exponentPart significand scale cs
        | _ => none
    | _ => none

/-- The value of a bare word. -/
def ofWord? (word : List Char) : Option Json :=
  if word = "null".toList then some .null
  else if word = "true".toList then some (.bool true)
  else if word = "false".toList then some (.bool false)
  else number? word

/-! ## Strings -/

/-- What a string is written with. -/
inductive Piece where
  | char (c : Char)
  /-- A code from the first half of the surrogates, as an escape. -/
  | high (code : Nat)
  /-- A code from the second half of the surrogates, as an escape. -/
  | low (code : Nat)

namespace Piece

/-- The piece that an escaped code of 16 bits stands for. -/
def ofCode (code : Nat) : Piece :=
  if 0xd800 ≤ code && code ≤ 0xdbff then high code
  else if 0xdc00 ≤ code && code ≤ 0xdfff then low code
  else char (Char.ofNat code)

/-- The character of a surrogate pair. -/
def joined (high low : Nat) : Char :=
  Char.ofNat (0x10000 + (high - 0xd800) * 1024 + (low - 0xdc00))

/-- The characters of a row of pieces: a high code and the low code right after it make
one character, and neither may stand alone. -/
def characters? : List Piece → Option (List Char)
  | [] => some []
  | char c :: rest => (characters? rest).map (c :: ·)
  | high h :: low l :: rest => (characters? rest).map (joined h l :: ·)
  | _ => none

end Piece

/-! ## The lexer -/

/-- What the lexer is in the middle of; what was read so far stands in reverse. -/
inductive Mode where
  | between
  | word (soFar : List Char)
  | text (soFar : List Piece)
  /-- After a backslash. -/
  | escape (soFar : List Piece)
  /-- In the four digits of a code. -/
  | code (soFar : List Piece) (missing value : Nat)

def isBlank (c : Char) : Bool := c == ' ' || c == '\n' || c == '\t' || c == '\r'

/-- The token of a punctuation mark. -/
def mark? (c : Char) : Option Token :=
  if c = '[' then some .openArray
  else if c = ']' then some .closeArray
  else if c = '\x7b' then some .openObject
  else if c = '\x7d' then some .closeObject
  else if c = ',' then some .comma
  else if c = ':' then some .colon
  else none

/-- The lexer's next state when it is in the middle of nothing. -/
def stepBetween (tokens : List Token) (c : Char) : List Token × Mode :=
  if isBlank c then (tokens, .between)
  else if c = '"' then (tokens, .text [])
  else
    match mark? c with
    | some token => (token :: tokens, .between)
    | none => (tokens, .word [c])

/-- The character that a letter after a backslash stands for. -/
def escaped? (c : Char) : Option Char :=
  if c = '"' then some '"'
  else if c = '\\' then some '\\'
  else if c = '/' then some '/'
  else if c = 'b' then some '\x08'
  else if c = 'f' then some '\x0c'
  else if c = 'n' then some '\n'
  else if c = 'r' then some '\r'
  else if c = 't' then some '\t'
  else none

/-- The token of a string whose pieces stand in reverse. -/
def textToken (pieces : List Piece) : Token :=
  .text ((Piece.characters? pieces.reverse).map String.ofList)

/-- The lexer's next state; `tokens` stand in reverse. -/
def step (tokens : List Token) (mode : Mode) (c : Char) : Option (List Token × Mode) :=
  match mode with
  | .between => some (stepBetween tokens c)
  | .word soFar =>
    if isBlank c || c = '"' || (mark? c).isSome then
      match ofWord? soFar.reverse with
      | some value => some (stepBetween (.leaf value :: tokens) c)
      | none => none
    else some (tokens, .word (c :: soFar))
  | .text soFar =>
    if c = '"' then some (textToken soFar :: tokens, .between)
    else if c = '\\' then some (tokens, .escape soFar)
    else if c.toNat < 32 then none
    else some (tokens, .text (.char c :: soFar))
  | .escape soFar =>
    if c = 'u' then some (tokens, .code soFar 4 0)
    else (escaped? c).map fun e => (tokens, .text (.char e :: soFar))
  | .code soFar missing value =>
    match Numeral.digitValue? 16 c with
    | none => none
    | some d =>
      let value := value * 16 + d
      if missing ≤ 1 then some (tokens, .text (.ofCode value :: soFar))
      else some (tokens, .code soFar (missing - 1) value)

/-- Reads on from a state to the end of the text. -/
def lexFrom (tokens : List Token) (mode : Mode) : List Char → Option (List Token)
  | [] =>
    match mode with
    | .between => some tokens.reverse
    | .word soFar => (ofWord? soFar.reverse).map fun value => (Token.leaf value :: tokens).reverse
    | _ => none
  | c :: rest =>
    match step tokens mode c with
    | some (tokens, mode) => lexFrom tokens mode rest
    | none => none

/-- The tokens of a text. -/
def lex (cs : List Char) : Option (List Token) := lexFrom [] .between cs

end EvmInspect.Json
