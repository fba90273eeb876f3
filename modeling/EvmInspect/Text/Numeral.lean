/-!
# Numerals

Numbers read from digits with a stated limit. A reading goes from left to right and
stops at the first fault, so a text that grows too large before its first bad digit is
too large, and one whose bad digit comes first is bad.
-/

namespace EvmInspect

/-- Why a text is no unsigned 64-bit number. -/
inductive NumeralError where
  | empty
  | invalidDigit
  | tooLarge
deriving DecidableEq

namespace NumeralError

/-- The wording of the error. -/
def message : NumeralError → String
  | empty => "cannot parse integer from empty string"
  | invalidDigit => "invalid digit found in string"
  | tooLarge => "number too large to fit in target type"

end NumeralError

namespace Numeral

/-- The integers of 64 bits with a sign lie below this number, and not below its negative. -/
def int64Limit : Nat := UInt64.size / 2

/-- From this number on a value rounds to infinity in the 64-bit floating format. -/
def floatLimit : Nat := Nat.pow 2 1024 - Nat.pow 2 970

/-- The value of a character as a digit of the base, letters counting on from ten. -/
def digitValue? (base : Nat) (c : Char) : Option Nat :=
  let n := c.toNat
  let value :=
    if 48 ≤ n ∧ n ≤ 57 then n - 48
    else if 97 ≤ n ∧ n ≤ 122 then n - 87
    else if 65 ≤ n ∧ n ≤ 90 then n - 55
    else base
  if value < base then some value else none

/-- Reads on from the number read so far, which must stay below the limit. -/
def readDigits (base limit : Nat) : (soFar : Nat) → List Char → Except NumeralError Nat
  | soFar, [] => .ok soFar
  | soFar, c :: rest =>
    match digitValue? base c with
    | none => .error .invalidDigit
    | some d =>
      if soFar * base + d < limit then readDigits base limit (soFar * base + d) rest
      else .error .tooLarge

/-- Reads a number below the limit; one `+` may stand in front of its digits. -/
def readUnsigned (base limit : Nat) (cs : List Char) : Except NumeralError Nat :=
  match cs with
  | [] => .error .empty
  | ['+'] => .error .invalidDigit
  | '+' :: rest => readDigits base limit 0 rest
  | cs => readDigits base limit 0 cs

/-- Reads an unsigned 64-bit number in the given base. -/
def readUInt64 (base : Nat) (cs : List Char) : Except NumeralError UInt64 :=
  (readUnsigned base UInt64.size cs).map UInt64.ofNat

/-- A number in lowercase hexadecimal after `0x`, with no more digits than it needs. -/
def hex (n : Nat) : String := String.ofList ('0' :: 'x' :: Nat.toDigits 16 n)

/-- The digits of a decimal text, underscores between them being passed over. -/
def decimalDigits? : (soFar : Nat) → List Char → Option Nat
  | soFar, [] => some soFar
  | soFar, '_' :: rest => decimalDigits? soFar rest
  | soFar, c :: rest =>
    match digitValue? 10 c with
    | none => none
    | some d => decimalDigits? (soFar * 10 + d) rest

/-- A decimal text of any length: at least one digit, and no underscore in front. -/
def natural? (cs : List Char) : Option Nat :=
  let digits :=
    match cs with
    | '+' :: '+' :: _ => cs
    | '+' :: rest => rest
    | cs => cs
  match digits with
  | [] => none
  | '_' :: _ => none
  | digits => decimalDigits? 0 digits

/-- An integer of any size in decimal, with an optional sign. -/
def integer? (text : String) : Option Int :=
  match text.toList with
  | '-' :: '+' :: _ => none
  | '-' :: rest => (natural? rest).map fun n => -(n : Int)
  | cs => (natural? cs).map fun n => (n : Int)

/-- An integer in decimal, with `-` in front of a negative one. -/
def decimal (n : Int) : String :=
  match n with
  | .ofNat n => String.ofList (Nat.toDigits 10 n)
  | .negSucc n => String.ofList ('-' :: Nat.toDigits 10 (n + 1))

end Numeral

end EvmInspect
