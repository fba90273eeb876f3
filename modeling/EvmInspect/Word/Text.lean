import EvmInspect.Bytes.Hex
import EvmInspect.Text.Numeral
import EvmInspect.Text.Quoted
import EvmInspect.Word

/-!
# Words as text

A word is written in hexadecimal with no more digits than it needs. It is read from at
most 64 hexadecimal digits, or from a decimal numeral of any length whose value fits.
No digits at all stand for zero.
-/

namespace EvmInspect

/-- Why a text is no word. -/
inductive WordError where
  /-- More than 64 hexadecimal digits, leading zeros counted. -/
  | tooLong
  | invalidHex (cause : HexError)
deriving DecidableEq

namespace WordError

/-- The wording of the error. -/
def message : WordError → String
  | tooLong => "Invalid string length"
  | invalidHex cause => cause.message

end WordError

namespace Word

/-- The word in hexadecimal, with no more digits than it needs. -/
def hex (w : Word) : String := Numeral.hex w.toNat

/-- Removes one `0x` in front. -/
def stripLowerMark : List Char → List Char
  | '0' :: 'x' :: rest => rest
  | cs => cs

/-- Reads a word from hexadecimal digits; one more `0x` may stand in front of them. -/
def ofHexDigits (cs : List Char) : Except WordError Word :=
  let digits := Hex.utf8 (stripLowerMark cs)
  if 64 < digits.length then .error .tooLong
  else
    match Hex.decodePadded digits with
    | .error cause => .error (.invalidHex cause)
    | .ok bytes => .ok (ofBytes bytes)

/-- Reads a word from decimal digits, of any number. -/
def ofDecimalDigits? (cs : List Char) : Option Word :=
  match Numeral.readDigits 10 count 0 cs with
  | .ok n => some (BitVec.ofNat 256 n)
  | .error _ => none

/-- Reads a storage key: hexadecimal after `0x` or `0X`, otherwise decimal. -/
def storageKey? (text : String) : Option Word :=
  match text.toList with
  | '0' :: 'x' :: digits => (ofHexDigits digits).toOption
  | '0' :: 'X' :: digits => (ofHexDigits digits).toOption
  | digits => ofDecimalDigits? digits

/-- What is said of a text that is no storage key. -/
def storageKeyMessage (text : String) : String := s!"invalid storage key {Text.quoted text}"

end Word

end EvmInspect
