import EvmInspect.Bytes.BigEndian
import EvmInspect.Text.Quoted

/-!
# Hexadecimal text of bytes

Bytes are written as two lowercase digits each after `0x`. Reading takes digits of
either case; what is read is the UTF-8 form of a text, so a position counts bytes
and a character outside ASCII is reported by its first bad byte. The strict reader
wants whole bytes; the padding reader puts one `0` in front of an odd number of
digits, and that zero counts as position 0.
-/

namespace EvmInspect

/-- Why a text is not hexadecimal bytes. -/
inductive HexError where
  /-- The digits do not pair up to whole bytes. -/
  | oddLength
  /-- A byte of the text, shown as the character with its code, is no digit. -/
  | invalidCharacter (found : Char) (position : Nat)
deriving DecidableEq

namespace HexError

/-- The wording of the error. -/
def message : HexError → String
  | oddLength => "Odd number of digits"
  | invalidCharacter found position =>
    s!"Invalid character {Text.quotedChar found} at position {position}"

end HexError

namespace Hex

/-- The UTF-8 form of a text. -/
def utf8 (cs : List Char) : Bytes := cs.flatMap String.utf8EncodeChar

/-- The lowercase digit of a value below 16. -/
def digit (n : Nat) : Char :=
  if n < 10 then Char.ofNat (48 + n) else Char.ofNat (87 + n)

/-- The value of a digit, of either case. -/
def digitValue? (code : Nat) : Option Nat :=
  if 48 ≤ code ∧ code ≤ 57 then some (code - 48)
  else if 97 ≤ code ∧ code ≤ 102 then some (code - 87)
  else if 65 ≤ code ∧ code ≤ 70 then some (code - 55)
  else none

/-- Two lowercase digits for each byte. -/
def digits (bs : Bytes) : List Char :=
  bs.flatMap fun b => [digit (b.toNat / 16), digit (b.toNat % 16)]

/-- The written form of a byte string: `0x` and its digits. -/
def encode (bs : Bytes) : String := String.ofList ('0' :: 'x' :: digits bs)

/-- Removes one `0x` or `0X` in front. -/
def stripMark : List Char → List Char
  | '0' :: 'x' :: rest => rest
  | '0' :: 'X' :: rest => rest
  | cs => cs

/-- The value of the digit at a position, or the error that names it. -/
def nibble (position : Nat) (b : UInt8) : Except HexError Nat :=
  match digitValue? b.toNat with
  | some n => .ok n
  | none => .error (.invalidCharacter (Char.ofNat b.toNat) position)

/-- Reads pairs of digits from left to right. -/
def decodePairs (position : Nat) : Bytes → Except HexError Bytes
  | high :: low :: rest =>
    match nibble position high with
    | .error e => .error e
    | .ok h =>
      match nibble (position + 1) low with
      | .error e => .error e
      | .ok l =>
        match decodePairs (position + 2) rest with
        | .error e => .error e
        | .ok bs => .ok (UInt8.ofNat (h * 16 + l) :: bs)
  | [] => .ok []
  | [_] => .error .oddLength

/-- Reads whole bytes; an odd number of digits fails before any digit is looked at. -/
def decodeStrict (text : Bytes) : Except HexError Bytes :=
  if text.length % 2 = 1 then .error .oddLength else decodePairs 0 text

/-- Reads digits of any number, an odd number standing for one more `0` in front. -/
def decodePadded (text : Bytes) : Except HexError Bytes :=
  decodePairs 0 (if text.length % 2 = 1 then 48 :: text else text)

/-- Reads a byte string with an optional mark in front. -/
def decode (text : String) : Except HexError Bytes :=
  decodePadded (utf8 (stripMark text.toList))

end Hex

end EvmInspect
