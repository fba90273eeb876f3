import EvmInspect.Bytes.Hex
import EvmInspect.Keccak
import EvmInspect.Text.Blank
import EvmInspect.Text.Quoted

/-!
# Addresses as text

An address is read from forty hexadecimal digits of any case, with blanks around them
and one `0x` or `0X` in front of them allowed. It is written in lowercase, or with the
case of each letter set by a hash of the lowercase form, so that a reader can notice a
mistyped digit.
-/

namespace EvmInspect

/-- Why a text is no address. -/
inductive AddressError where
  | invalidHex (input : String) (cause : HexError)
  /-- The digits are whole bytes, but not twenty of them. -/
  | invalidLength (input : String) (bytes : Nat)
deriving DecidableEq

namespace AddressError

/-- The wording of the error. -/
def message : AddressError → String
  | invalidHex input cause => s!"invalid hex in address {Text.quoted input}: {cause.message}"
  | invalidLength input bytes => s!"address {Text.quoted input} has {bytes} bytes, expected 20"

end AddressError

namespace Address

/-- The digits of an address text: what the blanks and the mark leave, in lowercase. -/
def textDigits (text : String) : List Char :=
  (Hex.stripMark (Text.trim text.toList)).map Char.toLower

/-- Reads an address. -/
def parse (text : String) : Except AddressError Address :=
  match Hex.decodeStrict (Hex.utf8 (textDigits text)) with
  | .error cause => .error (.invalidHex text cause)
  | .ok bytes =>
    if bytes.length = 20 then .ok (Address.ofBytes bytes)
    else .error (.invalidLength text bytes.length)

/-- The address in lowercase after `0x`. -/
def hex (a : Address) : String := Hex.encode a.toBytes

/-- The four-bit digits of a byte string. -/
def nibbles (bs : Bytes) : List Nat := bs.flatMap fun b => [b.toNat / 16, b.toNat % 16]

/-- The digits of an address, a letter being a capital where the hash of the lowercase
digits has a digit of eight or more. -/
def checksumDigits (a : Address) : List Char :=
  let lowercase := Hex.digits a.toBytes
  List.zipWith (fun c n => if 8 ≤ n then c.toUpper else c) lowercase
    (nibbles (Keccak.hash (Hex.utf8 lowercase)).bytes)

/-- The address with its checksum in the case of its letters. -/
def checksum (a : Address) : String := String.ofList ('0' :: 'x' :: a.checksumDigits)

end Address

end EvmInspect
