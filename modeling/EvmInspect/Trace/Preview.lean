import EvmInspect.Address.Text
import EvmInspect.Json.Reading
import EvmInspect.Text.Numeral
import EvmInspect.Trace.Decoded

/-!
# Values in one line

How a decoded value is shown in a report: integers in decimal, addresses with their
checksum, and byte strings and texts cut short beyond the limits of a `PreviewConfig`.
-/

namespace EvmInspect.Trace

/-- Beyond which size a value is cut short, and how much of it is then shown. -/
structure PreviewConfig where
  maxInlineBytes : Nat := 32
  bytesPreviewHexChars : Nat := 20
  maxStringChars : Nat := 50
  stringPreviewChars : Nat := 47
deriving DecidableEq, Inhabited

namespace PreviewConfig

open Json in
def read : Reader PreviewConfig := fun document => do
  let standard : PreviewConfig := {}
  let size := readBelow UInt64.size
  let names :=
    ["max_inline_bytes", "bytes_preview_hex_chars", "max_string_chars", "string_preview_chars"]
  match ← fields names document with
  | [inlineBytes, hexChars, stringChars, previewChars] =>
    some {
      maxInlineBytes := ← withDefault standard.maxInlineBytes size inlineBytes
      bytesPreviewHexChars := ← withDefault standard.bytesPreviewHexChars size hexChars
      maxStringChars := ← withDefault standard.maxStringChars size stringChars
      stringPreviewChars := ← withDefault standard.stringPreviewChars size previewChars }
  | _ => none

end PreviewConfig

/-- The first characters of a list, or all of it if it has not so many. -/
def preview (count : Nat) (cs : List Char) : List Char :=
  if count ≤ cs.length then cs.take count else cs

/-- A byte string in hexadecimal. Beyond the limit only the first digits are shown, with
the number of bytes. -/
def showBytes (config : PreviewConfig) (bs : Bytes) : List Char :=
  if bs.length ≤ config.maxInlineBytes then '0' :: 'x' :: Hex.digits bs
  else
    '0' :: 'x' :: preview config.bytesPreviewHexChars (Hex.digits bs)
      ++ "... (".toList ++ Nat.toDigits 10 bs.length ++ " bytes)".toList

/-- A text between quotes. Beyond the limit only the first characters are shown. -/
def showString (config : PreviewConfig) (s : String) : List Char :=
  if config.maxStringChars < s.toList.length then
    '"' :: s.toList.take config.stringPreviewChars ++ ['.', '.', '.', '"']
  else '"' :: s.toList ++ ['"']

/-- Texts with `, ` between them. -/
def joined (texts : List (List Char)) : List Char := Abi.Param.joined [',', ' '] texts

mutual

/-- A value as a report shows it. -/
def showValue (config : PreviewConfig) : Abi.Value → List Char
  | .bool b => (if b then "true" else "false").toList
  | .uint w => (Numeral.decimal w.toNat).toList
  | .int w => (Numeral.decimal w.toInt).toList
  | .address a => a.checksum.toList
  | .fixedBytes bs => showBytes config bs
  | .bytes bs => showBytes config bs
  | .function bs => "Function(0x".toList ++ Hex.digits bs ++ [')']
  | .string s => showString config s
  | .array items => '[' :: joined (showValues config items) ++ [']']
  | .tuple members => '(' :: joined (showValues config members) ++ [')']

def showValues (config : PreviewConfig) : List Abi.Value → List (List Char)
  | [] => []
  | v :: vs => showValue config v :: showValues config vs

end

/-- A parameter: its name, if it has one, and its value. -/
def showParameter (config : PreviewConfig) (p : Parameter) : List Char :=
  if p.name.isEmpty then showValue config p.value
  else p.name.toList ++ ':' :: ' ' :: showValue config p.value

def showParameters (config : PreviewConfig) (ps : List Parameter) : List Char :=
  joined (ps.map (showParameter config))

end EvmInspect.Trace
