import EvmInspect.Bytes.Hex
import EvmInspect.Text.Composition
import EvmInspect.Text.Direction
import EvmInspect.Text.Joiner
import EvmInspect.Text.Utf8
import EvmInspect.Url.Punycode
import EvmInspect.Url.Spelling

/-!
# Domains

The name of a domain consists of labels with dots between them. It is read with its
percent-encoded bytes decoded, each character as what it stands for, and all of them
composed. A label that begins with `xn--` is written with letters and digits and is read
as what it writes, which has to be a label in the form in which labels are written.
-/

namespace EvmInspect.Url

open Text (splitOnChar)

/-- The bytes of a text with percent-encoded bytes decoded; a percent sign without two
digits stands for itself. -/
def percentDecoded : Bytes → Bytes
  | b :: high :: low :: rest =>
    if b.toNat = 37 then
      match Hex.digitValue? high.toNat, Hex.digitValue? low.toNat with
      | some h, some l => UInt8.ofNat (h * 16 + l) :: percentDecoded rest
      | _, _ => b :: percentDecoded (high :: low :: rest)
    else b :: percentDecoded (high :: low :: rest)
  | b :: rest => b :: percentDecoded rest
  | [] => []

def isAscii (cs : List Char) : Bool := cs.all (·.toNat < 128)

/-- How many characters a label may have that is not all ASCII. -/
def maxLabel : Nat := 1000

/-- How long the written form of a label may be, without what it begins with. -/
def maxWritten : Nat := 2000

/-- Whether characters make a label: none is denied, the first is no mark, and joiners
stand where they may. A label may be empty. -/
def isLabel (label : List Char) : Bool :=
  !label.any isDenied && !label.head?.any Text.isMark && Text.joinersFit [] label &&
    (isAscii label || label.length ≤ maxLabel)

/-- What a written label begins with. -/
def writtenMark : List Char := "xn--".toList

/-- The label that is written after `xn--`. It may not stand for ASCII alone, so what is
written does not end with a hyphen. -/
def readWritten? (written : List Char) : Option (List Char) :=
  if !isAscii written || written.isEmpty || written.getLast? = some '-'
      || maxWritten < written.length then none
  else
    match Punycode.decode? written with
    | none => none
    | some label =>
      if label.all isPlain && Text.composed label = label && isLabel label then some label
      else none

/-- A label as it is read. -/
def readLabel? (label : List Char) : Option (List Char) :=
  if writtenMark.isPrefixOf label then readWritten? (label.drop writtenMark.length)
  else if isLabel label then some label
  else none

/-- A domain as it is read. -/
def readDomain? (cs : List Char) : Option (List Char) := do
  let spelled ← (Text.decodeUtf8 (percentDecoded (Hex.utf8 cs))).mapM spelling?
  let labels ← (splitOnChar '.' (Text.composed spelled.flatten)).mapM readLabel?
  if Text.keepDirections labels then some (['.'].intercalate labels) else none

end EvmInspect.Url
