import EvmInspect.Abi.Value
import EvmInspect.Bytes.Hex

/-!
# Encoding ABI data

The standard layout: the values of a frame stand one after the other, and a value of
dynamic type is replaced by the offset of its encoding, which follows the last of them.
Byte strings are filled up with zeros to whole words.
-/

namespace EvmInspect.Abi

/-- The word of a number, modulo 2^256. -/
def wordOf (n : Nat) : Bytes := BigEndian.numeral 32 n

/-- Bytes with zeros after them up to a whole number of words. -/
def padRight (bs : Bytes) : Bytes := bs ++ List.replicate ((32 - bs.length % 32) % 32) 0

/-- A length and the bytes it counts. -/
def encodeBytes (bs : Bytes) : Bytes := wordOf bs.length ++ padRight bs

/-- The encodings of the values of a frame, each with whether it is reached through an
offset; `offset` is where the next encoding behind the heads will stand. -/
def layOut : (offset : Nat) → List (Bool × Bytes) → Bytes × Bytes
  | _, [] => ([], [])
  | offset, (dynamic, encoding) :: rest =>
    if dynamic then
      let (heads, tails) := layOut (offset + encoding.length) rest
      (wordOf offset ++ heads, encoding ++ tails)
    else
      let (heads, tails) := layOut offset rest
      (encoding ++ heads, tails)

/-- The bytes that the heads of a frame take. -/
def headsLength : List (Bool × Bytes) → Nat
  | [] => 0
  | (dynamic, encoding) :: rest => (if dynamic then 32 else encoding.length) + headsLength rest

/-- A frame: the heads of its values, then the encodings that the offsets point to. -/
def encodeFrame (parts : List (Bool × Bytes)) : Bytes :=
  let (heads, tails) := layOut (headsLength parts) parts
  heads ++ tails

/-- The word of a value of a word type. -/
def encodeWord : Value → Bytes
  | .uint w => w.toBytes
  | .int w => w.toBytes
  | .address a => wordOf a.toNat
  | .bool b => wordOf (if b then 1 else 0)
  | .fixedBytes bs => padRight bs
  | .function bs => padRight bs
  | _ => []

mutual

/-- The encoding of a value of a type. -/
def encode : Ty → Value → Bytes
  | .bytes, .bytes bs => encodeBytes bs
  | .string, .string s => encodeBytes (Hex.utf8 s.toList)
  | .array t, .array vs =>
    wordOf vs.length ++ encodeFrame (vs.map fun v => (t.isDynamic, encode t v))
  | .fixedArray t _, .array vs => encodeFrame (vs.map fun v => (t.isDynamic, encode t v))
  | .tuple ts, .tuple vs => encodeFrame (encodeParts ts vs)
  | _, v => encodeWord v

/-- The encodings of values of a list of types. -/
def encodeParts : List Ty → List Value → List (Bool × Bytes)
  | t :: ts, v :: vs => (t.isDynamic, encode t v) :: encodeParts ts vs
  | _, _ => []

end

/-- The encoding of parameters, as a call or its answer carries them. -/
def encodeParams (types : List Ty) (values : List Value) : Bytes :=
  encodeFrame (encodeParts types values)

end EvmInspect.Abi
