import EvmInspect.Abi.Value
import EvmInspect.Text.Utf8

/-!
# Decoding ABI data

A lenient decoder: nothing is masked or checked beyond what has to exist. Offsets need
not be aligned and parts may overlap; padding need not be there. A tuple or an array
opens a new frame, from which the offsets inside it count, and frames nest at most
sixteen deep.
-/

namespace EvmInspect.Abi

/-- A place in the data: the frame that offsets count from, what is still to be read,
and how many frames are open around it. -/
structure Cursor where
  frame : Bytes
  rest : Bytes
  depth : Nat

namespace Cursor

/-- How many frames may be open at once. -/
def maxDepth : Nat := 16

/-- The start of the data. -/
def start (data : Bytes) : Cursor := ⟨data, data, 0⟩

/-- The number of whole words that are left. -/
def wordsLeft (c : Cursor) : Nat := c.rest.length / 32

/-- Takes exactly `n` bytes. -/
def take? (c : Cursor) (n : Nat) : Option (Bytes × Cursor) :=
  let bytes := c.rest.take n
  if bytes.length = n then some (bytes, { c with rest := c.rest.drop n }) else none

/-- Takes a word. -/
def word? (c : Cursor) : Option (Word × Cursor) :=
  match c.take? 32 with
  | some (bytes, c) => some (Word.ofBytes bytes, c)
  | none => none

/-- Takes an offset or a length, a word of at most 64 bits. -/
def count? (c : Cursor) : Option (Nat × Cursor) :=
  match c.word? with
  | some (w, c) => if w.toNat < UInt64.size then some (w.toNat, c) else none
  | none => none

/-- Opens a frame at an offset into this one. -/
def frameAt? (c : Cursor) (offset : Nat) : Option Cursor :=
  if c.depth < maxDepth ∧ offset ≤ c.frame.length then
    some ⟨c.frame.drop offset, c.frame.drop offset, c.depth + 1⟩
  else none

/-- Opens a frame where the cursor stands. -/
def frameHere? (c : Cursor) : Option Cursor :=
  if c.depth < maxDepth then some ⟨c.rest, c.rest, c.depth + 1⟩ else none

/-- Takes an offset and opens the frame it points to; gives also the cursor after the offset. -/
def follow? (c : Cursor) : Option (Cursor × Cursor) :=
  match c.count? with
  | none => none
  | some (offset, after) =>
    match after.frameAt? offset with
    | some inside => some (inside, after)
    | none => none

end Cursor

/-- Reads `n` values one after the other. -/
def readTimes {α : Type} (read : Cursor → Option (α × Cursor)) :
    (n : Nat) → Cursor → Option (List α × Cursor)
  | 0, c => some ([], c)
  | n + 1, c =>
    match read c with
    | none => none
    | some (v, c) =>
      match readTimes read n c with
      | some (vs, c) => some (v :: vs, c)
      | none => none

/-- Reads the members of a composite value, inside a frame reached through an offset if
the type is dynamic and otherwise inside one that begins here and is then skipped. -/
def readInFrame {α : Type} (dynamic : Bool) (read : Cursor → Option (α × Cursor)) (c : Cursor) :
    Option (α × Cursor) :=
  if dynamic then
    match c.follow? with
    | none => none
    | some (inside, after) =>
      match read inside with
      | some (v, _) => some (v, after)
      | none => none
  else
    match c.frameHere? with
    | none => none
    | some inside =>
      match read inside with
      | some (v, inside) => some (v, { c with rest := inside.rest })
      | none => none

/-- Reads the length and then the bytes of a byte string. -/
def readBytes (c : Cursor) : Option (Bytes × Cursor) :=
  match c.follow? with
  | none => none
  | some (inside, after) =>
    match inside.count? with
    | none => none
    | some (length, inside) =>
      match inside.take? length with
      | some (bytes, _) => some (bytes, after)
      | none => none

/-- Reads the length of a list and then its items, whose offsets count from behind the
length. A list of types that take no words reads as empty. -/
def readList (elementWords : Nat) (read : Cursor → Option (Value × Cursor)) (c : Cursor) :
    Option (List Value × Cursor) :=
  match c.follow? with
  | none => none
  | some (inside, after) =>
    match inside.count? with
    | none => none
    | some (length, inside) =>
      if length = 0 ∨ elementWords = 0 then some ([], after)
      else
        match inside.frameHere? with
        | none => none
        | some items =>
          if length * elementWords ≤ items.wordsLeft then
            match readTimes read length items with
            | some (values, _) => some (values, after)
            | none => none
          else none

/-- The value of a word type that a word holds: nothing in the word is checked. -/
def ofWord? : Ty → Word → Option Value
  | .uint _, w => some (.uint w)
  | .int _, w => some (.int w)
  | .address, w => some (.address (Address.ofNat w.toNat))
  | .bool, w => some (.bool (w != 0))
  | .fixedBytes n, w => some (.fixedBytes (w.toBytes.take n))
  | .function, w => some (.function (w.toBytes.take 24))
  | _, _ => none

/-- Reads one word as a value of a word type. -/
def readWord (t : Ty) (c : Cursor) : Option (Value × Cursor) :=
  match c.word? with
  | none => none
  | some (w, c) =>
    match ofWord? t w with
    | some v => some (v, c)
    | none => none

mutual

/-- Reads one value of a type. -/
def read : Ty → Cursor → Option (Value × Cursor)
  | .bytes, c =>
    match readBytes c with
    | some (bytes, c) => some (.bytes bytes, c)
    | none => none
  | .string, c =>
    match readBytes c with
    | some (bytes, c) => some (.string (String.ofList (Text.decodeUtf8 bytes)), c)
    | none => none
  | .array t, c =>
    match readList t.minWords (read t) c with
    | some (items, c) => some (.array items, c)
    | none => none
  | .fixedArray t n, c =>
    match readInFrame t.isDynamic (readTimes (read t) n) c with
    | some (items, c) => some (.array items, c)
    | none => none
  | .tuple ts, c =>
    match readInFrame (Ty.anyDynamic ts) (readAll ts) c with
    | some (members, c) => some (.tuple members, c)
    | none => none
  | t, c => readWord t c

/-- Reads one value of each type of a list. -/
def readAll : List Ty → Cursor → Option (List Value × Cursor)
  | [], c => some ([], c)
  | t :: ts, c =>
    match read t c with
    | none => none
    | some (v, c) =>
      match readAll ts c with
      | some (vs, c) => some (v :: vs, c)
      | none => none

end

/-- The one value of a type that takes no bytes. -/
def emptyValue : Ty → Value
  | .tuple _ => .tuple []
  | _ => .array []

/-- Reads parameters from a cursor. One that takes no bytes reads nothing; before any
other, the words that it takes at least have to be there. -/
def readParams : List Ty → Cursor → Option (List Value)
  | [], _ => some []
  | t :: ts, c =>
    if t.isEmpty then (readParams ts c).map (emptyValue t :: ·)
    else if t.minWords ≤ c.wordsLeft then
      match read t c with
      | some (v, c) => (readParams ts c).map (v :: ·)
      | none => none
    else none

/-- The values of parameters, from the data of a call or of its answer. -/
def decodeParams (types : List Ty) (data : Bytes) : Option (List Value) :=
  readParams types (.start data)

/-- The values of the parameters that an event keeps in its data. -/
def decodeBody (types : List Ty) (data : Bytes) : Option (List Value) :=
  if Ty.allEmpty types then some []
  else if Ty.minWordsAll types ≤ (Cursor.start data).wordsLeft then
    (readAll types (.start data)).map Prod.fst
  else none

/-- The value that a topic holds: a word type is read from it, of any other type only the
hash is there. -/
def ofTopic (t : Ty) (topic : Hash) : Value :=
  match ofWord? t topic.toWord with
  | some v => v
  | none => .fixedBytes topic.bytes

end EvmInspect.Abi
