import EvmInspect.Bytes.Hex
import EvmInspect.Json.Basic
import EvmInspect.Word

/-!
# Reading values out of JSON

A reader takes a document to a value or refuses it. A record may be written as an object
or as the list of its fields in order; unknown members are passed over, a repeated field
is refused, and a field that is missing takes its default if it has one.
-/

namespace EvmInspect.Json

/-- A reader of values of a type. -/
abbrev Reader (α : Type) := Json → Option α

/-- The one member of a name, if any: `none` when the name is repeated. -/
def field? (members : List (String × Json)) (name : String) : Option (Option Json) :=
  match members.filter fun m => m.1 == name with
  | [] => some none
  | [m] => some (some m.2)
  | _ => none

/-- The fields of a record that is written as an object. -/
def objectFields (names : List String) : Reader (List (Option Json))
  | object members => names.mapM (field? members)
  | _ => none

/-- The fields of a record, in the order of their names. -/
def fields (names : List String) : Reader (List (Option Json))
  | object members => names.mapM (field? members)
  | array items =>
    if items.length ≤ names.length then
      some (items.map some ++ List.replicate (names.length - items.length) none)
    else none
  | _ => none

/-- The document with at most so many items, if it is a list. -/
def leading (count : Nat) : Json → Json
  | array items => array (items.take count)
  | document => document

/-- A field that has to be there. -/
def required {α : Type} (read : Reader α) : Option Json → Option α
  | some document => read document
  | none => none

/-- A field with a default for when it is missing. -/
def withDefault {α : Type} (default : α) (read : Reader α) : Option Json → Option α
  | some document => read document
  | none => some default

/-- A value that may be null. -/
def nullable {α : Type} (read : Reader α) : Reader (Option α)
  | null => some none
  | document => (read document).map some

/-- A field that may be missing or null. -/
def optional {α : Type} (read : Reader α) : Option Json → Option (Option α) :=
  withDefault none (nullable read)

def readBool : Reader Bool
  | bool b => some b
  | _ => none

def readString : Reader String
  | string s => some s
  | _ => none

/-- The name of a case: a string, or an object with the name as its one member and null
for what the case holds. -/
def readCase : Reader String
  | string name => some name
  | object [(name, null)] => some name
  | _ => none

/-- The name of a case, where an empty object too says that the case holds nothing. -/
def readOpenCase : Reader String
  | object [(name, object [])] => some name
  | document => readCase document

/-- A natural number below a limit. -/
def readBelow (limit : Nat) : Reader Nat
  | integer (.ofNat n) => if n < limit then some n else none
  | _ => none

def readUInt64 : Reader UInt64 := fun document =>
  (readBelow UInt64.size document).map UInt64.ofNat

/-- A list of values. -/
def readList {α : Type} (read : Reader α) : Reader (List α)
  | array items => items.mapM read
  | _ => none

/-- Bytes in hexadecimal, by the padding rule. -/
def readBytes : Reader Bytes
  | string s => (Hex.decode s).toOption
  | _ => none

/-- Removes one `0x` in front. -/
def bareDigits (s : String) : List Char :=
  match s.toList with
  | '0' :: 'x' :: rest => rest
  | cs => cs

/-- Exactly `size` bytes in hexadecimal, an `0x` in front being optional. -/
def readExactly (size : Nat) : Reader Bytes
  | string s =>
    match Hex.decodeStrict (Hex.utf8 (bareDigits s)) with
    | .ok bytes => if bytes.length = size then some bytes else none
    | .error _ => none
  | _ => none

def readAddress : Reader Address := fun document =>
  (readExactly 20 document).map Address.ofBytes

def readHash : Reader Hash := fun document =>
  (readExactly 32 document).bind Hash.ofBytes?

/-- A word of 1 to 64 hexadecimal digits, an `0x` in front being optional. -/
def readWord : Reader Word
  | string s =>
    let digits := Hex.utf8 (bareDigits s)
    if digits.isEmpty || 64 < digits.length then none
    else (Hex.decodePadded digits).toOption.map Word.ofBytes
  | _ => none

end EvmInspect.Json
