import EvmInspect.Toml.Scalar
import EvmInspect.Toml.Table
import EvmInspect.Toml.Token

/-!
# Reading TOML

A TOML text is a sequence of statements, one to a line: a header opens a table, and a key
gives a value to a name in the table that is open. The text is read into the documents
of JSON, so that one set of readers serves both formats. Values may nest 79 deep, and a
key may have 79 parts.
-/

namespace EvmInspect.Toml

/-- A reader takes something off the front of the tokens and leaves the rest. -/
abbrev Reading (α : Type) := List Token → Option (α × List Token)

/-- The limit that the depth of values and the length of keys stay below. -/
def nestingLimit : Nat := 80

/-- The tokens after a gap in front. -/
def skipGap : List Token → List Token
  | .gap _ :: rest => rest
  | tokens => tokens

/-- The tokens after gaps and ends of lines in front. -/
def skipLines : List Token → List Token
  | .gap _ :: rest => skipLines rest
  | .newLine :: rest => skipLines rest
  | tokens => tokens

/-! ## Keys -/

/-- A part of a key: a name, or the dot between two. -/
inductive KeyPart where
  | name (name : String)
  | dot

def isNameChar (c : Char) : Bool := c.isAlphanum || c == '_' || c == '-'

/-- The parts of a bare word; a name so far stands in reverse. -/
def wordParts (soFar : List Char) : List Char → Option (List KeyPart)
  | [] => some (if soFar.isEmpty then [] else [.name (String.ofList soFar.reverse)])
  | c :: rest =>
    if c = '.' then
      (wordParts [] rest).map fun parts =>
        if soFar.isEmpty then .dot :: parts
        else .name (String.ofList soFar.reverse) :: .dot :: parts
    else if isNameChar c then wordParts (c :: soFar) rest
    else none

/-- The parts of a key, up to a token that is in no key. -/
def keyParts : Reading (List KeyPart)
  | .gap _ :: rest => keyParts rest
  | .word cs :: rest => do
    let front ← wordParts [] cs
    let (parts, rest) ← keyParts rest
    return (front ++ parts, rest)
  | .text s true :: rest => do
    let (parts, rest) ← keyParts rest
    return (.name s :: parts, rest)
  | rest => some ([], rest)

/-- The names of a key: names with a dot between any two. -/
def pathOf : List KeyPart → Option (List String)
  | [.name s] => some [s]
  | .name s :: .dot :: rest => (pathOf rest).map (s :: ·)
  | _ => none

/-- A key: the names that lead to its table, and its own. -/
def key : Reading (List String × String) := fun tokens => do
  let (parts, rest) ← keyParts tokens
  let path ← pathOf parts
  let name ← path.getLast?
  if path.length < nestingLimit then some ((path.dropLast, name), rest) else none

/-! ## Values -/

/-- The items of an array up to its end, over any number of lines. -/
def arrayItems (item : Reading Json) (tokens : List Token) : Option (List Json × List Token) :=
  match skipLines tokens with
  | .closeBracket :: rest => some ([], rest)
  | front =>
    match item front with
    | none => none
    | some (v, rest) =>
      match skipLines rest with
      | .closeBracket :: rest => some ([v], rest)
      | .comma :: rest =>
        if _shorter : rest.length < tokens.length then
          (arrayItems item rest).map fun (items, rest) => (v :: items, rest)
        else none
      | _ => none
termination_by tokens.length

/-- The members of an inline table up to its end, on one line, added to those so far. -/
def inlineMembers (value : Reading Json) (soFar : Table) (tokens : List Token) :
    Option (Table × List Token) :=
  match key tokens with
  | some ((path, name), .equals :: rest) =>
    match value (skipGap rest) with
    | none => none
    | some (v, rest) =>
      match soFar.assign path name v with
      | none => none
      | some soFar =>
        match skipGap rest with
        | .closeBrace :: rest => some (soFar, rest)
        | .comma :: rest =>
          if _shorter : rest.length < tokens.length then inlineMembers value soFar rest else none
        | _ => none
  | _ => none
termination_by tokens.length

/-- An inline table after the brace that opens it. -/
def inlineTable (value : Reading Json) : Reading Json := fun tokens =>
  match skipGap tokens with
  | .closeBrace :: rest => some (.object [], rest)
  | front => (inlineMembers value (.empty .header) front).map fun (t, rest) => (t.document, rest)

/-- A value that holds no others. A date and a time may stand apart by one space. -/
def simpleValue : Reading Json
  | .text s _ :: rest => some (.string s, rest)
  | .word date :: .gap [' '] :: .word time :: rest =>
    match (scalar? (date ++ ' ' :: time)) with
    | some v => some (v, rest)
    | none => none
  | .word cs :: rest => (scalar? cs).map fun v => (v, rest)
  | _ => none

/-- A value in which others may nest so deep. -/
def value : (depth : Nat) → Reading Json
  | depth + 1, .openBracket :: rest =>
    (arrayItems (value depth) rest).map fun (items, rest) => (.array items, rest)
  | depth + 1, .openBrace :: rest => inlineTable (value depth) rest
  | _, tokens => simpleValue tokens

/-! ## Statements -/

inductive Statement where
  /-- A key and its value. -/
  | assign (path : List String) (name : String) (v : Json)
  /-- The header of a table. -/
  | openTable (path : List String) (name : String)
  /-- The header of one more table in a row. -/
  | openInRow (path : List String) (name : String)

def statement : Reading Statement
  | .openBracket :: .openBracket :: rest =>
    match key rest with
    | some ((path, name), .closeBracket :: .closeBracket :: rest) =>
      some (.openInRow path name, rest)
    | _ => none
  | .openBracket :: rest =>
    match key rest with
    | some ((path, name), .closeBracket :: rest) => some (.openTable path name, rest)
    | _ => none
  | tokens =>
    match key tokens with
    | some ((path, name), .equals :: rest) =>
      (value (nestingLimit - 1) (skipGap rest)).map fun (v, rest) => (.assign path name v, rest)
    | _ => none

/-- The statements of a text, each on a line of its own. -/
def statements (tokens : List Token) : Option (List Statement) :=
  match skipLines tokens with
  | [] => some []
  | front =>
    match statement front with
    | none => none
    | some (s, rest) =>
      match skipGap rest with
      | [] => some [s]
      | .newLine :: rest =>
        if _shorter : rest.length < tokens.length then (statements rest).map (s :: ·) else none
      | _ => none
termination_by tokens.length

/-- A document under construction, and the path of the table that is open. -/
abbrev Draft := Table × List String

/-- The draft after one more statement. -/
def Statement.addTo (draft : Draft) : Statement → Option Draft
  | assign path name v =>
    (draft.1.within (Table.assign path name v) draft.2).map fun t => (t, draft.2)
  | openTable path name =>
    (draft.1.within (Table.openTable name) path).map fun t => (t, path ++ [name])
  | openInRow path name =>
    (draft.1.within (Table.openInRow name) path).map fun t => (t, path ++ [name])

/-- Reads a TOML text. -/
def parse? (text : String) : Option Json := do
  let tokens ← lex text.toList
  let steps ← statements tokens
  let (document, _) ← steps.foldlM Statement.addTo ((Table.empty .header, []) : Draft)
  return document.document

end EvmInspect.Toml
