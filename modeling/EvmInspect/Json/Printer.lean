import EvmInspect.Json.Basic
import EvmInspect.Text.Numeral

/-!
# Writing JSON documents

Two layouts: everything on one line without blanks, or one member to a line with two
spaces for each level. Strings escape the quote, the backslash and the controls only. A
value without a meaning is written as `null`.
-/

namespace EvmInspect.Json

/-- How a character is written inside a string. -/
def writtenChar (c : Char) : List Char :=
  if c = '"' then ['\\', '"']
  else if c = '\\' then ['\\', '\\']
  else if c = '\x08' then ['\\', 'b']
  else if c = '\x0c' then ['\\', 'f']
  else if c = '\n' then ['\\', 'n']
  else if c = '\r' then ['\\', 'r']
  else if c = '\t' then ['\\', 't']
  else if c.toNat < 32 then
    ['\\', 'u', '0', '0', Nat.digitChar (c.toNat / 16), Nat.digitChar (c.toNat % 16)]
  else [c]

/-- A string between quotes. -/
def writtenString (s : String) : List Char := '"' :: s.toList.flatMap writtenChar ++ ['"']

mutual

/-- The document on one line. -/
def compact : Json → List Char
  | null => "null".toList
  | bool b => (if b then "true" else "false").toList
  | integer n => (Numeral.decimal n).toList
  | fraction spelling => spelling.toList
  | string s => writtenString s
  | array items => '[' :: compactItems items ++ [']']
  | object members => '\x7b' :: compactMembers members ++ ['\x7d']
  | unreadable => "null".toList

def compactItems : List Json → List Char
  | [] => []
  | [item] => compact item
  | item :: rest => compact item ++ ',' :: compactItems rest

def compactMembers : List (String × Json) → List Char
  | [] => []
  | [(name, value)] => writtenString name ++ ':' :: compact value
  | (name, value) :: rest => writtenString name ++ ':' :: compact value ++ ',' :: compactMembers rest

end

/-- A new line and its indentation. -/
def newLine (level : Nat) : List Char := '\n' :: List.replicate (2 * level) ' '

mutual

/-- The document with one item or member to a line, at a level of indentation. -/
def prettyAt (level : Nat) : Json → List Char
  | array [] => ['[', ']']
  | array items => '[' :: prettyItems (level + 1) items ++ newLine level ++ [']']
  | object [] => ['\x7b', '\x7d']
  | object members => '\x7b' :: prettyMembers (level + 1) members ++ newLine level ++ ['\x7d']
  | null => "null".toList
  | bool b => (if b then "true" else "false").toList
  | integer n => (Numeral.decimal n).toList
  | fraction spelling => spelling.toList
  | string s => writtenString s
  | unreadable => "null".toList

def prettyItems (level : Nat) : List Json → List Char
  | [] => []
  | [item] => newLine level ++ prettyAt level item
  | item :: rest => newLine level ++ prettyAt level item ++ ',' :: prettyItems level rest

def prettyMembers (level : Nat) : List (String × Json) → List Char
  | [] => []
  | [(name, value)] => newLine level ++ writtenString name ++ ':' :: ' ' :: prettyAt level value
  | (name, value) :: rest =>
    newLine level ++ writtenString name ++ ':' :: ' ' :: prettyAt level value
      ++ ',' :: prettyMembers level rest

end

/-- The document on one line, without blanks. -/
def toText (document : Json) : String := String.ofList document.compact

/-- The document over several lines. -/
def toPrettyText (document : Json) : String := String.ofList (prettyAt 0 document)

end EvmInspect.Json
