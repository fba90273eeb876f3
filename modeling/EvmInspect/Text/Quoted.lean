import EvmInspect.Text.Hidden

/-!
# Quoted text

A text between double quotes, or a character between single ones, in which nothing can end
the quotation early or go unseen: the quote and the backslash are escaped, the usual controls
have their letters, and every other hidden character is shown as `\u` with its number in
braces.
-/

namespace EvmInspect.Text

/-- A hidden character shown by its number in lowercase hexadecimal. -/
def byNumber (c : Char) : List Char :=
  ['\\', 'u', '\x7b'] ++ Nat.toDigits 16 c.toNat ++ ['\x7d']

/-- How a character is written between two quotes, of which it may be one. -/
def escapedChar (quote c : Char) : List Char :=
  if c = quote || c = '\\' then ['\\', c]
  else if c = '\n' then ['\\', 'n']
  else if c = '\t' then ['\\', 't']
  else if c = '\r' then ['\\', 'r']
  else if c = '\x00' then ['\\', '0']
  else if isHidden c then byNumber c
  else [c]

/-- The text between double quotes. -/
def quoted (text : String) : String :=
  String.ofList ('"' :: text.toList.flatMap (escapedChar '"') ++ ['"'])

/-- The character between single quotes. -/
def quotedChar (c : Char) : String := String.ofList ('\'' :: escapedChar '\'' c ++ ['\''])

end EvmInspect.Text
