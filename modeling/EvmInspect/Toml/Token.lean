import EvmInspect.Text.Numeral

/-!
# The tokens of TOML

The lexer reads one character at a time and carries what it is in the middle of, so it
is a fold over the text. Ends of lines are tokens because they end statements, and
blanks are tokens because brackets that are doubled have to touch; comments leave
nothing behind. A bare word is a run of the characters that keys, numbers, dates and
times are made of, so it takes its meaning only where it stands.
-/

namespace EvmInspect.Toml

inductive Token where
  | newLine
  /-- A run of spaces and tabs. -/
  | gap (blanks : List Char)
  | word (cs : List Char)
  /-- A string; whether it stands between single marks, as a key has to. -/
  | text (value : String) (single : Bool)
  | openBracket
  | closeBracket
  | openBrace
  | closeBrace
  | comma
  | equals

/-- The two kinds of string: one with escapes and one without. -/
inductive Quote where
  | escaping
  | verbatim
deriving DecidableEq

def Quote.mark : Quote → Char
  | escaping => '"'
  | verbatim => '\''

/-- What the lexer is in the middle of; characters read so far stand in reverse. -/
inductive Mode where
  | between
  | gap (soFar : List Char)
  | word (soFar : List Char)
  | comment
  /-- After one quotation mark. -/
  | opened (q : Quote)
  /-- After two: an empty string, or two thirds of the mark of a block. -/
  | openedTwice (q : Quote)
  /-- In a string on one line. -/
  | line (q : Quote) (soFar : List Char)
  /-- At the start of a block, where the end of a line does not count. -/
  | blockStart (q : Quote)
  /-- In a string over several lines, after so many quotation marks in a row. -/
  | block (q : Quote) (soFar : List Char) (marks : Nat)
  /-- After a backslash, in a block or in a string on one line. -/
  | escape (inBlock : Bool) (soFar : List Char)
  /-- In the digits of a code. -/
  | code (inBlock : Bool) (soFar : List Char) (missing value : Nat)
  /-- After a backslash and blanks in a block, where the line has to end. -/
  | fold (soFar : List Char)
  /-- After the end of that line: blanks and ends of lines do not count. -/
  | folded (soFar : List Char)

/-- Every end of a line as one character. -/
def joinLineEnds : List Char → List Char
  | '\r' :: '\n' :: rest => '\n' :: joinLineEnds rest
  | c :: rest => c :: joinLineEnds rest
  | [] => []

def isGap (c : Char) : Bool := c == ' ' || c == '\t'

/-- Whether a character may stand in a comment or in a string: no control but the tab. -/
def isPlain (c : Char) : Bool := c == '\t' || (32 ≤ c.toNat && c.toNat != 127)

/-- Whether a character may stand in a bare word. -/
def isWordChar (c : Char) : Bool :=
  c.isAlphanum || c == '_' || c == '-' || c == '+' || c == '.' || c == ':'

/-- The token of a mark of its own. -/
def mark? (c : Char) : Option Token :=
  if c = '\n' then some .newLine
  else if c = '[' then some .openBracket
  else if c = ']' then some .closeBracket
  else if c = '\x7b' then some .openBrace
  else if c = '\x7d' then some .closeBrace
  else if c = ',' then some .comma
  else if c = '=' then some .equals
  else none

/-- The lexer's next state when it is in the middle of nothing. -/
def stepBetween (tokens : List Token) (c : Char) : Option (List Token × Mode) :=
  if isGap c then some (tokens, .gap [c])
  else if c = '#' then some (tokens, .comment)
  else if c = '"' then some (tokens, .opened .escaping)
  else if c = '\'' then some (tokens, .opened .verbatim)
  else if isWordChar c then some (tokens, .word [c])
  else (mark? c).map fun token => (token :: tokens, .between)

def textToken (soFar : List Char) (single : Bool) : Token :=
  .text (String.ofList soFar.reverse) single

/-- Goes on in a string, in a block or on one line, after an escape. -/
def resume (inBlock : Bool) (soFar : List Char) : Mode :=
  if inBlock then .block .escaping soFar 0 else .line .escaping soFar

/-- The next state in a block. Three marks in a row end it, and one or two more before
them belong to the text. -/
def stepBlock (tokens : List Token) (q : Quote) (soFar : List Char) (marks : Nat) (c : Char) :
    Option (List Token × Mode) :=
  if c = q.mark then
    if marks < 5 then some (tokens, .block q soFar (marks + 1)) else none
  else if 3 ≤ marks then
    stepBetween (textToken (List.replicate (marks - 3) q.mark ++ soFar) false :: tokens) c
  else
    let soFar := List.replicate marks q.mark ++ soFar
    if c = '\\' && q = .escaping then some (tokens, .escape true soFar)
    else if c = '\n' || isPlain c then some (tokens, .block q (c :: soFar) 0)
    else none

/-- The character that a letter after a backslash stands for. -/
def escaped? (c : Char) : Option Char :=
  if c = '"' then some '"'
  else if c = '\\' then some '\\'
  else if c = 'b' then some '\x08'
  else if c = 'f' then some '\x0c'
  else if c = 'n' then some '\n'
  else if c = 'r' then some '\r'
  else if c = 't' then some '\t'
  else none

/-- The character of a code, if it is the code of one. -/
def charOfCode? (code : Nat) : Option Char :=
  if code.isValidChar then some (Char.ofNat code) else none

/-- The lexer's next state; `tokens` stand in reverse. -/
def step (tokens : List Token) (mode : Mode) (c : Char) : Option (List Token × Mode) :=
  match mode with
  | .between => stepBetween tokens c
  | .gap soFar =>
    if isGap c then some (tokens, .gap (c :: soFar))
    else stepBetween (.gap soFar.reverse :: tokens) c
  | .word soFar =>
    if isWordChar c then some (tokens, .word (c :: soFar))
    else stepBetween (.word soFar.reverse :: tokens) c
  | .comment =>
    if c = '\n' then some (.newLine :: tokens, .between)
    else if isPlain c then some (tokens, .comment)
    else none
  | .opened q =>
    if c = q.mark then some (tokens, .openedTwice q)
    else if c = '\\' && q = .escaping then some (tokens, .escape false [])
    else if isPlain c then some (tokens, .line q [c])
    else none
  | .openedTwice q =>
    if c = q.mark then some (tokens, .blockStart q)
    else stepBetween (textToken [] true :: tokens) c
  | .line q soFar =>
    if c = q.mark then some (textToken soFar true :: tokens, .between)
    else if c = '\\' && q = .escaping then some (tokens, .escape false soFar)
    else if isPlain c then some (tokens, .line q (c :: soFar))
    else none
  | .blockStart q =>
    if c = '\n' then some (tokens, .block q [] 0) else stepBlock tokens q [] 0 c
  | .block q soFar marks => stepBlock tokens q soFar marks c
  | .escape inBlock soFar =>
    if c = 'u' then some (tokens, .code inBlock soFar 4 0)
    else if c = 'U' then some (tokens, .code inBlock soFar 8 0)
    else if inBlock && isGap c then some (tokens, .fold soFar)
    else if inBlock && c = '\n' then some (tokens, .folded soFar)
    else (escaped? c).map fun e => (tokens, resume inBlock (e :: soFar))
  | .code inBlock soFar missing value =>
    match Numeral.digitValue? 16 c with
    | none => none
    | some d =>
      let value := value * 16 + d
      if missing ≤ 1 then (charOfCode? value).map fun e => (tokens, resume inBlock (e :: soFar))
      else some (tokens, .code inBlock soFar (missing - 1) value)
  | .fold soFar =>
    if isGap c then some (tokens, .fold soFar)
    else if c = '\n' then some (tokens, .folded soFar)
    else none
  | .folded soFar =>
    if isGap c || c = '\n' then some (tokens, .folded soFar)
    else stepBlock tokens .escaping soFar 0 c

/-- What is left to say when the text ends. -/
def finish (tokens : List Token) : Mode → Option (List Token)
  | .between => some tokens
  | .gap soFar => some (.gap soFar.reverse :: tokens)
  | .word soFar => some (.word soFar.reverse :: tokens)
  | .comment => some tokens
  | .openedTwice _ => some (textToken [] true :: tokens)
  | .block q soFar marks =>
    if 3 ≤ marks then some (textToken (List.replicate (marks - 3) q.mark ++ soFar) false :: tokens)
    else none
  | _ => none

/-- Reads on from a state to the end of the text. -/
def lexFrom (tokens : List Token) (mode : Mode) : List Char → Option (List Token)
  | [] => (finish tokens mode).map List.reverse
  | c :: rest =>
    match step tokens mode c with
    | some (tokens, mode) => lexFrom tokens mode rest
    | none => none

/-- The tokens of a text. A byte order mark in front does not count. -/
def lex (cs : List Char) : Option (List Token) :=
  let cs := joinLineEnds cs
  match cs with
  | '\ufeff' :: rest => lexFrom [] .between rest
  | cs => lexFrom [] .between cs

end EvmInspect.Toml
