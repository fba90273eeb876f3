import EvmInspect.Command.LogStyle

/-!
# Reading a command line

A command line is read from left to right. An option takes the next argument as its
value unless that starts with a dash, or takes what follows an equals sign. An option is
only settled when the next one starts or the line ends: then it has to have a value, not
to be given twice unless it may be, and the value has to be of its kind.
-/

namespace EvmInspect.Command

/-- Why a command line is not run. -/
inductive UsageError where
  /-- Help is asked for. -/
  | helpWanted
  /-- The version is asked for. -/
  | versionWanted
  /-- The line has neither an option nor a command. -/
  | nothingGiven
  | commandMissing
  | commandUnknown
  | optionMissing
  | valueMissing
  /-- The value is not of its option's kind. -/
  | valueBad
  /-- A flag has a value. -/
  | valueUnexpected
  | argumentUnknown
  | argumentRepeated
deriving DecidableEq

/-- What the value of an option has to be. -/
inductive ValueKind where
  | text
  /-- A text that is not empty. -/
  | path
  | number
  | level
  | color
deriving DecidableEq

/-- What a command line may hold under a name after two dashes. -/
structure Choice where
  name : String
  /-- The kind of its value; a flag has none. -/
  kind : Option ValueKind
  mayRepeat : Bool := false

/-- What may stand on one level of a command line: its choices, and the commands that
open the next level. -/
structure Level where
  choices : List Choice
  commands : List String
  /-- Whether the version may be asked for. -/
  hasVersion : Bool

/-- The options settled so far, with their values; a flag has an empty one. -/
abbrev Given := List (String × String)

/-- The value of an option. -/
def Given.value? (given : Given) (name : String) : Option String := given.lookup name

/-- The values of an option that may be repeated, in order. -/
def Given.values (given : Given) (name : String) : List String :=
  (given.filter fun g => g.1 == name).map Prod.snd

def Given.has (given : Given) (name : String) : Bool := given.any fun g => g.1 == name

/-- A number of 64 bits. -/
def number? (value : String) : Option UInt64 := (Numeral.readUInt64 10 value.toList).toOption

/-- Checks a value against its kind. -/
def ValueKind.check (value : String) : ValueKind → Except UsageError Unit
  | text => .ok ()
  | path => if value.isEmpty then .error .valueMissing else .ok ()
  | number => if (number? value).isSome then .ok () else .error .valueBad
  | level => if (LogLevel.ofText? value).isSome then .ok () else .error .valueBad
  | color => if (LogColor.ofText? value).isSome then .ok () else .error .valueBad

/-- How far a level is read: what is settled, and the option that is not settled yet with
its value, if it has one already. -/
structure Reading where
  given : Given := []
  open? : Option (Choice × Option String) := none

namespace Reading

/-- Settles a choice with a value. -/
def settleWith (r : Reading) (choice : Choice) (value : String) : Except UsageError Reading :=
  if !choice.mayRepeat && r.given.has choice.name then .error .argumentRepeated
  else
    match (choice.kind.getD .text).check value with
    | .error e => .error e
    | .ok () => .ok { given := r.given ++ [(choice.name, value)], open? := none }

/-- Settles the option that is open, if there is one. -/
def settle (r : Reading) : Except UsageError Reading :=
  match r.open? with
  | none => .ok r
  | some (_, none) => .error .valueMissing
  | some (choice, some value) => r.settleWith choice value

/-- Whether the next argument may be the value of the open option. -/
def awaitsValue (r : Reading) : Bool :=
  match r.open? with
  | some (_, none) => true
  | _ => false

/-- Starts a choice, with the text after its equals sign if there is one. -/
def begin (r : Reading) (choice : Choice) (attached : Option String) :
    Except UsageError Reading :=
  match choice.kind, attached with
  | none, some _ => .error .valueUnexpected
  | some _, none => do return { (← r.settle) with open? := some (choice, none) }
  | _, attached => do (← r.settle).settleWith choice (attached.getD "")

end Reading

/-- The form of an argument. -/
inductive Argument where
  /-- Two dashes alone: nothing after them is an option. -/
  | endOfOptions
  /-- A name after two dashes, and the text after its equals sign. -/
  | long (name : String) (attached : Option String)
  /-- A letter after one dash. -/
  | short (letter : Char)
  | plain

def Argument.ofText (text : String) : Argument :=
  match text.toList with
  | ['-', '-'] => .endOfOptions
  | '-' :: '-' :: cs =>
    match cs.span (· != '=') with
    | (name, _equals :: value) => .long (String.ofList name) (some (String.ofList value))
    | (name, []) => .long (String.ofList name) none
  | '-' :: letter :: _ => .short letter
  | _ => .plain

namespace Level

/-- Asks for help or the version, once the open option is settled. -/
def ask (r : Reading) (wanted : UsageError) : UsageError :=
  match r.settle with
  | .ok _ => wanted
  | .error e => e

/-- Reads an argument that starts with two dashes. -/
def readLong (level : Level) (r : Reading) (name : String) (attached : Option String) :
    Except UsageError Reading :=
  let wanted :=
    if name = "help" then some UsageError.helpWanted
    else if name = "version" && level.hasVersion then some .versionWanted
    else none
  match wanted with
  | some wanted => .error (if attached.isSome then .valueUnexpected else ask r wanted)
  | none =>
    match level.choices.find? fun choice => choice.name == name with
    | some choice => r.begin choice attached
    | none => .error .argumentUnknown

/-- What is at fault with a letter after one dash, of which there are two that ask for
something. -/
def shortFault (level : Level) (r : Reading) (letter : Char) : UsageError :=
  if letter = 'h' then ask r .helpWanted
  else if letter = 'V' && level.hasVersion then ask r .versionWanted
  else .argumentUnknown

/-- What is at fault with an argument that has no place; `escaped` when it stands after the
end of options. -/
def strayFault (level : Level) (escaped : Bool) (argument : String) : UsageError :=
  if level.commands.isEmpty || (escaped && level.commands.contains argument) then .argumentUnknown
  else .commandUnknown

/-- Reads a level up to its end, or up to a command, which is given with the arguments
after it. -/
def readFrom (level : Level) (r : Reading) :
    List String → Except UsageError (Reading × Option (String × List String))
  | [] => .ok (r, none)
  | argument :: rest =>
    if !r.awaitsValue && level.commands.contains argument then .ok (r, some (argument, rest))
    else
      match Argument.ofText argument with
      | .endOfOptions =>
        match rest with
        | [] => .ok (r, none)
        | stray :: _ => .error (level.strayFault true stray)
      | .long name attached =>
        match level.readLong r name attached with
        | .ok r => readFrom level r rest
        | .error e => .error e
      | .short letter => .error (level.shortFault r letter)
      | .plain =>
        match r.open? with
        | some (choice, none) => readFrom level { r with open? := some (choice, some argument) } rest
        | _ => .error (level.strayFault false argument)

end Level

end EvmInspect.Command
