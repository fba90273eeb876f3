import EvmInspect.Command.Usage

/-!
# The command line of the program

Options that concern the whole program may stand before the command or after it; what
stands after counts. One command decodes a recorded execution, the other loads an account
through a node.
-/

namespace EvmInspect.Command

/-- What `decode` is told. -/
structure DecodeOptions where
  result : String
  abi : List String
  chainId : Option UInt64
  json : Bool
deriving DecidableEq

/-- What `account` is told. -/
structure AccountOptions where
  address : String
  slots : List String
  url : Option String
  block : Option UInt64
  json : Bool
deriving DecidableEq

/-- What the program is to do. -/
inductive Job where
  | decode (options : DecodeOptions)
  | account (options : AccountOptions)
deriving DecidableEq

/-- A command line that can be run. -/
structure Line where
  settingsPath : Option String
  logLevel : LogLevel
  logColor : LogColor
  job : Job
deriving DecidableEq

namespace Line

/-- The options of the whole program. -/
def everywhere : List Choice := [
  ⟨"config", some .path, false⟩,
  ⟨"log.level", some .level, false⟩,
  ⟨"log.color", some .color, false⟩]

/-- The level before the command. -/
def outer : Level := ⟨everywhere, ["decode", "account", "help"], true⟩

def decodeLevel : Level where
  choices := everywhere ++ [
    ⟨"result", some .path, false⟩,
    ⟨"abi", some .text, true⟩,
    ⟨"chain-id", some .number, false⟩,
    ⟨"json", none, false⟩]
  commands := []
  hasVersion := false

def accountLevel : Level where
  choices := everywhere ++ [
    ⟨"address", some .text, false⟩,
    ⟨"slot", some .text, true⟩,
    ⟨"rpc-url", some .text, false⟩,
    ⟨"block", some .number, false⟩,
    ⟨"json", none, false⟩]
  commands := []
  hasVersion := false

/-- Reads the level after a command, to the end of the line. -/
def readInner (level : Level) (arguments : List String) : Except UsageError Given := do
  let (r, _) ← level.readFrom {} arguments
  return (← r.settle).given

/-- The value of an option that has to be there. -/
def needed (given : Given) (name : String) : Except UsageError String :=
  match given.value? name with
  | some value => .ok value
  | none => .error .optionMissing

/-- Reads what `decode` is told. -/
def readDecode (given : Given) : Except UsageError Job := do
  return .decode {
    result := ← needed given "result"
    abi := given.values "abi"
    chainId := (given.value? "chain-id").bind number?
    json := given.has "json" }

/-- Reads what `account` is told. -/
def readAccount (given : Given) : Except UsageError Job := do
  return .account {
    address := ← needed given "address"
    slots := given.values "slot"
    url := given.value? "rpc-url"
    block := (given.value? "block").bind number?
    json := given.has "json" }

/-- The level that a command opens and what it is read as; `help` opens none. -/
def inner? (name : String) : Option (Level × (Given → Except UsageError Job)) :=
  if name = "decode" then some (decodeLevel, readDecode)
  else if name = "account" then some (accountLevel, readAccount)
  else none

/-- What comes of asking for help on a command by its name, or on the program. -/
def help : List String → UsageError
  | [] => .helpWanted
  | [name] => if outer.commands.contains name then .helpWanted else .commandUnknown
  | _ => .commandUnknown

/-- The line of the options before the command, and of the job with those after its command. -/
def combine (before after : Given) (job : Job) : Line :=
  let value (name : String) : Option String := (after.value? name).or (before.value? name)
  { settingsPath := value "config"
    logLevel := ((value "log.level").bind LogLevel.ofText?).getD .info
    logColor := ((value "log.color").bind LogColor.ofText?).getD .auto
    job }

/-- Reads a command line. The part after the command is read to its end before the last
option in front of it is settled. -/
def read (arguments : List String) : Except UsageError Line := do
  match ← outer.readFrom {} arguments with
  | (r, none) =>
    let r ← r.settle
    throw (if r.given.isEmpty then .nothingGiven else .commandMissing)
  | (r, some (name, rest)) =>
    match inner? name with
    | none => throw (help rest)
    | some (level, build) =>
      let after ← readInner level rest
      let job ← build after
      let r ← r.settle
      return combine r.given after job

end Line

end EvmInspect.Command
