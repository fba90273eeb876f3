import EvmInspect.Ledger.State
import EvmInspect.Node.Client
import EvmInspect.Settings.Basic

/-!
# What a command needs from outside

A command reads files and asks a node; how both are done is left to who runs it, and so
is the monad. Everything else that it does is decided here.
-/

namespace EvmInspect.Command

/-- Why a file is not read. -/
inductive FileError where
  | notFound
  | isDirectory
  /-- A step of the path goes into a file. -/
  | notDirectory
  | other (text : String)
deriving DecidableEq

/-- The wording of the error. -/
def FileError.message : FileError → String
  | notFound => "No such file or directory (os error 2)"
  | isDirectory => "Is a directory (os error 21)"
  | notDirectory => "Not a directory (os error 20)"
  | other text => text

/-- What is around a command. -/
structure Surroundings (m : Type → Type) where
  fileText : String → m (Except FileError String)
  /-- The way to the node of a client. -/
  connect : Node.Client → Node.Transport m

/-- Why a command fails. -/
inductive CommandError where
  | unreadableSettings (path : String) (cause : FileError)
  /-- The settings file is no TOML, or does not hold settings. -/
  | malformedSettings
  | badSettings (cause : SettingsError)
  | unreadableResult (path : String)
  | malformedResult (path : String)
  | badArgument (cause : Settings.ArgumentError)
  /-- The ABI of an entry is not read. -/
  | unregistered (address : String)
  | badAddress (cause : AddressError)
  | badKey (text : String)
  | noUrl
  | noBlock
  | ledger (cause : Ledger.LedgerError)
deriving DecidableEq

/-- The wording of the error. -/
def CommandError.message : CommandError → String
  | unreadableSettings path cause => s!"cannot read {path}: {cause.message}"
  | malformedSettings => "malformed settings file"
  | badSettings cause => cause.message
  | unreadableResult path => s!"cannot read {path}"
  | malformedResult path => s!"malformed result file {path}"
  | badArgument cause => cause.message
  | unregistered address => s!"cannot register ABI for {address}"
  | badAddress cause => cause.message
  | badKey text => Word.storageKeyMessage text
  | noUrl => "no RPC URL: pass --rpc-url or set [rpc] url"
  | noBlock => "no block number: pass --block or set [rpc] block"
  | ledger cause => cause.message

/-- A step of a command: it may look outside, and it may fail. -/
abbrev Action (m : Type → Type) := ExceptT CommandError m

/-- Fails with an error made from a cause. -/
def orFail {m : Type → Type} [Monad m] {ε α : Type} (error : ε → CommandError) :
    Except ε α → Action m α
  | .ok v => pure v
  | .error cause => throw (error cause)

/-- Fails if there is no value. -/
def orThrow {m : Type → Type} [Monad m] {α : Type} (error : CommandError) : Option α → Action m α
  | some v => pure v
  | none => throw error

variable {m : Type → Type} [Monad m]

/-- The text of a file. -/
def Surroundings.readText (s : Surroundings m) (path : String) (error : FileError → CommandError) :
    Action m String := do
  orFail error (← s.fileText path)

/-- The settings in a file, checked; the standard ones if no file is named. -/
def Surroundings.loadSettings (s : Surroundings m) : Option String → Action m Settings
  | none => pure {}
  | some path => do
    let text ← s.readText path (.unreadableSettings path)
    let settings ← orThrow .malformedSettings (Settings.ofToml? text)
    orFail .badSettings settings.check
    return settings

end EvmInspect.Command
