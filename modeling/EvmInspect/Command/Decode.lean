import EvmInspect.Command.Line
import EvmInspect.Command.Surroundings
import EvmInspect.Json.Printer
import EvmInspect.Trace.Document
import EvmInspect.Trace.Report

/-!
# Decoding a recorded execution

The ABIs of the settings and of the command line are registered in this order, so that
one given on the command line replaces one from the settings. The record is then decoded
and written as a report or as JSON.
-/

namespace EvmInspect.Command

open Settings (AbiEntry)

variable {m : Type → Type} [Monad m]

/-- Registers the ABI of an entry. -/
def Surroundings.register (s : Surroundings m) (r : Abi.Registry) (entry : AbiEntry) :
    Action m Abi.Registry := do
  let address ← orFail .badSettings entry.parsedAddress
  let text ← s.readText entry.path fun _ => .unregistered entry.address
  let contract ← orThrow (.unregistered entry.address) (Abi.Registry.contractOfFile? text)
  return r.register entry.chainId address entry.contractName? contract

/-- Registers the ABIs of entries, one after the other. -/
def Surroundings.registerAll (s : Surroundings m) (entries : List AbiEntry) :
    Action m Abi.Registry :=
  entries.foldlM s.register .empty

/-- The record in a file. What the record passes over has to be well written only. -/
def Surroundings.loadRecord (s : Surroundings m) (path : String) : Action m Trace.Recorded := do
  let text ← s.readText path fun _ => .unreadableResult path
  orThrow (.malformedResult path) ((Json.outline? text).bind Trace.Recorded.read)

/-- A decoded execution as it is printed. -/
def printed (config : Trace.PreviewConfig) (json : Bool) (run : Trace.DecodedExecution) : String :=
  if json then run.document.toPrettyText else Trace.report config run

/-- Decodes a record and gives what is printed. -/
def decode (s : Surroundings m) (settingsPath : Option String) (options : DecodeOptions) :
    Action m String := do
  let settings ← s.loadSettings settingsPath
  let recorded ← s.loadRecord options.result
  let recorded := { recorded with chainId := options.chainId.getD recorded.chainId }
  let entries ← orFail .badArgument (options.abi.mapM (AbiEntry.ofArgument recorded.chainId))
  let registry ← s.registerAll (settings.abi ++ entries)
  return printed settings.preview options.json (recorded.decode registry) ++ "\n"

end EvmInspect.Command
