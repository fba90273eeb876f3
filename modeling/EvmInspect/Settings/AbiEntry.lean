import EvmInspect.Address.Text
import EvmInspect.Json.Reading
import EvmInspect.Text.FileStem

/-!
# Entries for contracts

An entry says which file holds the ABI of the contract at an address of a chain. It comes
from the settings file, or from the command line as an address and a path with an equals
sign between them.
-/

namespace EvmInspect.Settings

structure AbiEntry where
  chainId : UInt64
  /-- The address as it was written. -/
  address : String
  name : Option String
  path : String
deriving DecidableEq

/-- Why an argument is no entry. -/
inductive ArgumentError where
  /-- There is no equals sign. -/
  | noPath (argument : String)
  | badAddress (argument : String) (cause : AddressError)
deriving DecidableEq

/-- The wording of the error. -/
def ArgumentError.message : ArgumentError → String
  | noPath argument => s!"expected <address>=<path>, got {Text.quoted argument}"
  | badAddress argument cause => s!"{Text.quoted argument}: {cause.message}"

namespace AbiEntry

open Json in
/-- An entry may be given as a list, of which only the first four items count. -/
def read : Reader AbiEntry := fun document => do
  match ← fields ["chain_id", "address", "name", "path"] (document.leading 4) with
  | [chainId, address, name, path] =>
    some {
      chainId := ← withDefault 1 readUInt64 chainId
      address := ← required readString address
      name := ← optional readString name
      path := ← required readString path }
  | _ => none

/-- The text before the first equals sign, and the text after it. -/
def splitArgument? (argument : String) : Option (String × String) :=
  match argument.toList.span (· != '=') with
  | (address, _equals :: path) => some (String.ofList address, String.ofList path)
  | _ => none

/-- Reads an argument of the command line as an entry for a chain. -/
def ofArgument (chainId : UInt64) (argument : String) : Except ArgumentError AbiEntry :=
  match splitArgument? argument with
  | none => .error (.noPath argument)
  | some (address, path) =>
    match Address.parse address with
    | .ok _ => .ok ⟨chainId, address, none, path⟩
    | .error cause => .error (.badAddress argument cause)

/-- The name of the contract: the one that is given, or else the stem of the path. -/
def contractName? (entry : AbiEntry) : Option String := entry.name.or (Text.fileStem? entry.path)

end AbiEntry

end EvmInspect.Settings
