import EvmInspect.Bytes.Hex
import EvmInspect.Address.Text
import EvmInspect.Json.Reading
import EvmInspect.Ledger.World

/-!
# Access lists

A transaction may announce which addresses and slots it will touch. Applying the list
touches each address and warms each slot, whose number is the listed hash read as a word.
-/

namespace EvmInspect.Ledger

structure AccessItem where
  address : Address
  storageKeys : List Hash
deriving DecidableEq

namespace AccessItem

open Json in
/-- Both fields of an item have to be there. -/
def read : Reader AccessItem := fun document => do
  match ← fields ["address", "storageKeys"] document with
  | [address, storageKeys] =>
    some {
      address := ← required readAddress address
      storageKeys := ← required (readList readHash) storageKeys }
  | _ => none

def document (item : AccessItem) : Json :=
  .object [
    ("address", .string item.address.hex),
    ("storageKeys", .array (item.storageKeys.map fun key => .string (Hex.encode key.bytes)))]

end AccessItem

/-- Touches an address and warms slots of it. -/
def World.warmSlots (w : World) (a : Address) (keys : List Hash) : World :=
  w.touch a fun account => keys.foldl (fun account key => account.warmKey key.toWord) account

/-- Applies the items of an access list one after the other. -/
def World.applyAccessList (w : World) (items : List AccessItem) : World :=
  items.foldl (fun w item => w.warmSlots item.address item.storageKeys) w

end EvmInspect.Ledger
