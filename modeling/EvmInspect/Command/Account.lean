import EvmInspect.Command.Line
import EvmInspect.Command.Surroundings
import EvmInspect.Json.Printer

/-!
# Loading an account

An account is read through a ledger over a node: its balance, nonce and code, and then the
slots that are asked for. Nothing is asked before everything that is told is known to be
right.
-/

namespace EvmInspect.Command

open Ledger (Query Source LedgerError)

/-- What is known of an account at a block. -/
structure AccountView where
  address : Address
  block : UInt64
  balance : Int
  nonce : UInt64
  code : Bytes
  slots : List (Word × Bytes)

namespace AccountView

/-- The storage in a JSON form, sorted by the text of the keys. -/
def storageDocument (slots : List (Word × Bytes)) : Json :=
  let members := slots.map fun (key, value) => (key.hex, Json.string (Hex.encode value))
  .object (Json.keepLast (members.mergeSort fun a b => decide (a.1 ≤ b.1)))

def document (view : AccountView) : Json :=
  .object [
    ("address", .string view.address.checksum),
    ("balance", .string (Numeral.decimal view.balance)),
    ("block", .integer view.block.toNat),
    ("code", .string (Hex.encode view.code)),
    ("nonce", .integer view.nonce.toNat),
    ("storage", storageDocument view.slots)]

/-- The lines of a report on the account. -/
def lines (view : AccountView) : List String := [
    s!"Account {view.address.checksum}",
    s!"  Block:   {view.block}",
    s!"  Balance: {Numeral.decimal view.balance}",
    s!"  Nonce:   {view.nonce}",
    s!"  Code:    {view.code.length} bytes"]
  ++ view.slots.map fun (key, value) => s!"  Slot {key.hex}: {Hex.encode value}"

/-- The account as it is printed. -/
def printed (json : Bool) (view : AccountView) : String :=
  if json then view.document.toPrettyText ++ "\n"
  else String.join (view.lines.map (· ++ "\n"))

end AccountView

variable {m : Type → Type} [Monad m]

/-- Reading through a ledger, which keeps what it learns. -/
abbrev LedgerReading (m : Type → Type) := ExceptT LedgerError (StateT Ledger.State m)

/-- Reads a chain value through the ledger. -/
def readThrough (source : Source m) (q : Query) : LedgerReading m q.Answer :=
  ExceptT.mk fun l => l.read source q

/-- Brings the balance, the nonce and the code of an account into the ledger. -/
def load (source : Source m) (a : Address) : LedgerReading m Unit :=
  ExceptT.mk fun l => l.readAll source [.balance a, .nonce a, .code a]

/-- Reads the balance of an account through the ledger, with what execution added. -/
def readTotal (source : Source m) (a : Address) : LedgerReading m Int := do
  let _ ← readThrough source (.balance a)
  return ((← get).world.accountD a).total

/-- Reads an account through the ledger. All but the slots is loaded first. -/
def readAccount (source : Source m) (a : Address) (block : UInt64) (keys : List Word) :
    LedgerReading m AccountView := do
  load source a
  let balance ← readTotal source a
  let nonce ← readThrough source (.nonce a)
  let code ← readThrough source (.code a)
  let slots ← keys.mapM fun key => do return (key, ← readThrough source (.slot a key))
  return ⟨a, block, balance, nonce, code, slots⟩

/-- What is asked for: the address and the keys of the slots, each of which has to be one. -/
def target (options : AccountOptions) : Except CommandError (Address × List Word) := do
  let address ← (Address.parse options.address).mapError .badAddress
  let keys ← options.slots.mapM fun text =>
    match Word.storageKey? text with
    | some key => Except.ok key
    | none => .error (.badKey text)
  return (address, keys)

/-- The settings with what the command line puts in their place. -/
def overridden (settings : Settings) (options : AccountOptions) : Settings :=
  { settings with node := { settings.node with
      url := options.url.or settings.node.url
      block := options.block.or settings.node.block } }

/-- The client for the node of the settings. -/
def clientOf (node : Settings.NodeSettings) : Except CommandError Node.Client := do
  match node.url, node.block with
  | none, _ => throw .noUrl
  | some _, none => throw .noBlock
  | some url, some block => return ⟨url, block, node.clientConfig⟩

/-- Everything that is settled before the node is asked. -/
def prepare (settings : Settings) (options : AccountOptions) :
    Except CommandError (Node.Client × Address × List Word) := do
  let (address, keys) ← target options
  let settings := overridden settings options
  settings.check.mapError .badSettings
  return (← clientOf settings.node, address, keys)

/-- Loads an account and gives what is printed. -/
def account (s : Surroundings m) (settingsPath : Option String) (options : AccountOptions) :
    Action m String := do
  let settings ← s.loadSettings settingsPath
  let (client, address, keys) ← orFail id (prepare settings options)
  let source := client.source (s.connect client)
  let (view, _) ← ((readAccount source address client.block keys).run.run .empty : m _)
  return (← orFail .ledger view).printed options.json

end EvmInspect.Command
