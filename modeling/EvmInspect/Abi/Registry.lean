import EvmInspect.Abi.Contract
import EvmInspect.KeyMap

/-!
# The registry of contracts

A registry knows contracts by chain and address, and apart from that all functions and
events by their key alone. A contract that is registered again replaces the earlier one;
of functions and events with one key the first to come keeps its place in the common
index. Errors are known by their contract only.
-/

namespace EvmInspect.Abi

/-- A contract under the name it was registered with. -/
structure NamedContract where
  name : Option String
  contract : Contract

structure Registry where
  contracts : KeyMap (UInt64 × Address) NamedContract
  /-- Functions of every contract, the earliest registration first. -/
  functions : List (Selector × Function)
  /-- Events of every contract, the earliest registration first. -/
  events : List (Hash × Event)

namespace Registry

def empty : Registry := ⟨.empty, [], []⟩

instance : Inhabited Registry := ⟨empty⟩

/-- Registers a contract. Within the contract the last item of a key counts, so its items
join the common index from last to first. -/
def register (r : Registry) (chain : UInt64) (address : Address) (name : Option String)
    (contract : Contract) : Registry where
  contracts := r.contracts.insert (chain, address) ⟨name, contract⟩
  functions := r.functions ++ contract.functions.reverse
  events := r.events ++ contract.events.reverse

/-- Registers a contract whose ABI is a text; the text has to be an ABI. -/
def registerText? (r : Registry) (chain : UInt64) (address : Address) (name : Option String)
    (text : String) : Option Registry :=
  (Contract.ofText? text).map (r.register chain address name)

/-- The ABI in the text of a file: the member `abi` of an object that has one, otherwise
the whole document. -/
def contractOfFile? (text : String) : Option Contract :=
  match Json.parse? text with
  | none => none
  | some document =>
    let document := document.collapse
    Contract.ofJson? ((document.get? "abi").getD document)

/-- Registers a function without a contract. -/
def registerFunction (r : Registry) (f : Function) : Registry :=
  { r with functions := r.functions ++ [(f.selector, f)] }

/-- Registers an event without a contract. -/
def registerEvent (r : Registry) (e : Event) : Registry :=
  { r with events := r.events ++ [(e.topic, e)] }

/-- The contract registered at an address of a chain. -/
def contract? (r : Registry) (chain : UInt64) (address : Address) : Option Contract :=
  (r.contracts.get? (chain, address)).map NamedContract.contract

/-- The name that the contract at an address was registered with. -/
def name? (r : Registry) (chain : UInt64) (address : Address) : Option String :=
  (r.contracts.get? (chain, address)).bind NamedContract.name

/-- The first item under a key. -/
def firstOf {κ α : Type} [DecidableEq κ] (key : κ) (items : List (κ × α)) : Option α :=
  (items.find? fun e => decide (e.1 = key)).map Prod.snd

/-- The selector at the front of call data and what follows it. -/
def splitSelector? (data : Bytes) : Option (Selector × Bytes) :=
  if data.length < 4 then none else some (data.take 4, data.drop 4)

/-- The function that call data is for: the contract's own, or else the first that has
the selector. -/
def function? (r : Registry) (chain : UInt64) (address : Address) (data : Bytes) :
    Option Function :=
  match splitSelector? data with
  | none => none
  | some (selector, _) =>
    ((r.contract? chain address).bind fun c => Contract.lastOf selector c.functions).or
      (firstOf selector r.functions)

/-- The event that a topic announces: the contract's own, or else the first that has the
topic. -/
def event? (r : Registry) (chain : UInt64) (address : Address) (topic : Hash) : Option Event :=
  ((r.contract? chain address).bind fun c => Contract.lastOf topic c.events).or
    (firstOf topic r.events)

/-- The error of the contract with a selector. -/
def error? (r : Registry) (chain : UInt64) (address : Address) (selector : Selector) :
    Option CustomError :=
  (r.contract? chain address).bind fun c => Contract.lastOf selector c.errors

end Registry

end EvmInspect.Abi
