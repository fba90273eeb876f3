import EvmInspect.Abi.Item
import EvmInspect.Json.Parser
import EvmInspect.Json.Reading

/-!
# Reading an ABI

An ABI is a list of items, each marked with its kind. Only functions, events and errors
are kept; constructors, fallbacks and receivers are checked and counted, as there may be
only one of each. Items are kept in order of name, those of one name in order of
appearance.
-/

namespace EvmInspect.Abi

open Json

/-- A name that may be left out, but not ill-formed. -/
def readName : Reader String
  | .string s => if s.isEmpty || TypeText.isName s.toList then some s else none
  | _ => none

/-- How the `indexed` mark of a parameter is read: only an event's own parameters may
have one. -/
def readIndexed (inEvent : Bool) : Option Json → Option Bool
  | none => some false
  | some .null => some false
  | some (.bool b) => if inEvent then some b else none
  | some _ => none

/-- Whether a type text is one that can be given: with components it has to begin with
`tuple`, without it has to be well-formed. -/
def isTypeText (typeText : String) (hasComponents : Bool) : Bool :=
  if hasComponents then "tuple".toList.isPrefixOf typeText.toList
  else (TypeText.parse? typeText).isSome

/-- Checks the parts of a parameter and puts them together. -/
def makeParam (inEvent : Bool) (name typeText indexed internal : Option Json)
    (components : List Param) : Option Param := do
  let name ← withDefault "" readName name
  let typeText ← required readString typeText
  let indexed ← readIndexed inEvent indexed
  let _ ← optional readString internal
  if isTypeText typeText !components.isEmpty then
    some (.mk name typeText components indexed)
  else none

mutual

/-- Reads a parameter. -/
def Param.read (inEvent : Bool) : Json → Option Param
  | .object members => do
    let name ← field? members "name"
    let typeText ← field? members "type"
    let indexed ← field? members "indexed"
    let internal ← field? members "internalType"
    let _ ← field? members "components"
    let components ← Param.readComponents members
    makeParam inEvent name typeText indexed internal components
  | .array [name, typeText] => makeParam inEvent name typeText none none []
  | .array [name, typeText, indexed] => makeParam inEvent name typeText indexed none []
  | .array [name, typeText, indexed, internal] =>
    makeParam inEvent name typeText indexed internal []
  | .array [name, typeText, indexed, internal, .array items] => do
    makeParam inEvent name typeText indexed internal (← Param.readAll false items)
  | _ => none

/-- Reads the components of a parameter from its members. -/
def Param.readComponents : List (String × Json) → Option (List Param)
  | [] => some []
  | ("components", .array items) :: _ => Param.readAll false items
  | ("components", _) :: _ => none
  | _ :: rest => Param.readComponents rest

/-- Reads a list of parameters. -/
def Param.readAll (inEvent : Bool) : List Json → Option (List Param)
  | [] => some []
  | item :: rest => do
    let p ← Param.read inEvent item
    let ps ← Param.readAll inEvent rest
    some (p :: ps)

end

def Param.readList (inEvent : Bool) : Reader (List Param)
  | .array items => Param.readAll inEvent items
  | _ => none

def Mutability.ofName? (name : String) : Option Mutability :=
  if name = "pure" then some .pure
  else if name = "view" then some .view
  else if name = "nonpayable" then some .nonpayable
  else if name = "payable" then some .payable
  else none

/-- The mutability of an item: its name, or else what the older marks `constant` and
`payable` say, of which only one may be set. -/
def readMutability : Reader Mutability := fun item => do
  let fields ← objectFields ["stateMutability", "payable", "constant"] item
  match fields with
  | [mutability, payable, constant] =>
    let mutability ← optional (fun d => (readOpenCase d).bind Mutability.ofName?) mutability
    let payable ← optional readBool payable
    let constant ← optional readBool constant
    match mutability with
    | some m => some m
    | none =>
      match payable.getD false, constant.getD false with
      | true, true => none
      | true, false => some .payable
      | false, true => some .view
      | false, false => some .nonpayable
  | _ => none

def Function.read : Reader Function := fun item => do
  let fields ← objectFields ["name", "inputs", "outputs"] item
  match fields with
  | [name, inputs, outputs] =>
    let name ← required readName name
    let inputs ← required (Param.readList false) inputs
    let outputs ← required (Param.readList false) outputs
    let mutability ← readMutability item
    some { name, inputs, outputs, mutability }
  | _ => none

def Event.read : Reader Event := fun item => do
  match ← fields ["name", "inputs", "anonymous"] item with
  | [name, inputs, anonymous] =>
    let name ← required readName name
    let inputs ← required (Param.readList true) inputs
    let anonymous ← required readBool anonymous
    some { name, inputs, anonymous }
  | _ => none

def CustomError.read : Reader CustomError := fun item => do
  match ← fields ["name", "inputs"] item with
  | [name, inputs] =>
    let name ← required readName name
    let inputs ← required (Param.readList false) inputs
    some { name, inputs }
  | _ => none

/-- An item of an ABI. -/
inductive Item where
  | function (f : Function)
  | event (e : Event)
  | error (e : CustomError)
  | constructor
  | fallback
  | receive

/-- Reads an item by the kind it is marked with, in an object with its fields. -/
def Item.readObject : Reader Item := fun item => do
  match ← objectFields ["type", "inputs"] item with
  | [kind, inputs] =>
    let kind ← required readString kind
    if kind = "function" then (Function.read item).map .function
    else if kind = "event" then (Event.read item).map .event
    else if kind = "error" then (CustomError.read item).map .error
    else if kind = "constructor" then
      let _ ← required (Param.readList false) inputs
      let _ ← readMutability item
      some .constructor
    else if kind = "fallback" then (readMutability item).map fun _ => .fallback
    else if kind = "receive" then (readMutability item).map fun _ => .receive
    else none
  | _ => none

/-- Reads an item. An event or an error may also be a list of its kind and its fields in
order; the other items have marks that need an object. -/
def Item.read : Reader Item
  | .array (.string kind :: values) =>
    if kind = "event" then (Event.read (.array values)).map .event
    else if kind = "error" then (CustomError.read (.array values)).map .error
    else none
  | item => Item.readObject item

/-- Whether a string stands before another, or is the same. -/
def nameLe (a b : String) : Bool := !(decide (b < a))

/-- The functions, events and errors of a contract, each with the key it is found by, in
order of name. -/
structure Contract where
  functions : List (Selector × Function)
  events : List (Hash × Event)
  errors : List (Selector × CustomError)

namespace Contract

/-- Sorts items into a contract. -/
def ofItems (items : List Item) : Contract where
  functions := ((items.filterMap fun
      | .function f => some f
      | _ => none).mergeSort fun f g => nameLe f.name g.name).map fun f => (f.selector, f)
  events := ((items.filterMap fun
      | .event e => some e
      | _ => none).mergeSort fun e f => nameLe e.name f.name).map fun e => (e.topic, e)
  errors := ((items.filterMap fun
      | .error e => some e
      | _ => none).mergeSort fun e f => nameLe e.name f.name).map fun e => (e.selector, e)

/-- Whether at most one item passes. -/
def atMostOne (p : Item → Bool) (items : List Item) : Bool := items.countP p ≤ 1

/-- Reads an ABI. -/
def ofJson? (document : Json) : Option Contract := do
  let items ← Json.readList Item.read document
  let constructors := atMostOne (fun | .constructor => true | _ => false) items
  let fallbacks := atMostOne (fun | .fallback => true | _ => false) items
  let receivers := atMostOne (fun | .receive => true | _ => false) items
  if constructors && fallbacks && receivers then some (ofItems items) else none

/-- Reads the text of an ABI. -/
def ofText? (text : String) : Option Contract := (Json.parse? text).bind ofJson?

/-- The last item under a key. -/
def lastOf {κ α : Type} [DecidableEq κ] (key : κ) (items : List (κ × α)) : Option α :=
  (items.reverse.find? fun e => decide (e.1 = key)).map Prod.snd

end Contract

end EvmInspect.Abi
