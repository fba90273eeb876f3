import EvmInspect.Abi.TypeText
import EvmInspect.Bytes.Hex
import EvmInspect.Keccak

/-!
# The items of an ABI

Functions, events and errors with their parameters. An item is found by the hash of its
signature, which writes each parameter's type as the ABI spells it; the types themselves
are resolved only when something is decoded.
-/

namespace EvmInspect.Abi

/-- A parameter. With components its type is a tuple of them, with the array sizes that
follow `tuple` in its type text. -/
inductive Param where
  | mk (name typeText : String) (components : List Param) (indexed : Bool)
deriving Inhabited

namespace Param

def name : Param → String
  | mk name _ _ _ => name

def typeText : Param → String
  | mk _ typeText _ _ => typeText

def components : Param → List Param
  | mk _ _ components _ => components

/-- Whether an event puts the parameter into a topic. -/
def indexed : Param → Bool
  | mk _ _ _ indexed => indexed

/-- What follows `tuple` in a type text. -/
def sizesText (typeText : String) : List Char := typeText.toList.drop 5

/-- Items with `separator` between them. -/
def joined (separator : List Char) : List (List Char) → List Char
  | [] => []
  | [item] => item
  | item :: rest => item ++ separator ++ joined separator rest

mutual

/-- The type as a signature writes it. -/
def signatureType : Param → List Char
  | mk _ typeText [] _ => typeText.toList
  | mk _ typeText components _ =>
    '(' :: joined [','] (signatureTypes components) ++ ')' :: sizesText typeText

def signatureTypes : List Param → List (List Char)
  | [] => []
  | p :: ps => signatureType p :: signatureTypes ps

end

mutual

/-- The type with the names of its components. -/
def fullType : Param → List Char
  | mk _ typeText [] _ => typeText.toList
  | mk _ typeText components _ =>
    "tuple(".toList ++ joined [',', ' '] (fullMembers components) ++ ')' :: sizesText typeText

def fullMembers : List Param → List (List Char)
  | [] => []
  | mk name typeText components indexed :: ps =>
    (fullType (mk name typeText components indexed)
      ++ (if name.isEmpty then [] else ' ' :: name.toList)) :: fullMembers ps

end

mutual

/-- The type of the parameter, if every name in it means something. -/
def resolve? : Param → Option Ty
  | mk _ typeText components _ =>
    match TypeText.parse? typeText with
    | none => none
    | some text =>
      match components with
      | [] => text.resolve?
      | components => (resolveAll? components).map fun ts => text.wrap (.tuple ts)

def resolveAll? : List Param → Option (List Ty)
  | [] => some []
  | p :: ps =>
    match resolve? p with
    | none => none
    | some t =>
      match resolveAll? ps with
      | none => none
      | some ts => some (t :: ts)

end

/-- The type as text. -/
def type (p : Param) : String := String.ofList p.signatureType

end Param

/-- What a function may do to the state. -/
inductive Mutability where
  | pure
  | view
  | nonpayable
  | payable
deriving DecidableEq

/-- The four bytes that begin a call or an error. -/
abbrev Selector := Bytes

/-- A name and its parameters' types. -/
def signatureChars (name : String) (inputs : List Param) : List Char :=
  name.toList ++ '(' :: Param.joined [','] (Param.signatureTypes inputs) ++ [')']

/-- The hash that a signature is known by. -/
def signatureHash (name : String) (inputs : List Param) : Hash :=
  Keccak.hash (Hex.utf8 (signatureChars name inputs))

/-- Parameters between parentheses, with names. -/
def fullParams (ps : List Param) : List Char :=
  '(' :: Param.joined [',', ' '] (Param.fullMembers ps) ++ [')']

structure Function where
  name : String
  inputs : List Param
  outputs : List Param
  mutability : Mutability

namespace Function

def signature (f : Function) : String := String.ofList (signatureChars f.name f.inputs)

def selector (f : Function) : Selector := (signatureHash f.name f.inputs).bytes.take 4

/-- The function as it would be declared. -/
def declaration (f : Function) : String :=
  let mutability :=
    match f.mutability with
    | .pure => " pure"
    | .view => " view"
    | .nonpayable => ""
    | .payable => " payable"
  let returns := if f.outputs.isEmpty then [] else " returns ".toList ++ fullParams f.outputs
  String.ofList ("function ".toList ++ f.name.toList ++ fullParams f.inputs
    ++ mutability.toList ++ returns)

end Function

structure Event where
  name : String
  inputs : List Param
  anonymous : Bool

namespace Event

def signature (e : Event) : String := String.ofList (signatureChars e.name e.inputs)

/-- The topic that announces the event. -/
def topic (e : Event) : Hash := signatureHash e.name e.inputs

/-- A parameter of an event, with its place in the log and its name. -/
def declaredParam (p : Param) : List Char :=
  p.fullType ++ (if p.indexed then " indexed".toList else [])
    ++ (if p.name.isEmpty then [] else ' ' :: p.name.toList)

/-- The event as it would be declared. -/
def declaration (e : Event) : String :=
  String.ofList ("event ".toList ++ e.name.toList
    ++ '(' :: Param.joined [',', ' '] (e.inputs.map declaredParam) ++ [')']
    ++ (if e.anonymous then " anonymous".toList else []))

end Event

/-- An error that a contract may revert with. -/
structure CustomError where
  name : String
  inputs : List Param

namespace CustomError

def signature (e : CustomError) : String := String.ofList (signatureChars e.name e.inputs)

def selector (e : CustomError) : Selector := (signatureHash e.name e.inputs).bytes.take 4

end CustomError

end EvmInspect.Abi
