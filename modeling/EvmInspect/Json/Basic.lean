/-!
# JSON documents

A document as it is written: the members of an object keep their order and may repeat a
name, and a number that is not an integer of 64 bits keeps its spelling. `collapse`
gives the reading in which the last member of a name counts.

A value may be well written and still say nothing, such as a number too large for the
floating format. It stands in the document as `unreadable`, so that it can be passed over
where no one asks for it; `isReadable` tells whether a document is free of such values.
-/

namespace EvmInspect

/-- A JSON document. -/
inductive Json where
  | null
  | bool (value : Bool)
  /-- An integer from -2^63 to 2^64 - 1, written without fraction or exponent. -/
  | integer (value : Int)
  /-- Any other number, with its spelling. -/
  | fraction (spelling : String)
  | string (value : String)
  | array (items : List Json)
  | object (members : List (String × Json))
  /-- A value that is well written and has no meaning. -/
  | unreadable
deriving Inhabited

namespace Json

/-- The value of the last member of a name. -/
def lastOf (name : String) (members : List (String × Json)) : Option Json :=
  (members.reverse.find? fun m => m.1 == name).map Prod.snd

/-- The value of a member of an object; of members of one name, the last. -/
def get? (document : Json) (name : String) : Option Json :=
  match document with
  | object members => lastOf name members
  | _ => none

/-- Of members with one name only the last is kept. -/
def keepLast : List (String × Json) → List (String × Json)
  | [] => []
  | m :: rest => if rest.any fun n => n.1 == m.1 then keepLast rest else m :: keepLast rest

mutual

/-- The document in which no object repeats a name, the last member of a name counting. -/
def collapse : Json → Json
  | array items => array (collapseItems items)
  | object members => object (keepLast (collapseMembers members))
  | leaf => leaf

def collapseItems : List Json → List Json
  | [] => []
  | item :: rest => collapse item :: collapseItems rest

def collapseMembers : List (String × Json) → List (String × Json)
  | [] => []
  | (name, value) :: rest => (name, collapse value) :: collapseMembers rest

end

mutual

/-- Whether every value inside the document has a meaning. -/
def isReadable : Json → Bool
  | array items => itemsReadable items
  | object members => membersReadable members
  | unreadable => false
  | _ => true

def itemsReadable : List Json → Bool
  | [] => true
  | item :: rest => isReadable item && itemsReadable rest

def membersReadable : List (String × Json) → Bool
  | [] => true
  | (_, value) :: rest => isReadable value && membersReadable rest

end

end Json

end EvmInspect
