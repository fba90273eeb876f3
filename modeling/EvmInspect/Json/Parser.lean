import EvmInspect.Json.Token

/-!
# Reading JSON documents

The parser is a fold over the tokens that carries the containers still open. It gives the
outline of a document, in which a value without a meaning is `unreadable`: a container
inside 127 others is such a value, and so is an object with a name that spells no
characters. A document is read in full if its outline has no such value.
-/

namespace EvmInspect.Json

/-- Members of an object that is still open, the last one first. -/
abbrev OpenMembers := List (Option String × Json)

/-- A container that is still open; what it holds so far stands in reverse. -/
inductive Frame where
  | array (items : List Json)
  /-- An object that waits for the value of the member `name`. -/
  | object (members : OpenMembers) (name : Option String)

/-- What may come next. -/
inductive Phase where
  | value
  /-- After `[`: a value or the end of the array. -/
  | firstItem
  /-- After the brace that opens an object: a name or the end of the object. -/
  | firstName
  /-- After a comma in an object. -/
  | name (members : OpenMembers)
  /-- After a name. -/
  | colon
  /-- After an item of an array. -/
  | afterItem
  /-- After a member of an object. -/
  | afterMember (members : OpenMembers)
  /-- After the whole document. -/
  | done (document : Json)

/-- How many containers may be open at once. -/
def maxDepth : Nat := 127

/-- Hands a complete value to the container around it. -/
def put (value : Json) : List Frame → List Frame × Phase
  | [] => ([], .done value)
  | .array items :: outer => (.array (value :: items) :: outer, .afterItem)
  | .object members name :: outer => (outer, .afterMember ((name, value) :: members))

/-- Starts a value. -/
def beginValue (frames : List Frame) (token : Token) : Option (List Frame × Phase) :=
  match token with
  | .text (some s) => some (put (.string s) frames)
  | .text none => some (put .unreadable frames)
  | .leaf value => some (put value frames)
  | .openArray => some (.array [] :: frames, .firstItem)
  | .openObject => some (frames, .firstName)
  | _ => none

/-- What is left of a container that closes as the innermost of `depth` open ones. -/
def atDepth (depth : Nat) (container : Json) : Json :=
  if depth ≤ maxDepth then container else .unreadable

/-- Ends the innermost array. -/
def endArray (depth : Nat) : List Frame → Option (List Frame × Phase)
  | .array items :: outer => some (put (atDepth depth (.array items.reverse)) outer)
  | _ => none

/-- The object of its members. -/
def ofMembers (members : OpenMembers) : Json :=
  match members.reverse.mapM fun m => m.1.map fun name => (name, m.2) with
  | some members => .object members
  | none => .unreadable

/-- Ends the innermost object. -/
def endObject (depth : Nat) (members : OpenMembers) (outer : List Frame) : List Frame × Phase :=
  put (atDepth depth (ofMembers members)) outer

/-- Reads on from a state to the end of the tokens; `depth` counts the open containers. -/
def parseFrom (frames : List Frame) (depth : Nat) (phase : Phase) : List Token → Option Json
  | [] =>
    match phase with
    | .done document => some document
    | _ => none
  | token :: rest =>
    let next (depth : Nat) : Option (List Frame × Phase) → Option Json
      | some (frames, phase) => parseFrom frames depth phase rest
      | none => none
    let opened :=
      match token with
      | .openArray => depth + 1
      | .openObject => depth + 1
      | _ => depth
    match phase with
    | .value => next opened (beginValue frames token)
    | .firstItem =>
      match token with
      | .closeArray => next (depth - 1) (endArray depth frames)
      | token => next opened (beginValue frames token)
    | .afterItem =>
      match token with
      | .comma => parseFrom frames depth .value rest
      | .closeArray => next (depth - 1) (endArray depth frames)
      | _ => none
    | .firstName =>
      match token with
      | .closeObject => next (depth - 1) (some (endObject depth [] frames))
      | .text name => parseFrom (.object [] name :: frames) depth .colon rest
      | _ => none
    | .name members =>
      match token with
      | .text name => parseFrom (.object members name :: frames) depth .colon rest
      | _ => none
    | .colon =>
      match token with
      | .colon => parseFrom frames depth .value rest
      | _ => none
    | .afterMember members =>
      match token with
      | .comma => parseFrom frames depth (.name members) rest
      | .closeObject => next (depth - 1) (some (endObject depth members frames))
      | _ => none
    | .done _ => none

/-- Reads exactly one document that is well written, with blanks around it allowed. -/
def outline? (text : String) : Option Json :=
  match lex text.toList with
  | some tokens => parseFrom [] 0 .value tokens
  | none => none

/-- Reads exactly one document that is well written and has a meaning throughout. -/
def parse? (text : String) : Option Json := (outline? text).filter isReadable

end EvmInspect.Json
