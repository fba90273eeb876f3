import EvmInspect.Abi.Decode
import EvmInspect.Abi.Item

/-!
# Decoding an event's values

The values of an event are split over the topics of its log and the log's data: an
indexed parameter has a topic of its own, the others are encoded together in the data.
-/

namespace EvmInspect.Abi

namespace Event

/-- How many topics the indexed parameters take. -/
def indexedCount (e : Event) : Nat := (e.inputs.filter Param.indexed).length

/-- The topics that hold indexed values: all of them for an anonymous event, else those
behind the topic that announces the event. The number of topics has to be exact and no
more than four. -/
def valueTopics? (e : Event) (topics : List Hash) : Option (List Hash) :=
  let announced := if e.anonymous then 0 else 1
  if 4 < e.indexedCount + announced then none
  else if topics.length ≠ e.indexedCount + announced then none
  else if e.anonymous then some topics
  else
    match topics with
    | topic :: rest => if topic = e.topic then some rest else none
    | [] => none

/-- The values of an event's parameters: those in topics and those in the data. -/
def decode? (e : Event) (topics : List Hash) (data : Bytes) :
    Option (List Value × List Value) :=
  match Param.resolveAll? (e.inputs.filter Param.indexed),
      Param.resolveAll? (e.inputs.filter fun p => !p.indexed) with
  | some indexedTypes, some bodyTypes =>
    match e.valueTopics? topics with
    | none => none
    | some topics =>
      match decodeBody bodyTypes data with
      | some body => some (List.zipWith ofTopic indexedTypes topics, body)
      | none => none
  | _, _ => none

end Event

/-- The values of parameters in the order of declaration: an indexed one has the next of
`indexed`, any other the next of `body`. A parameter with no value left for it has none. -/
def interleave : List Param → (indexed body : List Value) → List Value
  | [], _, _ => []
  | p :: ps, indexed, body =>
    match p.indexed, indexed, body with
    | true, v :: indexed, body => v :: interleave ps indexed body
    | _, indexed, v :: body => v :: interleave ps indexed body
    | _, indexed, [] => interleave ps indexed []

end EvmInspect.Abi
