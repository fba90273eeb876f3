import EvmInspect.Proofs.Abi.EventValues
import EvmInspect.Proofs.Abi.Registrations
import EvmInspect.Proofs.Trace.Arguments

/-!
# Arguments of events are read back in order

A log in whose topics and data the arguments of an event are encoded is shown with these arguments
in the order in which they were declared, whichever of them are indexed
(`event_arguments_read_back`). The topic that announces a log is that of the event which the
registry finds for it, so only the encoding has to be asked for.

Three things are lost in an encoding, and then the arguments are not shown as they were
(`lost_arguments_are_not_shown`): a value that needs more frames than the decoder opens, the items of
an array that take no bytes, and what is kept in the data where that is nothing but empty tuples. In
the last case the values of other parameters are shown in their place.
-/

namespace EvmInspect.Trace

/-- The event that a topic announces has this topic. -/
theorem topic_of_event? {history : List Abi.Registration} {chain : UInt64} {address : Address}
    {topic : Hash} {e : Abi.Event}
    (known : (Abi.Registry.after history).event? chain address topic = some e) : e.topic = topic := by
  have follows := (Abi.Registry.mirrors_after history).follows
  rcases (follows.event chain address topic e).mp known with ⟨_, _, last⟩ | ⟨_, earliest⟩
  · obtain ⟨_, _, _, own, _⟩ := last
    exact own
  · obtain ⟨_, _, _, _, provides, _⟩ := earliest
    rcases provides with ⟨_, _, _, _, _, _, own, _⟩ | ⟨_, own⟩
    · exact own
    · exact own

/-! ## What is shown of a log -/

section Shown

variable {registry : Abi.Registry} {chain : UInt64} {log : RawLog} {e : Abi.Event}
  {types : List Abi.Ty} {arguments : List Abi.Value}

/-- A log is decoded with the event that its first topic announces. -/
theorem decodeLog_of_known {topic : Hash} {rest : List Hash}
    (known : registry.event? chain log.address topic = some e)
    (announced : log.topics = topic :: rest) (logIndex : UInt64) (depth : Nat) :
    (decodeLog registry chain log logIndex depth).isDecoded = true ∧
      (decodeLog registry chain log logIndex depth).event = some e ∧
      (decodeLog registry chain log logIndex depth).parameters = readEvent e log := by
  simp only [decodeLog, announced, List.head?_cons, Option.bind_some, known, Option.isSome_some,
    Option.map_some, Option.getD_some, and_self]

theorem showsReadable_readEvent (h : e.Encodes types arguments log.topics log.data)
    (keeps : e.Keeps types) : ShowsReadable (readEvent e log) e.inputs types arguments := by
  have each : arguments.length = e.inputs.length :=
    (Abi.length_of_admitsAll h.admitted).trans (Abi.length_resolveAll? h.resolved)
  rw [readEvent, Abi.Event.decode?_eq h keeps]
  constructor
  · intro readable
    simp only [if_pos readable, Abi.interleave_pick each]
    exact shows_zip each
  · intro deep
    simp only [if_neg (Nat.not_le.mpr deep)]

end Shown

/-- Interleaving gives each parameter of an event its value, the indexed ones those of the topics
in order and the others those of the data. So the encoded arguments of an event are shown with a log
that carries them, for whichever event the registry finds for its first topic; this topic is that
of the event, whatever was registered before. -/
theorem event_arguments_read_back :
    (∀ (params : List Abi.Param) (indexed body : List Abi.Value),
      indexed.length = (params.filter Abi.Param.indexed).length →
      body.length = (params.filter fun p => !p.indexed).length →
        (Abi.interleave params indexed body).length = params.length ∧
        Abi.Param.pick true params (Abi.interleave params indexed body) = indexed ∧
        Abi.Param.pick false params (Abi.interleave params indexed body) = body) ∧
    (∀ (registry : Abi.Registry) (chain : UInt64) (log : RawLog) (e : Abi.Event)
      (types : List Abi.Ty) (arguments : List Abi.Value) (logIndex : UInt64) (depth : Nat),
      registry.event? chain log.address e.topic = some e →
      e.Encodes types arguments log.topics log.data → e.Keeps types →
        (decodeLog registry chain log logIndex depth).isDecoded = true ∧
        (decodeLog registry chain log logIndex depth).event = some e ∧
        ShowsReadable (decodeLog registry chain log logIndex depth).parameters e.inputs types
          arguments) ∧
    ∀ (history : List Abi.Registration) (chain : UInt64) (address : Address) (topic : Hash)
      (e : Abi.Event), (Abi.Registry.after history).event? chain address topic = some e →
        e.topic = topic := by
  refine ⟨fun params indexed body inTopics inData => ?_,
    fun registry chain log e types arguments logIndex depth known encodes keeps => ?_,
    fun _ _ _ _ _ known => topic_of_event? known⟩
  · exact ⟨Abi.length_interleave inTopics inData, Abi.pick_interleave inTopics inData⟩
  · obtain ⟨_, announced, _⟩ := encodes.inTopics
    obtain ⟨decoded, event, shown⟩ := decodeLog_of_known known announced logIndex depth
    refine ⟨decoded, event, ?_⟩
    rw [shown]
    exact showsReadable_readEvent encodes keeps

/-! ## Logs of single events -/

/-- An event that is registered alone is found for its topic. -/
theorem event?_registerEvent (e : Abi.Event) (chain : UInt64) (address : Address) :
    (Abi.Registry.empty.registerEvent e).event? chain address e.topic = some e := by
  simp only [Abi.Registry.event?, Abi.Registry.registerEvent, Abi.Registry.firstOf,
    Abi.Registry.contract?, Abi.Registry.empty, KeyMap.get?_empty, Option.map_none,
    Option.bind_none, Option.none_or, List.nil_append, List.find?_singleton, decide_true, if_true,
    Option.map_some]

/-- A log that an event announces, with words in its other topics. -/
def announcing (e : Abi.Event) (words : List Word) (data : Bytes) : RawLog where
  address := default
  topics := e.topic :: words.map Hash.ofWord
  data
  logIndex := none
  callIndex := none

/-- An event whose parameters are in the data and in topics by turns. -/
def moving : Abi.Event where
  name := "Moved"
  inputs :=
    [.mk "note" "string" [] false, .mk "from" "address" [] true,
      .mk "parts" "tuple[]" [.mk "id" "uint256" [] false, .mk "tag" "bytes" [] false] false,
      .mk "amount" "int256" [] true, .mk "done" "bool" [] false]
  anonymous := false

def movingTypes : List Abi.Ty :=
  [.string, .address, .array (.tuple [.uint 256, .bytes]), .int 256, .bool]

def movingArguments : List Abi.Value :=
  [.string "to the left", .address (Address.ofNat 7),
    .array [.tuple [.uint 1, .bytes [1, 2, 3]], .tuple [.uint 2, .bytes []]], .int (-1),
    .bool true]

def movingData : Bytes :=
  Abi.encodeParams [.string, .array (.tuple [.uint 256, .bytes]), .bool]
    [.string "to the left",
      .array [.tuple [.uint 1, .bytes [1, 2, 3]], .tuple [.uint 2, .bytes []]], .bool true]

/-- Texts and lists in the data stand between numbers from the topics. -/
theorem interleaved_arguments_read_back :
    let registry := Abi.Registry.after [.event moving]
    let log := announcing moving [7, -1] movingData
    (∃ topic ∈ log.topics.head?, registry.event? 1 log.address topic = some moving ∧
        moving.topic = topic) ∧
      moving.Encodes movingTypes movingArguments log.topics log.data ∧ moving.Keeps movingTypes ∧
      Shows (decodeLog registry 1 log 0 0).parameters moving.inputs movingArguments ∧
      (Abi.interleave moving.inputs [.int 1, .int 2] [.int 3, .int 4, .int 5]).length = 5 := by
  intro registry log
  obtain ⟨order, shown, announces⟩ := event_arguments_read_back
  have known : registry.event? 1 log.address moving.topic = some moving :=
    event?_registerEvent moving 1 log.address
  have short : movingData.length < UInt64.size := by cbv
  have encodes : moving.Encodes movingTypes movingArguments log.topics log.data :=
    ⟨rfl, by decide, rfl, by decide, by decide, ⟨_, rfl, by decide⟩, rfl, short⟩
  have keeps : moving.Keeps movingTypes :=
    ⟨by decide, Abi.Event.keepsBytes_of_resolved rfl (by decide)⟩
  obtain ⟨_, _, readable⟩ := shown registry 1 log _ _ _ 0 0 known encodes keeps
  obtain ⟨each, _⟩ := order moving.inputs [.int 1, .int 2] [.int 3, .int 4, .int 5] rfl rfl
  exact ⟨⟨_, rfl, known, announces [.event moving] 1 log.address _ _ known⟩, encodes, keeps,
    readable.readable (by decide), each⟩

/-! ## What is lost -/

/-- A number in seventeen arrays inside each other. -/
def nesting : Abi.Event where
  name := "Nested"
  inputs := [.mk "n" "uint256[1][1][1][1][1][1][1][1][1][1][1][1][1][1][1][1][1]" [] false]
  anonymous := false

/-- A list of empty tuples beside a number. -/
def counting : Abi.Event where
  name := "Counted"
  inputs := [.mk "all" "()[]" [] false, .mk "n" "uint256" [] false]
  anonymous := false

def countingData : Bytes :=
  Abi.encodeParams [.array (.tuple []), .uint 256] [.array [.tuple [], .tuple []], .uint 5]

/-- An empty tuple and a number in a topic. -/
def signalling : Abi.Event where
  name := "Signalled"
  inputs := [.mk "mark" "()" [] false, .mk "n" "uint256" [] true]
  anonymous := false

section Announcing

variable {e : Abi.Event} {words : List Word} {data : Bytes}

/-- The log of an event that is registered alone is shown with what is read of the event. -/
theorem parameters_announcing :
    (decodeLog (Abi.Registry.empty.registerEvent e) 1 (announcing e words data) 0 0).parameters =
      readEvent e (announcing e words data) :=
  (decodeLog_of_known (event?_registerEvent e 1 _) rfl 0 0).2.2

/-- What is read of an event is what its words and its data hold for the types of its parameters. -/
theorem readEvent_announcing {inTopics inData : List Abi.Ty} {body : List Abi.Value}
    (announced : e.anonymous = false) (few : e.indexedCount ≤ 3)
    (each : words.length = e.indexedCount)
    (indexed : Abi.Param.resolveAll? (e.inputs.filter Abi.Param.indexed) = some inTopics)
    (others : Abi.Param.resolveAll? (e.inputs.filter fun p => !p.indexed) = some inData)
    (read : Abi.decodeBody inData data = some body) :
    readEvent e (announcing e words data) = Parameter.zip e.inputs
      (Abi.interleave e.inputs (List.zipWith Abi.ofTopic inTopics (words.map Hash.ofWord)) body) := by
  have given : e.valueTopics? (e.topic :: words.map Hash.ofWord) = some (words.map Hash.ofWord) :=
    Abi.Event.valueTopics?_announced announced few ((List.length_map _).trans each)
  simp only [readEvent, Abi.Event.decode?, announcing, indexed, others, given, read]

end Announcing

/-- The arguments of an event that is registered alone are encoded in a log, and something else is
shown with it. -/
structure Loses (e : Abi.Event) (types : List Abi.Ty) (arguments : List Abi.Value)
    (words : List Word) (data : Bytes) (shown : List Parameter) : Prop where
  known : (Abi.Registry.empty.registerEvent e).event? 1 default e.topic = some e
  encodes : e.Encodes types arguments (announcing e words data).topics data
  parameters : (decodeLog (Abi.Registry.empty.registerEvent e) 1 (announcing e words data) 0
    0).parameters = shown
  other : ¬ Shows shown e.inputs arguments

/-- Of a number in seventeen arrays nothing is shown. -/
theorem loses_nesting :
    Loses nesting [nestedType 17] [nestedValue 17] [] (Abi.wordOf 5) [] := by
  have encodes : nesting.Encodes [nestedType 17] [nestedValue 17]
      (announcing nesting [] (Abi.wordOf 5)).topics (Abi.wordOf 5) :=
    ⟨rfl, by decide, rfl, by decide, by decide, ⟨_, rfl, rfl⟩, by cbv, by decide⟩
  have shown : ShowsReadable (readEvent nesting (announcing nesting [] (Abi.wordOf 5)))
      nesting.inputs [nestedType 17] [nestedValue 17] :=
    showsReadable_readEvent encodes ⟨rfl, Abi.Event.keepsBytes_of_resolved rfl (by decide)⟩
  refine ⟨event?_registerEvent _ _ _, encodes, ?_, fun shows => ?_⟩
  · rw [parameters_announcing]
    exact shown.unreadable (by decide)
  · cases shows.names

/-- Of a list of empty tuples it is not shown how many there are. -/
theorem loses_counting :
    Loses counting [.array (.tuple []), .uint 256] [.array [.tuple [], .tuple []], .uint 5] []
      countingData [⟨"all", "()[]", .array []⟩, ⟨"n", "uint256", .uint 5⟩] := by
  have short : countingData.length < UInt64.size := by cbv
  have read : Abi.decodeBody [.array (.tuple []), .uint 256] countingData =
      some [.array [], .uint 5] := rfl
  refine ⟨event?_registerEvent _ _ _, ?_, ?_, fun shows => ?_⟩
  · exact ⟨rfl, by decide, rfl, by decide, by decide, ⟨_, rfl, rfl⟩, rfl, short⟩
  · rw [parameters_announcing, readEvent_announcing rfl (by decide) rfl rfl rfl read]
    rfl
  · cases shows.values

/-- Where an empty tuple is all that the data holds, the number that follows it is shown in its
place. -/
theorem loses_signalling :
    Loses signalling [.tuple [], .uint 256] [.tuple [], .uint 5] [5] []
      [⟨"mark", "()", .uint 5⟩] := by
  have read : Abi.decodeBody [.tuple []] [] = some [] := rfl
  refine ⟨event?_registerEvent _ _ _, ?_, ?_, fun shows => ?_⟩
  · exact ⟨rfl, by decide, rfl, by decide, by decide, ⟨_, rfl, by decide⟩, rfl, by decide⟩
  · rw [parameters_announcing, readEvent_announcing rfl (by decide) rfl rfl rfl read]
    rfl
  · cases shows.names

/-- Encoded arguments are not shown if they are too deep, if an array has items that take no bytes,
or if all in the data takes none. -/
theorem lost_arguments_are_not_shown :
    Loses nesting [nestedType 17] [nestedValue 17] [] (Abi.wordOf 5) [] ∧
    Loses counting [.array (.tuple []), .uint 256] [.array [.tuple [], .tuple []], .uint 5] []
      countingData [⟨"all", "()[]", .array []⟩, ⟨"n", "uint256", .uint 5⟩] ∧
    Loses signalling [.tuple [], .uint 256] [.tuple [], .uint 5] [5] []
      [⟨"mark", "()", .uint 5⟩] :=
  ⟨loses_nesting, loses_counting, loses_signalling⟩

end EvmInspect.Trace
