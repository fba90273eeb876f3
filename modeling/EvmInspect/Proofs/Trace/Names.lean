import EvmInspect.Proofs.Abi.Names
import EvmInspect.Proofs.Trace.Emitters

/-!
# The names in a decoded run

Decoding makes up no names: the contracts, functions, events and parameters of a decoded run go
by the names that the registry knows them by. So whatever holds of all names in a registry holds
of those that the calls and the logs of a run are shown with (`namesAre_walk`, `namesAre_logs`).
-/

namespace EvmInspect.Trace

variable {good : String → Prop}

/-- The names that a call is shown with are good. -/
structure DecodedFrame.NamesAre (good : String → Prop) (frame : DecodedFrame) : Prop where
  contract : ∀ name, frame.contractName = some name → good name
  function : ∀ f, frame.function = some f → good f.name
  inputs : ∀ p ∈ frame.inputs, good p.name

/-- The names that a log is shown with are good. -/
structure DecodedLog.NamesAre (good : String → Prop) (log : DecodedLog) : Prop where
  contract : ∀ name, log.contractName = some name → good name
  event : ∀ e, log.event = some e → good e.name
  parameters : ∀ p ∈ log.parameters, good p.name

section Parameters

variable {params : List Abi.Param} (names : ∀ p ∈ params, good p.name)

include names

theorem names_zip (values : List Abi.Value) : ∀ p ∈ Parameter.zip params values, good p.name := by
  intro p mem
  rw [Parameter.zip, ← List.map_uncurry_zip_eq_zipWith] at mem
  obtain ⟨⟨declared, value⟩, pair, rfl⟩ := List.mem_map.mp mem
  exact names declared (List.of_mem_zip pair).1

theorem names_readParameters (data : Bytes) :
    ∀ p ∈ readParameters params data, good p.name := by
  unfold readParameters
  split
  · exact fun _ mem => absurd mem List.not_mem_nil
  · split
    · exact names_zip names _
    · exact fun _ mem => absurd mem List.not_mem_nil

end Parameters

theorem names_readEvent {event : Abi.Event} (names : ∀ p ∈ event.inputs, good p.name)
    (log : RawLog) : ∀ p ∈ readEvent event log, good p.name := by
  unfold readEvent
  split
  · exact names_zip names _
  · exact fun _ mem => absurd mem List.not_mem_nil

variable {registry : Abi.Registry} (names : registry.NamesAre good) (chain : UInt64)

include names

theorem namesAre_decodeCall (call : CallInput) (depth : Nat) :
    (decodeCall registry chain call depth).NamesAre good := by
  have raw : (DecodedFrame.raw call depth).NamesAre good :=
    ⟨fun _ none => (Option.some_ne_none _ none.symm).elim,
      fun _ none => (Option.some_ne_none _ none.symm).elim,
      fun _ mem => absurd mem List.not_mem_nil⟩
  unfold decodeCall
  cases call.target with
  | none => exact raw
  | some target =>
    dsimp only
    cases known : registry.function? chain target call.data with
    | none => exact raw
    | some function =>
      have item := names.function known
      exact ⟨fun _ named => names.name named, fun _ same => Option.some.inj same ▸ item.name,
        names_readParameters item.inputs _⟩

theorem namesAre_decodeLog (log : RawLog) (logIndex : UInt64) (callDepth : Nat) :
    (decodeLog registry chain log logIndex callDepth).NamesAre good := by
  have announced : ∀ e, (log.topics.head?.bind fun topic =>
      registry.event? chain log.address topic) = some e → Abi.NamesAre good e.name e.inputs := by
    intro e found
    obtain ⟨topic, _, known⟩ := Option.bind_eq_some_iff.mp found
    exact names.event known
  refine ⟨fun _ named => names.name named, fun e found => (announced e found).name, ?_⟩
  unfold decodeLog
  dsimp only
  cases found : log.topics.head?.bind fun topic => registry.event? chain log.address topic with
  | none => exact fun _ mem => absurd mem List.not_mem_nil
  | some e => exact names_readEvent (announced e found).inputs log

/-- The calls of a decoded run have good names. -/
theorem namesAre_walk (call : CallInput) (result : RunResult) :
    ∀ frame ∈ (decodeRun registry chain call result).root.walk, frame.NamesAre good := by
  have decoded : ∀ frame ∈ decodeFrames registry chain call result, frame.NamesAre good := by
    intro frame mem
    rcases List.mem_cons.mp mem with rfl | inner
    · exact { namesAre_decodeCall names chain call 0 with }
    · rw [← List.map_uncurry_zip_eq_zipWith] at inner
      obtain ⟨⟨c, depth⟩, _, rfl⟩ := List.mem_map.mp inner
      exact { namesAre_decodeCall names chain c.call depth with }
  intro frame mem
  obtain ⟨k, here⟩ := List.getElem?_of_mem mem
  rw [getElem?_walk_eq] at here
  obtain ⟨bare, there, rfl⟩ := Option.map_eq_some_iff.mp here
  exact { decoded bare (List.mem_of_getElem? there) with }

/-- The logs of a decoded run have good names. -/
theorem namesAre_logs (call : CallInput) (result : RunResult) :
    ∀ log ∈ (decodeRun registry chain call result).logs, log.NamesAre good := by
  intro log mem
  rw [logs_decodeRun, numberedLogs, decodeLogs, List.map_map] at mem
  obtain ⟨⟨raw, position⟩, _, rfl⟩ := List.mem_map.mp mem
  exact namesAre_decodeLog names chain raw _ _

end EvmInspect.Trace
