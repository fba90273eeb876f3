import EvmInspect.Proofs.Abi.Arity
import EvmInspect.Proofs.Trace.Emitters
import Mathlib.Data.List.Forall2

/-!
# Decoded runs are consistent

A decoded record is put together from several parts, some of which may be missing: the item
that the registry knows, the values that could be read, the error of a call that reverted. For
any registry and any trace the parts fit together. What is said to be decoded has its item, and
the values shown are those of the item's parameters, one for each, or none
(`Parameter.NoneOrEach`); errors go with reverted calls and repeat the bytes they were read from.

The parts are looked at one by one: an error (`consistent_decodeRevert`), a log
(`consistent_decodeLog`), a call (`consistent_decodeCall` and what came back from it). A run is
made of these, so `decodeRun_consistent` only has to find each record of the run among them.
-/

namespace EvmInspect.Trace

/-! ## Parameters -/

/-- No parameters are shown, or those declared, one by one with their names and types. -/
def Parameter.NoneOrEach (declared : List Abi.Param) (shown : List Parameter) : Prop :=
  shown = [] ∨
    shown.map (fun p => (p.name, p.type)) = declared.map fun p => (p.name, p.type)

theorem Parameter.noneOrEach_zip {declared : List Abi.Param} {values : List Abi.Value}
    (each : values.length = declared.length) :
    NoneOrEach declared (Parameter.zip declared values) := by
  refine .inr ?_
  induction declared generalizing values with
  | nil => rfl
  | cons p declared ih =>
    cases values with
    | nil => cases each
    | cons v values => exact congrArg ((p.name, p.type) :: ·) (ih (Nat.succ.inj each))

theorem noneOrEach_readParameters (declared : List Abi.Param) (data : Bytes) :
    Parameter.NoneOrEach declared (readParameters declared data) := by
  unfold readParameters
  cases resolved : Abi.Param.resolveAll? declared with
  | none => exact .inl rfl
  | some types =>
    cases decoded : Abi.decodeParams types data with
    | none =>
      simp only [decoded]
      exact .inl rfl
    | some values =>
      simp only [decoded]
      apply Parameter.noneOrEach_zip
      rw [Abi.length_decodeParams decoded, Abi.length_resolveAll? resolved]

theorem noneOrEach_readEvent {event : Abi.Event} (yields : event.YieldsEach) (log : RawLog) :
    Parameter.NoneOrEach event.inputs (readEvent event log) := by
  unfold readEvent
  cases decoded : event.decode? log.topics log.data with
  | none => exact .inl rfl
  | some values =>
    obtain ⟨inTopics, inData⟩ := yields _ _ _ _ decoded
    exact Parameter.noneOrEach_zip (Abi.length_interleave inTopics inData)

/-! ## Errors -/

/-- The parts of an error read from `data` fit together. -/
structure DecodedError.Consistent (error : DecodedError) (data : Bytes) : Prop where
  rawData : error.rawData = data
  decoded : error.isDecoded = true ↔ error.isStandard = true ∨ error.error.isSome = true
  standard : error.isStandard = true → error.error = none ∧ ∃ p, error.parameters = [p]
  described : ∀ item, error.error = some item →
    error.isStandard = false ∧ Parameter.NoneOrEach item.inputs error.parameters
  unknown : error.isDecoded = false → error.parameters = []

theorem consistent_unknownError (data : Bytes) : (unknownError data).Consistent data where
  rawData := rfl
  decoded := by simp [unknownError]
  standard := nofun
  described := nofun
  unknown _ := rfl

theorem consistent_customError (item : Abi.CustomError) (body data : Bytes) :
    (customError item body data).Consistent data where
  rawData := rfl
  decoded := by simp [customError]
  standard := nofun
  described := by
    intro same known
    cases known
    exact ⟨rfl, noneOrEach_readParameters item.inputs body⟩
  unknown := nofun

variable (registry : Abi.Registry) (chain : UInt64)

/-- Whatever a revert comes with, its reason is consistent. -/
theorem consistent_decodeRevert (contract : Option Address) (data : Bytes) :
    (decodeRevert registry chain contract data).Consistent data := by
  unfold decodeRevert
  cases Abi.Registry.splitSelector? data with
  | none => exact consistent_unknownError data
  | some parts =>
    obtain ⟨selector, body⟩ := parts
    dsimp only
    cases standardError? selector body with
    | none =>
      dsimp only
      cases contract.bind fun address => registry.error? chain address selector with
      | none => exact consistent_unknownError data
      | some item => exact consistent_customError item body data
    | some reading =>
      cases reading with
      | none => exact consistent_unknownError data
      | some standard =>
        exact {
          rawData := rfl
          decoded := by simp
          standard := fun _ => ⟨rfl, _, rfl⟩
          described := nofun
          unknown := nofun }

/-! ## Logs -/

/-- The parts of a log fit together. Its values are as many as the event's parameters if the
event gives a value for each of them. -/
structure DecodedLog.Consistent (log : DecodedLog) : Prop where
  decoded : log.isDecoded = true ↔ log.event.isSome = true
  unknown : log.event = none → log.parameters = []
  parameters : ∀ event, log.event = some event → event.YieldsEach →
    Parameter.NoneOrEach event.inputs log.parameters

theorem consistent_decodeLog (log : RawLog) (logIndex : UInt64) (callDepth : Nat) :
    (decodeLog registry chain log logIndex callDepth).Consistent := by
  unfold decodeLog
  dsimp only
  cases log.topics.head?.bind fun topic => registry.event? chain log.address topic with
  | none =>
    exact { decoded := Iff.rfl, unknown := fun _ => rfl, parameters := nofun }
  | some known =>
    exact {
      decoded := Iff.rfl
      unknown := nofun
      parameters := by
        intro event same yields
        cases same
        exact noneOrEach_readEvent yields log }

/-! ## Calls -/

/-- The parts of a call that come from what it was sent with fit together. -/
structure DecodedFrame.Sent (frame : DecodedFrame) (call : CallInput) : Prop where
  decoded : frame.isDecoded = true ↔ frame.function.isSome = true
  targeted : call.target = none → frame.isDecoded = false
  selected : call.data.length < 4 → frame.isDecoded = false
  named : frame.contractName.isSome = true → frame.isDecoded = true
  unread : frame.function = none → frame.inputs = []
  inputs : ∀ f, frame.function = some f → Parameter.NoneOrEach f.inputs frame.inputs

/-- The parts of a call fit together, with what came back from it and with its logs. -/
structure DecodedFrame.Consistent (frame : DecodedFrame) (made : InnerCall) : Prop
    extends DecodedFrame.Sent frame made.call where
  verbatim : Verbatim frame made.call made.output made.reverted made.gasUsed
  silent : frame.function = none → frame.outputs = []
  outputs : ∀ f, frame.function = some f → Parameter.NoneOrEach f.outputs frame.outputs
  failed : frame.error.isSome = true ↔ frame.isReverted = true
  reverted : frame.isReverted = true → frame.outputs = []
  error : ∀ error, frame.error = some error → error.Consistent frame.rawOutput
  logs : ∀ log ∈ frame.logs, log.Consistent

theorem sent_decodeCall (call : CallInput) (depth : Nat) :
    (decodeCall registry chain call depth).Sent call := by
  have raw : (DecodedFrame.raw call depth).Sent call :=
    { decoded := by simp [DecodedFrame.raw]
      targeted := fun _ => rfl
      selected := fun _ => rfl
      named := nofun
      unread := fun _ => rfl
      inputs := nofun }
  unfold decodeCall
  cases target : call.target with
  | none => exact raw
  | some address =>
    dsimp only
    cases known : registry.function? chain address call.data with
    | none => exact raw
    | some function =>
      exact {
        decoded := by simp
        targeted := by simp [target]
        selected := by
          intro short
          -- Without four bytes there is no selector, and without one no function is found.
          simp [Abi.Registry.function?, Abi.Registry.splitSelector?, short] at known
        named := fun _ => rfl
        unread := nofun
        inputs := by
          intro f same
          cases same
          exact noneOrEach_readParameters _ _ }

theorem decodeReturn_none (output : Bytes) : decodeReturn none output = [] := rfl

theorem noneOrEach_decodeReturn (f : Abi.Function) (output : Bytes) :
    Parameter.NoneOrEach f.outputs (decodeReturn (some f) output) := by
  unfold decodeReturn
  dsimp only
  split
  · exact .inl rfl
  · exact noneOrEach_readParameters f.outputs output

/-- Whatever came back from a call, it is decoded consistently. -/
theorem consistent_withOutcome {frame : DecodedFrame} (made : InnerCall) (depth : Nat)
    (decoded : (decodeCall registry chain made.call depth).withOutcome registry chain made.output
      made.reverted made.gasUsed = frame) {own : List DecodedLog}
    (logs : ∀ log ∈ own, log.Consistent) :
    ({ frame with logs := own } : DecodedFrame).Consistent made := by
  have sent := sent_decodeCall registry chain made.call depth
  obtain ⟨verbatim, _, _⟩ := withOutcome_decodeCall registry chain made.call depth made.output
    made.reverted made.gasUsed decoded
  subst decoded
  generalize decodeCall registry chain made.call depth = call at sent verbatim ⊢
  exact {
    toSent := { sent with }
    verbatim := verbatim.withLogs own
    silent := by
      intro none
      simp only [DecodedFrame.withOutcome] at none ⊢
      rw [none, decodeReturn_none, ite_self]
    outputs := by
      intro f known
      simp only [DecodedFrame.withOutcome] at known ⊢
      rw [known]
      split
      · exact .inl rfl
      · exact noneOrEach_decodeReturn f _
    failed := by
      simp only [DecodedFrame.withOutcome]
      cases made.reverted <;> simp
    reverted := by
      intro reverted
      simp only [DecodedFrame.withOutcome] at reverted ⊢
      exact if_pos reverted
    error := by
      intro error same
      simp only [DecodedFrame.withOutcome] at same ⊢
      split at same
      · cases same
        exact consistent_decodeRevert registry chain _ _
      · cases same
    logs := logs }

/-! ## Runs -/

/-- The calls of a run with what came back from them, the outermost first. -/
def RunResult.calls (call : CallInput) (result : RunResult) : List InnerCall :=
  ⟨call, some 0, result.output, result.reverted, result.gasUsed⟩ :: result.innerCalls

/-- The parts of a decoded run fit together. -/
structure DecodedExecution.Consistent (run : DecodedExecution) (call : CallInput)
    (result : RunResult) : Prop where
  calls : List.Forall₂ DecodedFrame.Consistent run.root.walk (result.calls call)
  logs : ∀ log ∈ run.logs, log.Consistent
  success : run.isSuccess = true ↔ result.reverted = false
  failed : run.revertReason.isSome = true ↔ run.isSuccess = false
  reason : ∀ error, run.revertReason = some error → error.Consistent result.output

variable (call : CallInput) (result : RunResult)

/-- Every log of a run is one that was decoded. -/
theorem consistent_numberedLogs :
    ∀ numbered ∈ numberedLogs registry chain call result, numbered.2.Consistent := by
  intro numbered mem
  obtain ⟨i, here⟩ := List.getElem?_of_mem mem
  rw [numberedLogs, getElem?_decodeLogs] at here
  obtain ⟨log, _, rfl⟩ := Option.map_eq_some_iff.mp here
  exact consistent_decodeLog registry chain log _ _

/-- The call in each place of the walk is consistent with what the trace says of it. -/
theorem consistent_walk {i : Nat} {frame : DecodedFrame} {made : InnerCall}
    (shown : (decodeRun registry chain call result).root.walk[i]? = some frame)
    (recorded : (result.calls call)[i]? = some made) : frame.Consistent made := by
  rw [getElem?_walk_eq] at shown
  obtain ⟨bare, decoded, rfl⟩ := Option.map_eq_some_iff.mp shown
  have own : ∀ log ∈ ((numberedLogs registry chain call result).filter fun l => l.1 == i).map
      Prod.snd, log.Consistent := by
    intro log mem
    obtain ⟨numbered, kept, rfl⟩ := List.mem_map.mp mem
    exact consistent_numberedLogs registry chain call result numbered (List.mem_filter.mp kept).1
  cases i with
  | zero =>
    cases recorded
    cases decoded
    exact consistent_withOutcome registry chain
      ⟨call, some 0, result.output, result.reverted, result.gasUsed⟩ 0 rfl own
  | succ i =>
    obtain ⟨depth, same⟩ := getElem?_decodeFrames registry chain call result recorded
    cases decoded.symm.trans same
    exact consistent_withOutcome registry chain made depth rfl own

/-- For any registry and any trace, all records of a decoded run are consistent, and so are the
reason read from any revert data and the decoding of any log. -/
theorem decodeRun_consistent :
    (decodeRun registry chain call result).Consistent call result ∧
      (∀ contract data, (decodeRevert registry chain contract data).Consistent data) ∧
      ∀ log logIndex depth, (decodeLog registry chain log logIndex depth).Consistent := by
  refine ⟨?_, consistent_decodeRevert registry chain, consistent_decodeLog registry chain⟩
  have counted : (decodeRun registry chain call result).root.walk.length =
      (result.calls call).length := by
    rw [walk_decodeRun, length_attachLogs, length_decodeFrames, RunResult.calls, List.length_cons]
  exact {
    calls := by
      refine List.forall₂_iff_zip.mpr ⟨counted, ?_⟩
      intro frame made mem
      obtain ⟨i, here⟩ := List.getElem?_of_mem mem
      obtain ⟨shown, recorded⟩ := List.getElem?_zip_eq_some.mp here
      exact consistent_walk registry chain call result shown recorded
    logs := by
      intro log mem
      obtain ⟨numbered, there, rfl⟩ := List.mem_map.mp mem
      exact consistent_numberedLogs registry chain call result numbered there
    success := by simp [decodeRun]
    failed := by
      simp only [decodeRun, decodeOutermost, DecodedFrame.withOutcome]
      cases result.reverted <;> simp
    reason := by
      intro error same
      simp only [decodeRun, decodeOutermost, DecodedFrame.withOutcome] at same
      split at same
      · cases same
        exact consistent_decodeRevert registry chain _ _
      · cases same }

end EvmInspect.Trace
