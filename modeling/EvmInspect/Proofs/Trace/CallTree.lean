import EvmInspect.Proofs.Trace.Gather
import EvmInspect.Trace.Execution

/-!
# The call tree of a run

The tree of calls is read back from the depths in the trace, whatever they are. Its walk is
the list of decoded calls, each with its own logs (`walk_decodeRun`), so no call is lost,
doubled or moved; where a call hangs and how deep it sits follow from its depth and those
before it (`Attached`). `Reconstructs` says both.
-/

namespace EvmInspect.Trace

variable (registry : Abi.Registry) (chain : UInt64)

/-! ## Decoded calls -/

/-- What a decoded call repeats of a call and of what came back from it. -/
structure Verbatim (frame : DecodedFrame) (call : CallInput) (output : Bytes) (reverted : Bool)
    (gasUsed : Option UInt64) : Prop where
  sender : frame.sender = call.sender
  target : frame.target = call.target
  value : frame.value = call.value
  rawInput : frame.rawInput = call.data
  rawOutput : frame.rawOutput = output
  gasUsed : frame.gasUsed = gasUsed
  isReverted : frame.isReverted = reverted

/-- Decoding a call adds to what is known of it without decoding. -/
theorem decodeCall_raw (call : CallInput) (depth : Nat) :
    ∃ function name inputs isDecoded, decodeCall registry chain call depth =
      { DecodedFrame.raw call depth with
        function := function, contractName := name, inputs := inputs, isDecoded := isDecoded } := by
  unfold decodeCall
  cases call.target with
  | none => exact ⟨_, _, _, _, rfl⟩
  | some target =>
    dsimp only
    cases registry.function? chain target call.data with
    | none => exact ⟨_, _, _, _, rfl⟩
    | some function => exact ⟨_, _, _, _, rfl⟩

/-- Decoding a call repeats what the trace says, and gives the call no logs yet. -/
theorem withOutcome_decodeCall (call : CallInput) (depth : Nat) (output : Bytes) (reverted : Bool)
    (gasUsed : Option UInt64) {frame : DecodedFrame}
    (decoded : (decodeCall registry chain call depth).withOutcome registry chain output reverted
      gasUsed = frame) :
    Verbatim frame call output reverted gasUsed ∧ frame.depth = depth ∧ frame.logs = [] := by
  obtain ⟨_, _, _, _, same⟩ := decodeCall_raw registry chain call depth
  rw [same] at decoded
  subst decoded
  exact ⟨⟨rfl, rfl, rfl, rfl, rfl, rfl, rfl⟩, rfl, rfl⟩

theorem Verbatim.withLogs {frame : DecodedFrame} {call : CallInput} {output : Bytes}
    {reverted : Bool} {gasUsed : Option UInt64} (h : Verbatim frame call output reverted gasUsed)
    (logs : List DecodedLog) : Verbatim { frame with logs := logs } call output reverted gasUsed :=
  ⟨h.sender, h.target, h.value, h.rawInput, h.rawOutput, h.gasUsed, h.isReverted⟩

/-- A call that has no logs is what is left of it when those it was given are taken away. -/
theorem DecodedFrame.eq_of_logs_nil {frame : DecodedFrame} (none : frame.logs = [])
    (own : List DecodedLog) :
    ({ { frame with logs := own } with logs := [] } : DecodedFrame) = frame := by
  cases frame
  cases none
  rfl

/-! ## The walk -/

section Attach

variable (frames : List DecodedFrame) (logs : List (Nat × DecodedLog))

theorem length_attachLogs : (attachLogs frames logs).length = frames.length := by
  simp only [attachLogs, List.length_map, List.length_zipIdx]

/-- Giving out the logs changes nothing else of a call. -/
theorem getElem?_attachLogs (i : Nat) :
    (attachLogs frames logs)[i]? = frames[i]?.map fun frame =>
      { frame with logs := (logs.filter fun l => l.1 == i).map Prod.snd } := by
  simp only [attachLogs, List.getElem?_map, List.getElem?_zipIdx, Option.map_map, Nat.zero_add]
  rfl

/-- What does not look at the logs sees no difference when they are given out. -/
theorem map_attachLogs {β : Type} {f : DecodedFrame → β}
    (blind : ∀ frame logs, f { frame with logs := logs } = f frame) :
    (attachLogs frames logs).map f = frames.map f := by
  rw [attachLogs, List.map_map]
  conv => rhs; rw [← List.zipIdx_map_fst 0 frames, List.map_map]
  apply List.map_congr_left
  intro numbered _
  exact blind numbered.1 _

end Attach

variable (call : CallInput) (result : RunResult)

theorem length_decodeFrames :
    (decodeFrames registry chain call result).length = result.innerCalls.length + 1 := by
  simp only [decodeFrames, List.length_cons, List.length_zipWith, length_levels, List.length_map,
    Nat.min_self]

theorem map_depth_decodeInner (calls : List InnerCall) {depths : List Nat}
    (same : depths.length = calls.length) :
    (List.zipWith (decodeInner registry chain) calls depths).map DecodedFrame.depth = depths := by
  induction calls generalizing depths with
  | nil =>
    rw [List.length_eq_zero_iff.mp same]
    rfl
  | cons c calls ih =>
    cases depths with
    | nil => cases same
    | cons depth depths =>
      obtain ⟨_, deep, _⟩ :=
        withOutcome_decodeCall registry chain c.call depth c.output c.reverted c.gasUsed rfl
      rw [List.zipWith_cons_cons, List.map_cons, ih (Nat.succ.inj same)]
      exact congrArg (· :: depths) deep

/-- Calls are decoded at the levels of their depths. -/
theorem map_depth_decodeFrames :
    (decodeFrames registry chain call result).map DecodedFrame.depth =
      0 :: levels [] (result.innerCalls.map InnerCall.traceDepth) := by
  have placed : (levels [] (result.innerCalls.map InnerCall.traceDepth)).length =
      result.innerCalls.length := by
    rw [length_levels, List.length_map]
  obtain ⟨_, top, _⟩ :=
    withOutcome_decodeCall registry chain call 0 result.output result.reverted result.gasUsed rfl
  unfold decodeFrames
  rw [List.map_cons, map_depth_decodeInner registry chain result.innerCalls placed]
  exact congrArg (· :: _) top

theorem getElem?_decodeFrames {i : Nat} {c : InnerCall} (here : result.innerCalls[i]? = some c) :
    ∃ depth, (decodeFrames registry chain call result)[i + 1]? =
      some (decodeInner registry chain c depth) := by
  have inside : i < (levels [] (result.innerCalls.map InnerCall.traceDepth)).length := by
    rw [length_levels, List.length_map]
    exact (List.getElem?_eq_some_iff.mp here).1
  refine ⟨(levels [] (result.innerCalls.map InnerCall.traceDepth))[i], ?_⟩
  rw [decodeFrames, List.getElem?_cons_succ, List.getElem?_zipWith, here,
    List.getElem?_eq_getElem inside]

/-- The tree's walk is the list of all calls, the outermost first, each with its logs, and
its shape is that of the depths. -/
theorem exists_treeOf_decodeRun :
    ∃ root inner, inner.length = result.innerCalls.length ∧
      root :: inner = attachLogs (decodeFrames registry chain call result)
        (decodeLogs registry chain result.innerCalls (decodeFrames registry chain call result)
          result.logs) ∧
      (decodeRun registry chain call result).root =
        treeOf root ((result.innerCalls.map InnerCall.traceDepth).zip inner) := by
  have length := length_attachLogs (decodeFrames registry chain call result)
    (decodeLogs registry chain result.innerCalls (decodeFrames registry chain call result)
      result.logs)
  rw [length_decodeFrames] at length
  unfold decodeRun callTree
  dsimp only
  cases attached : attachLogs (decodeFrames registry chain call result)
      (decodeLogs registry chain result.innerCalls (decodeFrames registry chain call result)
        result.logs) with
  | nil =>
    rw [attached] at length
    cases length
  | cons root inner =>
    rw [attached, List.length_cons] at length
    exact ⟨root, inner, Nat.succ.inj length, rfl, rfl⟩

theorem walk_decodeRun :
    (decodeRun registry chain call result).root.walk =
      attachLogs (decodeFrames registry chain call result)
        (decodeLogs registry chain result.innerCalls (decodeFrames registry chain call result)
          result.logs) := by
  obtain ⟨root, inner, length, frames, tree⟩ := exists_treeOf_decodeRun registry chain call result
  have traced : inner.length ≤ (result.innerCalls.map InnerCall.traceDepth).length := by
    rw [List.length_map, length]
  rw [← frames, tree, walk_treeOf, List.map_snd_zip traced]

/-- Each call stands in the walk where it was executed. -/
theorem getElem?_walk_decodeRun {i : Nat} {frame : DecodedFrame}
    (here : (decodeFrames registry chain call result)[i]? = some frame) :
    ∃ own,
      (decodeRun registry chain call result).root.walk[i]? = some { frame with logs := own } := by
  rw [walk_decodeRun, getElem?_attachLogs, here]
  exact ⟨_, rfl⟩

theorem map_depth_walk_decodeRun :
    (decodeRun registry chain call result).root.walk.map DecodedFrame.depth =
      0 :: levels [] (result.innerCalls.map InnerCall.traceDepth) := by
  rw [walk_decodeRun, map_attachLogs _ _ fun _ _ => rfl, map_depth_decodeFrames]

/-! ## The shape -/

/-- The depths that count for the shape of a run's tree, the outermost call first. -/
def RunResult.traceDepths (result : RunResult) : List Nat :=
  0 :: result.innerCalls.map InnerCall.traceDepth

theorem parents_decodeRun :
    (decodeRun registry chain call result).root.parents =
      none :: hangUnder (fun _ => some 0) 1 (result.innerCalls.map InnerCall.traceDepth) := by
  obtain ⟨root, inner, length, _, tree⟩ := exists_treeOf_decodeRun registry chain call result
  have traced : (result.innerCalls.map InnerCall.traceDepth).length ≤ inner.length := by
    rw [List.length_map, length]
  rw [tree, parents_treeOf, List.map_fst_zip traced]

/-- An inner call hangs under the last call before it that is less deep. -/
theorem attached_decodeRun {i : Nat} {c : InnerCall} (here : result.innerCalls[i]? = some c) :
    ∃ j, (decodeRun registry chain call result).root.parents[i + 1]? = some (some j) ∧
      Attached result.traceDepths
        ((decodeRun registry chain call result).root.walk.map DecodedFrame.depth) (i + 1)
        c.traceDepth j := by
  have deep : ∀ d ∈ result.innerCalls.map InnerCall.traceDepth, 0 < d := by
    intro d mem
    obtain ⟨c, _, rfl⟩ := List.mem_map.mp mem
    exact Nat.le_max_right _ 1
  have depthAt : (result.innerCalls.map InnerCall.traceDepth)[i]? = some c.traceDepth := by
    rw [List.getElem?_map, here]
    rfl
  rw [parents_decodeRun, map_depth_walk_decodeRun]
  exact attached_levels deep depthAt

/-- A tree is the call tree of a run: all calls in order of execution, each decoded at the
depth at which it hangs. -/
structure Reconstructs (t : DecodedCall) : Prop where
  count : t.count = result.innerCalls.length + 1
  walked : t.walk.length = t.count
  subtrees : t.subtrees.map Tree.value = t.walk
  outermost : ∃ frame, t.walk[0]? = some frame ∧ t.parents[0]? = some none ∧
    { frame with logs := [] } = decodeOutermost registry chain call result ∧ frame.depth = 0 ∧
    Verbatim frame call result.output result.reverted result.gasUsed
  inner : ∀ i c, result.innerCalls[i]? = some c → ∃ frame, t.walk[i + 1]? = some frame ∧
    { frame with logs := [] } = decodeInner registry chain c frame.depth ∧
    Verbatim frame c.call c.output c.reverted c.gasUsed
  attached : ∀ i c, result.innerCalls[i]? = some c → ∃ j above below,
    t.parents[i + 1]? = some (some j) ∧
    t.subtrees[j]? = some above ∧ t.subtrees[i + 1]? = some below ∧ below ∈ above.children ∧
    Attached result.traceDepths (t.walk.map DecodedFrame.depth) (i + 1) c.traceDepth j

/-- Whatever the depths in a trace are, its calls make up the tree in order, each below the
last call before it that is less deep. -/
theorem decodeRun_reconstructs :
    Reconstructs registry chain call result (decodeRun registry chain call result).root where
  count := by
    rw [← Tree.length_walk, walk_decodeRun, length_attachLogs, length_decodeFrames]
  walked := Tree.length_walk _
  subtrees := Tree.map_value_subtrees _
  outermost := by
    obtain ⟨verbatim, depth, none⟩ :=
      withOutcome_decodeCall registry chain call 0 result.output result.reverted result.gasUsed rfl
    have first : (decodeFrames registry chain call result)[0]? =
      some (decodeOutermost registry chain call result) := rfl
    obtain ⟨own, shown⟩ := getElem?_walk_decodeRun registry chain call result first
    refine ⟨_, shown, ?_, DecodedFrame.eq_of_logs_nil none own, depth, verbatim.withLogs own⟩
    rw [parents_decodeRun]
    rfl
  inner i c here := by
    obtain ⟨depth, decoded⟩ := getElem?_decodeFrames registry chain call result here
    obtain ⟨verbatim, deep, none⟩ :=
      withOutcome_decodeCall registry chain c.call depth c.output c.reverted c.gasUsed rfl
    obtain ⟨own, shown⟩ := getElem?_walk_decodeRun registry chain call result decoded
    refine ⟨_, shown, ?_, verbatim.withLogs own⟩
    calc _ = decodeInner registry chain c depth := DecodedFrame.eq_of_logs_nil none own
      _ = decodeInner registry chain c (decodeInner registry chain c depth).depth :=
        congrArg (decodeInner registry chain c) deep.symm
  attached i c here := by
    obtain ⟨j, hung, attached⟩ := attached_decodeRun registry chain call result here
    obtain ⟨above, below, place, place', mem⟩ := Tree.isChild_of_parents hung
    exact ⟨j, above, below, hung, place, place', mem, attached⟩

end EvmInspect.Trace
