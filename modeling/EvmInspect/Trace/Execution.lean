import EvmInspect.Abi.Log
import EvmInspect.Trace.Revert

/-!
# Decoding a recorded execution

Each call is decoded by itself. The shape of the call tree comes from the recorded
depths, and each log belongs to exactly one call: the one it names, or else the last
inner call into the address that emitted it, or else the outermost.
-/

namespace EvmInspect.Trace

variable (registry : Abi.Registry) (chain : UInt64)

/-- Decodes what a call was sent with. A call without a target is not looked up: its data
is the code that makes a contract. -/
def decodeCall (call : CallInput) (depth : Nat) : DecodedFrame :=
  let raw := DecodedFrame.raw call depth
  match call.target with
  | none => raw
  | some target =>
    match registry.function? chain target call.data with
    | none => raw
    | some function =>
      { raw with
        function := some function
        contractName := registry.name? chain target
        inputs := readParameters function.inputs (call.data.drop 4)
        isDecoded := true }

/-- Decodes what a function gave back; nothing where it declares nothing or gave nothing. -/
def decodeReturn (function : Option Abi.Function) (output : Bytes) : List Parameter :=
  match function with
  | none => []
  | some function =>
    if function.outputs.isEmpty || output.isEmpty then []
    else readParameters function.outputs output

/-- The values of an event's parameters, in the order of declaration. -/
def readEvent (event : Abi.Event) (log : RawLog) : List Parameter :=
  match event.decode? log.topics log.data with
  | some (indexed, body) => Parameter.zip event.inputs (Abi.interleave event.inputs indexed body)
  | none => []

/-- Decodes a log. -/
def decodeLog (log : RawLog) (logIndex : UInt64) (callDepth : Nat) : DecodedLog :=
  let event := log.topics.head?.bind fun topic => registry.event? chain log.address topic
  { address := log.address
    contractName := registry.name? chain log.address
    event
    parameters := (event.map fun event => readEvent event log).getD []
    isDecoded := event.isSome
    logIndex
    callDepth }

/-- Adds to a decoded call what came back from it. -/
def DecodedFrame.withOutcome (frame : DecodedFrame) (output : Bytes) (reverted : Bool)
    (gasUsed : Option UInt64) : DecodedFrame :=
  { frame with
    rawOutput := output
    gasUsed
    isReverted := reverted
    outputs := if reverted then [] else decodeReturn frame.function output
    error := if reverted then some (decodeRevert registry chain frame.target output) else none }

/-- Decodes an inner call. -/
def decodeInner (inner : InnerCall) (depth : Nat) : DecodedFrame :=
  (decodeCall registry chain inner.call depth).withOutcome registry chain
    inner.output inner.reverted inner.gasUsed

/-- Decodes the outermost call. -/
def decodeOutermost (call : CallInput) (result : RunResult) : DecodedFrame :=
  (decodeCall registry chain call 0).withOutcome registry chain
    result.output result.reverted result.gasUsed

/-- The calls of a run in order of execution, the outermost first. -/
def decodeFrames (call : CallInput) (result : RunResult) : List DecodedFrame :=
  decodeOutermost registry chain call result ::
    List.zipWith (decodeInner registry chain) result.innerCalls
      (levels [] (result.innerCalls.map InnerCall.traceDepth))

/-- The number of the call that a log belongs to. -/
def frameOf (innerCalls : List InnerCall) (log : RawLog) : Nat :=
  let intoEmitter :=
    (innerCalls.zipIdx.reverse.find? fun c => c.1.call.target == some log.address).map Prod.snd
  let byAddress := (intoEmitter.map (· + 1)).getD 0
  match log.callIndex with
  | some index => if index ≤ innerCalls.length then index else byAddress
  | none => byAddress

/-- The logs of a run in order of emission, each with the number of its call. -/
def decodeLogs (innerCalls : List InnerCall) (frames : List DecodedFrame) (logs : List RawLog) :
    List (Nat × DecodedLog) :=
  logs.zipIdx.map fun (log, position) =>
    let frame := frameOf innerCalls log
    let depth := (frames[frame]?.map DecodedFrame.depth).getD 0
    (frame, decodeLog registry chain log (log.logIndex.getD (UInt64.ofNat position)) depth)

/-- Gives each call the logs that belong to it. -/
def attachLogs (frames : List DecodedFrame) (logs : List (Nat × DecodedLog)) : List DecodedFrame :=
  frames.zipIdx.map fun (frame, number) =>
    { frame with logs := (logs.filter fun l => l.1 == number).map Prod.snd }

/-- The tree of calls in order of execution, the first being the outermost. -/
def callTree (innerCalls : List InnerCall) (root : DecodedFrame) (inner : List DecodedFrame) :
    DecodedCall :=
  treeOf root (List.zip (innerCalls.map InnerCall.traceDepth) inner)

/-- Decodes a run. -/
def decodeRun (call : CallInput) (result : RunResult) : DecodedExecution :=
  let outermost := decodeOutermost registry chain call result
  let frames := decodeFrames registry chain call result
  let logs := decodeLogs registry chain result.innerCalls frames result.logs
  let root :=
    match attachLogs frames logs with
    | root :: inner => callTree result.innerCalls root inner
    | [] => .node outermost []
  { root
    logs := logs.map Prod.snd
    returnValues := outermost.outputs
    revertReason := outermost.error
    isSuccess := !result.reverted
    chainId := chain }

/-- Decodes a recorded execution on the chain it was recorded on. -/
def Recorded.decode (recorded : Recorded) : DecodedExecution :=
  decodeRun registry recorded.chainId recorded.call recorded.result

end EvmInspect.Trace
