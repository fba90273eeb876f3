import EvmInspect.Json.Reading

/-!
# Recorded executions

What an interpreter reports about one run: the call that was sent, the calls made inside
it in order of execution, and the logs. Every field has a default, so an empty object is
a record too.
-/

namespace EvmInspect.Trace

open Json

/-- The kind of a call. -/
inductive CallKind where
  | call
  | delegateCall
  | staticCall
  | callCode
  | create
  | create2
deriving DecidableEq

namespace CallKind

def name : CallKind → String
  | call => "Call"
  | delegateCall => "DelegateCall"
  | staticCall => "StaticCall"
  | callCode => "CallCode"
  | create => "Create"
  | create2 => "Create2"

def all : List CallKind := [call, delegateCall, staticCall, callCode, create, create2]

def ofName? (name : String) : Option CallKind := all.find? fun kind => kind.name == name

/-- Whether the call makes a contract. -/
def isCreate : CallKind → Bool
  | create => true
  | create2 => true
  | _ => false

end CallKind

/-- A call as it is sent. -/
structure CallInput where
  sender : Address
  /-- The address called; a call that makes a contract has none. -/
  target : Option Address
  data : Bytes
  value : Word
  gas : Option UInt64
  /-- The kind of the call, where the record says it. -/
  kind : Option CallKind
deriving DecidableEq

namespace CallInput

/-- The recorded kind; without one, a call without a target makes a contract. -/
def callKind (call : CallInput) : CallKind :=
  call.kind.getD (if call.target.isNone then .create else .call)

/-- A call that does not say its kind makes a contract exactly if it has no target. -/
theorem isCreate_callKind {call : CallInput} (unsaid : call.kind = none) :
    call.callKind.isCreate = call.target.isNone := by
  rw [callKind, unsaid, Option.getD_none]
  cases call.target <;> rfl

instance : Inhabited CallInput := ⟨⟨default, none, [], 0, none, none⟩⟩

def fieldNames : List String := ["from", "to", "data", "value", "gas", "kind"]

/-- Reads the fields of a call, the name of its kind by a reader of its own. -/
def ofFields? (readName : Reader String) : List (Option Json) → Option CallInput
  | [sender, target, data, value, gas, kind] => do
    some {
      sender := ← withDefault default readAddress sender
      target := ← optional readAddress target
      data := ← withDefault [] readBytes data
      value := ← withDefault 0 readWord value
      gas := ← optional readUInt64 gas
      kind := ← optional (fun d => (readName d).bind CallKind.ofName?) kind }
  | _ => none

def read : Reader CallInput := fun document =>
  (fields fieldNames document).bind (ofFields? readCase)

end CallInput

/-- A call made inside another, with its outcome. -/
structure InnerCall where
  call : CallInput
  /-- The depth of the call in the trace, the outermost call having depth 0. -/
  depth : Option Nat
  output : Bytes
  reverted : Bool
  gasUsed : Option UInt64
deriving DecidableEq

namespace InnerCall

/-- The fields of the call and of its outcome stand in one object, all of which has to be
readable, also what is passed over. -/
def read : Reader InnerCall := fun document => do
  guard document.isReadable
  let call ← (objectFields CallInput.fieldNames document).bind
    (CallInput.ofFields? readOpenCase)
  match ← objectFields ["depth", "output", "reverted", "gas_used"] document with
  | [depth, output, reverted, gasUsed] =>
    some {
      call
      depth := ← optional (readBelow UInt64.size) depth
      output := ← withDefault [] readBytes output
      reverted := ← withDefault false readBool reverted
      gasUsed := ← optional readUInt64 gasUsed }
  | _ => none

/-- The depth that counts for the shape of the call tree: at least 1, and 1 where the
record has none. -/
def traceDepth (inner : InnerCall) : Nat := max (inner.depth.getD 1) 1

end InnerCall

/-- A log as it was emitted. -/
structure RawLog where
  address : Address
  topics : List Hash
  data : Bytes
  logIndex : Option UInt64
  /-- The call that emitted the log: 0 is the outermost, `n` the `n`-th inner call. -/
  callIndex : Option Nat
deriving DecidableEq

namespace RawLog

def read : Reader RawLog := fun document => do
  match ← fields ["address", "topics", "data", "log_index", "call_index"] document with
  | [address, topics, data, logIndex, callIndex] =>
    some {
      address := ← withDefault default readAddress address
      topics := ← withDefault [] (readList readHash) topics
      data := ← withDefault [] readBytes data
      logIndex := ← optional readUInt64 logIndex
      callIndex := ← optional (readBelow UInt64.size) callIndex }
  | _ => none

end RawLog

/-- What came back from the outermost call. -/
structure RunResult where
  /-- The answer, or the reason for the revert. -/
  output : Bytes
  reverted : Bool
  gasUsed : Option UInt64
  /-- In order of execution. -/
  innerCalls : List InnerCall
  logs : List RawLog
deriving DecidableEq

namespace RunResult

instance : Inhabited RunResult := ⟨⟨[], false, none, [], []⟩⟩

def read : Reader RunResult := fun document => do
  match ← fields ["output", "reverted", "gas_used", "inner_calls", "logs"] document with
  | [output, reverted, gasUsed, innerCalls, logs] =>
    some {
      output := ← withDefault [] readBytes output
      reverted := ← withDefault false readBool reverted
      gasUsed := ← optional readUInt64 gasUsed
      innerCalls := ← withDefault [] (readList InnerCall.read) innerCalls
      logs := ← withDefault [] (readList RawLog.read) logs }
  | _ => none

end RunResult

/-- One run: the call that was sent and what came back. -/
structure Recorded where
  chainId : UInt64
  call : CallInput
  result : RunResult
deriving DecidableEq

namespace Recorded

def read : Reader Recorded := fun document => do
  match ← fields ["chain_id", "call", "result"] document with
  | [chainId, call, result] =>
    some {
      chainId := ← withDefault 0 readUInt64 chainId
      call := ← withDefault default CallInput.read call
      result := ← withDefault default RunResult.read result }
  | _ => none

end Recorded

end EvmInspect.Trace
