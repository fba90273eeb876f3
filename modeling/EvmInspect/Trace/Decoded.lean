import EvmInspect.Abi.Item
import EvmInspect.Abi.Value
import EvmInspect.Trace.Recorded
import EvmInspect.Trace.Tree

/-!
# Decoded executions

The decoded view of a run. What the registry knows nothing about stays as raw bytes.
-/

namespace EvmInspect.Trace

/-- A value with the name and type it was declared with. -/
structure Parameter where
  name : String
  type : String
  value : Abi.Value

namespace Parameter

/-- Declared parameters with their values. -/
def zip (params : List Abi.Param) (values : List Abi.Value) : List Parameter :=
  List.zipWith (fun p v => { name := p.name, type := p.type, value := v }) params values

end Parameter

/-- Why a call reverted, as far as its output tells. -/
structure DecodedError where
  /-- The error of the contract that was recognised. -/
  error : Option Abi.CustomError
  parameters : List Parameter
  message : String
  /-- Whether it is one of the two errors every contract may raise. -/
  isStandard : Bool
  isDecoded : Bool
  rawData : Bytes

structure DecodedLog where
  address : Address
  contractName : Option String
  event : Option Abi.Event
  parameters : List Parameter
  isDecoded : Bool
  logIndex : UInt64
  /-- The depth of the call that emitted the log. -/
  callDepth : Nat

/-- A call without the calls inside it. -/
structure DecodedFrame where
  sender : Address
  target : Option Address
  function : Option Abi.Function
  contractName : Option String
  inputs : List Parameter
  outputs : List Parameter
  /-- The logs that this call emitted itself. -/
  logs : List DecodedLog
  kind : CallKind
  depth : Nat
  isDecoded : Bool
  rawInput : Bytes
  rawOutput : Bytes
  value : Word
  gasUsed : Option UInt64
  isReverted : Bool
  error : Option DecodedError

namespace DecodedFrame

/-- What is known of a call without decoding it. -/
def raw (call : CallInput) (depth : Nat) : DecodedFrame where
  sender := call.sender
  target := call.target
  function := none
  contractName := none
  inputs := []
  outputs := []
  logs := []
  kind := call.callKind
  depth := depth
  isDecoded := false
  rawInput := call.data
  rawOutput := []
  value := call.value
  gasUsed := none
  isReverted := false
  error := none

end DecodedFrame

/-- A call with the calls inside it. -/
abbrev DecodedCall := Tree DecodedFrame

structure DecodedExecution where
  root : DecodedCall
  /-- Every log, in order of emission. -/
  logs : List DecodedLog
  returnValues : List Parameter
  revertReason : Option DecodedError
  isSuccess : Bool
  chainId : UInt64

end EvmInspect.Trace
