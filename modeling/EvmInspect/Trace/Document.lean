import EvmInspect.Trace.Execution

/-!
# The JSON form of decoded executions

Functions and events are given as they would be declared, errors by their signature.
Integers are decimal strings, so that no reader rounds them, and byte strings are given
in full.
-/

namespace EvmInspect.Trace

/-- A value or null. -/
def orNull {α : Type} (write : α → Json) : Option α → Json
  | some v => write v
  | none => .null

/-- The hexadecimal form of a byte string. -/
def bytesDocument (bs : Bytes) : Json := .string (Hex.encode bs)

mutual

/-- The JSON form of a value. -/
def valueDocument : Abi.Value → Json
  | .bool b => .bool b
  | .uint w => .string (Numeral.decimal w.toNat)
  | .int w => .string (Numeral.decimal w.toInt)
  | .address a => .string a.checksum
  | .fixedBytes bs => bytesDocument bs
  | .bytes bs => bytesDocument bs
  | .function bs => .string (String.ofList ("Function(0x".toList ++ Hex.digits bs ++ [')']))
  | .string s => .string s
  | .array items => .array (valueDocuments items)
  | .tuple members => .array (valueDocuments members)

def valueDocuments : List Abi.Value → List Json
  | [] => []
  | v :: vs => valueDocument v :: valueDocuments vs

end

def Parameter.document (p : Parameter) : Json :=
  .object [("name", .string p.name), ("type", .string p.type), ("value", valueDocument p.value)]

def parametersDocument (ps : List Parameter) : Json := .array (ps.map Parameter.document)

def DecodedError.document (e : DecodedError) : Json :=
  .object [
    ("error", orNull (fun error => .string error.signature) e.error),
    ("parameters", parametersDocument e.parameters),
    ("message", .string e.message),
    ("is_standard_error", .bool e.isStandard),
    ("is_decoded", .bool e.isDecoded),
    ("raw_data", bytesDocument e.rawData)]

def DecodedLog.document (l : DecodedLog) : Json :=
  .object [
    ("contract_address", .string l.address.hex),
    ("contract_name", orNull .string l.contractName),
    ("event", orNull (fun event => .string event.declaration) l.event),
    ("parameters", parametersDocument l.parameters),
    ("is_decoded", .bool l.isDecoded),
    ("log_index", .integer l.logIndex.toNat),
    ("call_depth", .integer l.callDepth)]

/-- The JSON form of a call around the forms of the calls inside it. -/
def DecodedFrame.document (f : DecodedFrame) (innerCalls : List Json) : Json :=
  .object [
    ("from", .string f.sender.hex),
    ("to", orNull (fun a => .string (Address.hex a)) f.target),
    ("function", orNull (fun function => .string function.declaration) f.function),
    ("contract_name", orNull .string f.contractName),
    ("input_parameters", parametersDocument f.inputs),
    ("output_parameters", parametersDocument f.outputs),
    ("inner_calls", .array innerCalls),
    ("logs", .array (f.logs.map DecodedLog.document)),
    ("call_type", .string f.kind.name),
    ("depth", .integer f.depth),
    ("is_decoded", .bool f.isDecoded),
    ("raw_input", bytesDocument f.rawInput),
    ("raw_output", bytesDocument f.rawOutput),
    ("value", .string (Numeral.hex f.value.toNat)),
    ("gas_used", orNull (fun gas => .integer (UInt64.toNat gas)) f.gasUsed),
    ("is_reverted", .bool f.isReverted),
    ("error", orNull DecodedError.document f.error)]

mutual

def callDocument : DecodedCall → Json
  | .node frame children => frame.document (callDocuments children)

def callDocuments : List DecodedCall → List Json
  | [] => []
  | call :: calls => callDocument call :: callDocuments calls

end

def DecodedExecution.document (run : DecodedExecution) : Json :=
  .object [
    ("root_call", callDocument run.root),
    ("logs", .array (run.logs.map DecodedLog.document)),
    ("return_values", parametersDocument run.returnValues),
    ("revert_reason", orNull DecodedError.document run.revertReason),
    ("is_success", .bool run.isSuccess),
    ("chain_id", .integer run.chainId.toNat)]

end EvmInspect.Trace
