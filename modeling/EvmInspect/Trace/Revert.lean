import EvmInspect.Abi.Decode
import EvmInspect.Abi.Registry
import EvmInspect.Trace.Preview

/-!
# Reasons for a revert

Revert data is read in a fixed order: as one of the two errors that every contract may
raise, then as an error of the contract that reverted, and otherwise not at all. Data
that has the selector of a standard error but is malformed is not looked up any further.
-/

namespace EvmInspect.Trace

/-- The selector of `Error(string)`. -/
def errorSelector : Abi.Selector := [0x08, 0xc3, 0x79, 0xa0]

/-- The selector of `Panic(uint256)`. -/
def panicSelector : Abi.Selector := [0x4e, 0x48, 0x7b, 0x71]

/-- What a panic code means. -/
def panicDescription (code : Nat) : String :=
  match code with
  | 0x00 => "generic compiler panic"
  | 0x01 => "assertion failed"
  | 0x11 => "arithmetic underflow or overflow"
  | 0x12 => "division or modulo by zero"
  | 0x21 => "invalid enum value"
  | 0x22 => "incorrectly encoded storage byte array"
  | 0x31 => "pop on empty array"
  | 0x32 => "array index out of bounds"
  | 0x41 => "out of memory"
  | 0x51 => "call to zero-initialized internal function"
  | _ => "unknown panic code"

/-- A number in hexadecimal with at least two digits. -/
def atLeastTwoHex (n : Nat) : List Char :=
  let digits := Nat.toDigits 16 n
  List.replicate (2 - digits.length) '0' ++ digits

/-- What is said of a panic: a code of more than 64 bits is not shown. -/
def panicMessage (code : Word) : String :=
  if code.toNat < UInt64.size then
    String.ofList ("panic: ".toList ++ (panicDescription code.toNat).toList
      ++ " (0x".toList ++ atLeastTwoHex code.toNat ++ [')'])
  else "panic: unknown panic code"

/-- The message and the parameter of a standard error: `none` where the selector is not
one of theirs, and no reading where the data behind it is malformed. -/
def standardError? (selector : Abi.Selector) (body : Bytes) : Option (Option (String × Parameter)) :=
  if selector = errorSelector then
    match Abi.decodeParams [.string] body with
    | some [.string reason] => some (some (reason, ⟨"reason", "string", .string reason⟩))
    | _ => some none
  else if selector = panicSelector then
    match Abi.decodeParams [.uint 256] body with
    | some [.uint code] => some (some (panicMessage code, ⟨"code", "uint256", .uint code⟩))
    | _ => some none
  else none

/-- Revert data that is not understood. -/
def unknownError (data : Bytes) : DecodedError where
  error := none
  parameters := []
  message := if data.isEmpty then "execution reverted" else "unknown error " ++ Hex.encode data
  isStandard := false
  isDecoded := false
  rawData := data

/-- The values of a list of parameters, with their names; none if they cannot be read. -/
def readParameters (params : List Abi.Param) (data : Bytes) : List Parameter :=
  match Abi.Param.resolveAll? params with
  | none => []
  | some types =>
    match Abi.decodeParams types data with
    | some values => Parameter.zip params values
    | none => []

/-- An error of a contract with the data behind its selector. -/
def customError (error : Abi.CustomError) (body data : Bytes) : DecodedError :=
  let parameters := readParameters error.inputs body
  { error := some error
    parameters
    message := String.ofList
      (error.name.toList ++ '(' :: showParameters {} parameters ++ [')'])
    isStandard := false
    isDecoded := true
    rawData := data }

/-- The reason for a revert of a contract, which is not known for a contract being made. -/
def decodeRevert (registry : Abi.Registry) (chain : UInt64) (contract : Option Address)
    (data : Bytes) : DecodedError :=
  match Abi.Registry.splitSelector? data with
  | none => unknownError data
  | some (selector, body) =>
    match standardError? selector body with
    | some none => unknownError data
    | some (some (message, parameter)) =>
      { error := none
        parameters := [parameter]
        message
        isStandard := true
        isDecoded := true
        rawData := data }
    | none =>
      match contract.bind fun address => registry.error? chain address selector with
      | some error => customError error body data
      | none => unknownError data

end EvmInspect.Trace
