import EvmInspect.Trace.Execution

/-!
# The text report

A report has five lines of header, a line for each call with two spaces for each level,
a line for each log if there are any, and the outcome in its last line.
-/

namespace EvmInspect.Trace

variable (config : PreviewConfig)

/-- Call data that is not understood: nothing of none, all of up to four bytes, and of
more the selector and an ellipsis. -/
def selectorPreview (data : Bytes) : List Char :=
  if data.isEmpty then []
  else if data.length ≤ 4 then '0' :: 'x' :: Hex.digits data
  else '0' :: 'x' :: Hex.digits (data.take 4) ++ ['.', '.', '.']

/-- The line of a call, without indentation. -/
def callLine (frame : DecodedFrame) : List Char :=
  let call :=
    match frame.function with
    | some function =>
      (match frame.contractName with
        | some contract => contract.toList ++ ['.']
        | none => [])
        ++ function.name.toList ++ '(' :: showParameters config frame.inputs ++ [')']
    | none => "call(".toList ++ selectorPreview frame.rawInput ++ [')']
  let value :=
    if frame.value = 0 then []
    else " [value: ".toList ++ Nat.toDigits 10 frame.value.toNat ++ [']']
  let reverted := if frame.isReverted then " [reverted]".toList else []
  call ++ value ++ reverted

/-- The line of a call in the call tree. -/
def treeLine (frame : DecodedFrame) : List Char :=
  List.replicate (2 * frame.depth) ' ' ++ (if 0 < frame.depth then ['-', '>', ' '] else [])
    ++ callLine config frame

/-- The line of a log, without indentation. -/
def logLine (log : DecodedLog) : List Char :=
  let emitter :=
    match log.contractName with
    | some name => name.toList
    | none => log.address.checksum.toList
  '[' :: Nat.toDigits 10 log.logIndex.toNat ++ ']' :: ' ' :: emitter ++
    match log.event with
    | some event =>
      '.' :: event.name.toList ++ '(' :: showParameters config log.parameters ++ [')']
    | none => ": undecoded log".toList

/-- The last line. -/
def outcomeLine (run : DecodedExecution) : List Char :=
  if run.isSuccess then
    "SUCCESS => ".toList ++ joined (run.returnValues.map fun p => showValue config p.value)
  else
    "REVERT - ".toList ++
      match run.revertReason with
      | some error => error.message.toList
      | none => "execution reverted".toList

/-- The lines of the report. -/
def reportLines (run : DecodedExecution) : List (List Char) :=
  let header := [
    "=== EVM Execution Result ===".toList,
    "Chain ID: ".toList ++ Nat.toDigits 10 run.chainId.toNat,
    "Status: ".toList ++ (if run.isSuccess then "SUCCESS" else "REVERTED").toList,
    [],
    "Call Tree:".toList]
  let logs :=
    if run.logs.isEmpty then []
    else [] :: "Logs:".toList :: run.logs.map fun log => ' ' :: ' ' :: logLine config log
  header ++ run.root.walk.map (treeLine config) ++ logs ++ [[], outcomeLine config run]

/-- The report, its lines separated by line ends. -/
def report (run : DecodedExecution) : String :=
  String.ofList (Abi.Param.joined ['\n'] (reportLines config run))

end EvmInspect.Trace
