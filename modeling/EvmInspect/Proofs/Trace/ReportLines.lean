import EvmInspect.Abi.Encode
import EvmInspect.Proofs.Trace.LineEnds
import EvmInspect.Proofs.Trace.Names

/-!
# The lines of a report

A report is meant to be read line by line: header, calls, logs, outcome. Where the names in a
registry hold no line ends, which the text of an ABI ensures (`oneLine_registerText?`), a report
has only those line ends too many that stand in the strings it shows (`count_reportLines`).
Strings come from whoever was called, and nothing is done about line ends in them. So a report is
laid out as meant exactly when none of its strings holds one (`report_prints`), the reason for a
revert being counted in full length. With a reason that holds one, the report of a revert can even
end like that of a success (`revert_reason_passes_for_success`).
-/

namespace EvmInspect.Trace

/-! ## Single lines -/

section Lines

variable (config : PreviewConfig)

/-- The strings that the line of a call shows. -/
def DecodedFrame.text (frame : DecodedFrame) : List Char :=
  match frame.function with
  | some _ => parametersText config.shown frame.inputs
  | none => []

theorem count_selectorPreview (data : Bytes) : (selectorPreview data).count '\n' = 0 := by
  unfold selectorPreview
  split
  · rfl
  · split <;> simp [count_hexDigits]

theorem count_callLine {frame : DecodedFrame} (names : frame.NamesAre OneLine) :
    (callLine config frame).count '\n' = (frame.text config).count '\n' := by
  have value : (if frame.value = 0 then []
      else " [value: ".toList ++ Nat.toDigits 10 frame.value.toNat ++ [']']).count '\n' = 0 := by
    split
    · rfl
    · simp [count_toDigits]
  have reverted : (if frame.isReverted then " [reverted]".toList else []).count '\n' = 0 := by
    split <;> simp
  unfold callLine DecodedFrame.text
  dsimp only
  rw [List.count_append, List.count_append, value, reverted]
  cases known : frame.function with
  | none => simp [count_selectorPreview]
  | some f =>
    have called := (names.function f known).count
    cases named : frame.contractName with
    | none => simp [called, count_showParameters config names.inputs]
    | some name =>
      simp [called, (names.contract name named).count, count_showParameters config names.inputs]

theorem count_treeLine {frame : DecodedFrame} (names : frame.NamesAre OneLine) :
    (treeLine config frame).count '\n' = (frame.text config).count '\n' := by
  have indent : (List.replicate (2 * frame.depth) ' ').count '\n' = 0 := by
    simp [List.count_replicate]
  have arrow : (if 0 < frame.depth then ['-', '>', ' '] else []).count '\n' = 0 := by
    split <;> rfl
  rw [treeLine, List.count_append, List.count_append, indent, arrow, count_callLine config names,
    Nat.zero_add]

/-- The strings that the line of a log shows. -/
def DecodedLog.text (log : DecodedLog) : List Char :=
  match log.event with
  | some _ => parametersText config.shown log.parameters
  | none => []

theorem count_logLine {log : DecodedLog} (names : log.NamesAre OneLine) :
    (logLine config log).count '\n' = (log.text config).count '\n' := by
  unfold logLine DecodedLog.text
  dsimp only
  cases known : log.event with
  | none =>
    cases named : log.contractName with
    | none => simp [count_toDigits, count_checksum]
    | some name => simp [count_toDigits, (names.contract name named).count]
  | some e =>
    have emitted := (names.event e known).count
    have shown := count_showParameters config names.parameters
    cases named : log.contractName with
    | none => simp [count_toDigits, count_checksum, emitted, shown]
    | some name => simp [count_toDigits, (names.contract name named).count, emitted, shown]

/-- The strings in the reason for a revert: of a standard error all that there is, of an error
of the contract as much as is shown without a config. -/
def DecodedError.text (error : DecodedError) : List Char :=
  parametersText (if error.isStandard then String.toList else PreviewConfig.shown {})
    error.parameters

/-- The strings that the last line shows. -/
def DecodedExecution.outcomeText (run : DecodedExecution) : List Char :=
  if run.isSuccess then parametersText config.shown run.returnValues
  else (run.revertReason.map DecodedError.text).getD []

theorem count_outcomeLine {run : DecodedExecution}
    (reason : ∀ e, run.revertReason = some e → e.message.toList.count '\n' = e.text.count '\n') :
    (outcomeLine config run).count '\n' = (run.outcomeText config).count '\n' := by
  unfold outcomeLine DecodedExecution.outcomeText
  split
  · have values : (run.returnValues.flatMap fun p => showValue config p.value).count '\n' =
        (parametersText config.shown run.returnValues).count '\n' :=
      count_flatMap_congr fun p _ => count_showValue config p.value
    rw [List.count_append, count_joined, ← List.flatMap_def, values]
    simp
  · cases known : run.revertReason with
    | none => simp
    | some e => simp [reason e known]

end Lines

/-! ## Reasons for a revert -/

theorem count_panicMessage (code : Word) : (panicMessage code).toList.count '\n' = 0 := by
  have described : ∀ n, (panicDescription n).toList.count '\n' = 0 := by
    intro n
    unfold panicDescription
    split <;> decide
  have hex : (atLeastTwoHex code.toNat).count '\n' = 0 := by
    simp [atLeastTwoHex, List.count_replicate, count_toDigits]
  unfold panicMessage
  split
  · simp [described, hex]
  · decide

/-- The message of a standard error has the line ends of its parameter: a reason is the message,
all of it. -/
theorem count_standardError {selector : Abi.Selector} {body : Bytes} {message : String}
    {parameter : Parameter}
    (read : standardError? selector body = some (some (message, parameter))) :
    message.toList.count '\n' = (parametersText String.toList [parameter]).count '\n' := by
  unfold standardError? at read
  split at read
  · split at read
    · cases read
      simp [parametersText, valueText]
    · cases read
  · split at read
    · split at read
      · cases read
        simp [parametersText, valueText, count_panicMessage]
      · cases read
    · cases read

theorem count_unknownError (data : Bytes) :
    (unknownError data).message.toList.count '\n' = (unknownError data).text.count '\n' := by
  have text : (unknownError data).text.count '\n' = 0 := rfl
  rw [text]
  unfold unknownError
  dsimp only
  split
  · decide
  · simp [Hex.encode, count_hexDigits]

theorem count_customError {error : Abi.CustomError}
    (names : Abi.NamesAre OneLine error.name error.inputs) (body data : Bytes) :
    (customError error body data).message.toList.count '\n' =
      (customError error body data).text.count '\n' := by
  have shown := count_showParameters {} (names_readParameters names.inputs body)
  have text : (customError error body data).text =
      parametersText (PreviewConfig.shown {}) (readParameters error.inputs body) := rfl
  rw [text, ← shown]
  simp [customError, names.name.count]

/-- The reason for a revert is told with the line ends of the strings in it and no others. -/
theorem count_decodeRevert {registry : Abi.Registry} (names : registry.NamesAre OneLine)
    (chain : UInt64) (contract : Option Address) (data : Bytes) :
    (decodeRevert registry chain contract data).message.toList.count '\n' =
      (decodeRevert registry chain contract data).text.count '\n' := by
  unfold decodeRevert
  split
  · exact count_unknownError data
  · split
    · exact count_unknownError data
    next standard => exact count_standardError standard
    · split
      next known =>
        obtain ⟨_, _, found⟩ := Option.bind_eq_some_iff.mp known
        exact count_customError (names.error found) _ data
      · exact count_unknownError data

/-! ## All lines -/

section Report

variable (config : PreviewConfig)

/-- What the lines of a run's report need so that only strings put line ends into them. -/
structure DecodedExecution.OneLineNames (run : DecodedExecution) : Prop where
  frames : ∀ frame ∈ run.root.walk, frame.NamesAre OneLine
  logs : ∀ log ∈ run.logs, log.NamesAre OneLine
  reason : ∀ e, run.revertReason = some e → e.message.toList.count '\n' = e.text.count '\n'

/-- The strings that a report shows, one after the other. -/
def DecodedExecution.text (run : DecodedExecution) : List Char :=
  run.root.walk.flatMap (DecodedFrame.text config) ++ run.logs.flatMap (DecodedLog.text config)
    ++ run.outcomeText config

/-- The five lines of header. -/
def headerLines (run : DecodedExecution) : List (List Char) := [
  "=== EVM Execution Result ===".toList,
  "Chain ID: ".toList ++ Nat.toDigits 10 run.chainId.toNat,
  "Status: ".toList ++ (if run.isSuccess then "SUCCESS" else "REVERTED").toList,
  [],
  "Call Tree:".toList]

/-- The lines of the logs: none without logs, and otherwise one for each behind two others. -/
def logLines (logs : List DecodedLog) : List (List Char) :=
  if logs.isEmpty then []
  else [] :: "Logs:".toList :: logs.map fun log => ' ' :: ' ' :: logLine config log

theorem reportLines_eq (run : DecodedExecution) :
    reportLines config run = headerLines run ++ run.root.walk.map (treeLine config) ++
      logLines config run.logs ++ [[], outcomeLine config run] := rfl

theorem length_logLines (logs : List DecodedLog) :
    (logLines config logs).length = if logs.isEmpty then 0 else 2 + logs.length := by
  unfold logLines
  split
  · rfl
  · rw [List.length_cons, List.length_cons, List.length_map]
    omega

theorem count_logLines {logs : List DecodedLog} (names : ∀ log ∈ logs, log.NamesAre OneLine) :
    (logLines config logs).flatten.count '\n' =
      (logs.flatMap (DecodedLog.text config)).count '\n' := by
  unfold logLines
  split
  next none => rw [List.isEmpty_iff.mp none]; rfl
  next =>
    have lines : (logs.flatMap fun log => ' ' :: ' ' :: logLine config log).count '\n' =
        (logs.flatMap (DecodedLog.text config)).count '\n' :=
      count_flatMap_congr fun log mem => by simp [count_logLine config (names log mem)]
    rw [← lines, List.flatMap_def]
    simp

theorem count_treeLines {frames : List DecodedFrame}
    (names : ∀ frame ∈ frames, frame.NamesAre OneLine) :
    (frames.map (treeLine config)).flatten.count '\n' =
      (frames.flatMap (DecodedFrame.text config)).count '\n' := by
  rw [← List.flatMap_def]
  exact count_flatMap_congr fun frame mem => count_treeLine config (names frame mem)

theorem count_headerLines (run : DecodedExecution) :
    (headerLines run).flatten.count '\n' = 0 := by
  have chain : (Nat.toDigits 10 run.chainId.toNat).count '\n' = 0 := count_toDigits (by decide) _
  simp only [headerLines, List.flatten_cons, List.flatten_nil, List.count_append, chain]
  cases run.isSuccess <;> rfl

/-- The lines have the line ends of the strings in them and no others. -/
theorem count_reportLines {run : DecodedExecution} (names : run.OneLineNames) :
    (reportLines config run).flatten.count '\n' = (run.text config).count '\n' := by
  have outcome := count_outcomeLine config names.reason
  rw [reportLines_eq, DecodedExecution.text]
  simp only [List.flatten_append, List.flatten_cons, List.flatten_nil, List.nil_append,
    List.append_nil, List.count_append, count_headerLines, count_treeLines config names.frames,
    count_logLines config names.logs, outcome, Nat.zero_add]

/-- How many lines a report is meant to have. -/
def DecodedExecution.lineCount (run : DecodedExecution) : Nat :=
  5 + run.root.walk.length + (if run.logs.isEmpty then 0 else 2 + run.logs.length) + 2

theorem length_reportLines (run : DecodedExecution) :
    (reportLines config run).length = run.lineCount := by
  simp only [reportLines_eq, List.length_append, List.length_map, length_logLines]
  rfl

/-- A report is split into the pieces of its lines. -/
theorem splitOnChar_report (run : DecodedExecution) :
    Text.splitOnChar '\n' (report config run).toList =
      (reportLines config run).flatMap (Text.splitOnChar '\n') := by
  rw [report, String.toList_ofList]
  exact Text.splitOnChar_joined '\n' (List.cons_ne_nil _ _)

theorem header_prefix (run : DecodedExecution) :
    headerLines run <+: Text.splitOnChar '\n' (report config run).toList := by
  rw [splitOnChar_report, reportLines_eq, List.append_assoc, List.append_assoc,
    List.flatMap_append, Text.flatMap_splitOnChar_of_not_mem
      (List.count_eq_zero.mp (count_headerLines run))]
  exact List.prefix_append _ _

/-- A report has as many lines too many as the strings in it have line ends. -/
theorem length_splitOnChar_report {run : DecodedExecution} (names : run.OneLineNames) :
    (Text.splitOnChar '\n' (report config run).toList).length =
      run.lineCount + (run.text config).count '\n' := by
  rw [splitOnChar_report, Text.length_flatMap_splitOnChar, length_reportLines,
    count_reportLines config names]

/-- Where no string holds a line end, a report is split into its lines. -/
theorem splitOnChar_report_of_not_mem {run : DecodedExecution} (names : run.OneLineNames)
    (absent : '\n' ∉ run.text config) :
    Text.splitOnChar '\n' (report config run).toList = reportLines config run := by
  rw [splitOnChar_report]
  apply Text.flatMap_splitOnChar_of_not_mem
  rw [← List.count_eq_zero, count_reportLines config names]
  exact List.count_eq_zero.mpr absent

/-- What the last line of a report is meant to begin with. -/
def outcomeMark (reverted : Bool) : List Char :=
  (if reverted then "REVERT - " else "SUCCESS => ").toList

/-- The lines are those that a report of the run is meant to have: the header, one for each call
in the order of the walk, those of the logs, a blank one and the outcome. -/
def LaidOut (reverted : Bool) (run : DecodedExecution) (lines : List (List Char)) : Prop :=
  ∃ last, outcomeMark reverted <+: last ∧
    lines = headerLines run ++ run.root.walk.map (treeLine config) ++ logLines config run.logs ++
      [[], last]

theorem LaidOut.length_eq {reverted : Bool} {run : DecodedExecution} {lines : List (List Char)}
    (h : LaidOut config reverted run lines) : lines.length = run.lineCount := by
  obtain ⟨last, _, rfl⟩ := h
  simp only [List.length_append, List.length_map, length_logLines]
  rfl

theorem LaidOut.outcome {reverted : Bool} {run : DecodedExecution} {lines : List (List Char)}
    (h : LaidOut config reverted run lines) {last : List Char}
    (ends : lines.getLast? = some last) : outcomeMark reverted <+: last := by
  obtain ⟨outcome, marked, rfl⟩ := h
  rw [List.getLast?_append] at ends
  cases ends
  exact marked

theorem outcomeMark_prefix (run : DecodedExecution) :
    outcomeMark (!run.isSuccess) <+: outcomeLine config run := by
  unfold outcomeMark outcomeLine
  cases run.isSuccess <;> exact List.prefix_append _ _

end Report

/-! ## Reports of decoded runs -/

/-- A contract that is registered with the text of its ABI, under a name of one line, brings no
names of several lines. -/
theorem oneLine_registerText? {r registered : Abi.Registry} (names : r.NamesAre OneLine)
    {chain : UInt64} {address : Address} {name : Option String}
    (own : ∀ s, name = some s → OneLine s) {text : String}
    (done : r.registerText? chain address name text = some registered) :
    registered.NamesAre OneLine := by
  refine names.registerText? (fun s proper mem => ?_) own done
  exact absurd (Abi.isNameChar_of_isItemName proper mem) (by decide)

/-- Names of one line in the registry make names of one line in a run. -/
theorem oneLineNames_decode {registry : Abi.Registry} (names : registry.NamesAre OneLine)
    (recorded : Recorded) : (recorded.decode registry).OneLineNames where
  frames := namesAre_walk names recorded.chainId recorded.call recorded.result
  logs := namesAre_logs names recorded.chainId recorded.call recorded.result
  reason e failed := by
    replace failed : (if recorded.result.reverted then
        some (decodeRevert registry recorded.chainId
          (decodeCall registry recorded.chainId recorded.call 0).target recorded.result.output)
        else none) = some e := failed
    split at failed
    · cases failed
      exact count_decodeRevert names _ _ _
    · cases failed

/-- What a report is once it is split at its line ends: it begins with the header, has a line too
many for each line end in the strings that it shows, and is laid out as meant just when there is
none. -/
structure Prints (config : PreviewConfig) (reverted : Bool) (run : DecodedExecution)
    (lines : List (List Char)) : Prop where
  header : headerLines run <+: lines
  length : lines.length = run.lineCount + (run.text config).count '\n'
  laidOut : LaidOut config reverted run lines ↔ '\n' ∉ run.text config

/-- Whatever calls, logs and revert data are recorded, the report of a run is laid out as meant
exactly when no string in it holds a line end. -/
theorem report_prints {registry : Abi.Registry} (names : registry.NamesAre OneLine)
    (recorded : Recorded) (config : PreviewConfig) :
    Prints config recorded.result.reverted (recorded.decode registry)
      (Text.splitOnChar '\n' (report config (recorded.decode registry)).toList) where
  header := header_prefix config _
  length := length_splitOnChar_report config (oneLineNames_decode names recorded)
  laidOut := by
    have shown := oneLineNames_decode names recorded
    constructor
    · intro laidOut
      have exact := laidOut.length_eq
      rw [length_splitOnChar_report config shown] at exact
      exact List.count_eq_zero.mp (by omega)
    · intro absent
      have mark := outcomeMark_prefix config (recorded.decode registry)
      have failed : (!(recorded.decode registry).isSuccess) = recorded.result.reverted :=
        Bool.not_not _
      rw [failed] at mark
      exact ⟨_, mark, splitOnChar_report_of_not_mem config shown absent⟩

/-- A selector with a string behind it. -/
def stringData (selector : Abi.Selector) (s : String) : Bytes :=
  selector ++ Abi.encodeParams [.string] [.string s]

/-- A registry with one contract, which has one function. -/
def till : Abi.Registry :=
  Abi.Registry.empty.register 1 default (some "Till") {
    functions := [([0xde, 0xad, 0xbe, 0xef], ⟨"pay", [.mk "note" "string" [] false], [], .payable⟩)]
    events := []
    errors := [] }

/-- A call of that function. -/
def payment : Recorded where
  chainId := 1
  call := { (default : CallInput) with
    target := some default
    data := stringData [0xde, 0xad, 0xbe, 0xef] "thanks" }
  result := default

/-- A note without a line end stays in the line of its call. -/
theorem payment_laidOut :
    till.NamesAre OneLine ∧ '\n' ∉ (payment.decode till).text {} ∧
      LaidOut {} false (payment.decode till)
        (Text.splitOnChar '\n' (report {} (payment.decode till)).toList) := by
  have names : till.NamesAre OneLine := by
    refine Abi.Registry.NamesAre.register .empty 1 default (fun s named => ?_) ⟨?_, ?_, ?_⟩
    · cases named
      decide
    · intro f mem
      cases List.mem_singleton.mp mem
      refine ⟨by decide, fun p inside => ?_⟩
      cases List.mem_singleton.mp inside
      decide
    · exact fun _ mem => absurd mem List.not_mem_nil
    · exact fun _ mem => absurd mem List.not_mem_nil
  have absent : '\n' ∉ (payment.decode till).text {} := by decide +kernel
  exact ⟨names, absent, (report_prints names payment {}).laidOut.mpr absent⟩

/-- A call that reverts, with a reason that goes on in a second line. -/
def forgedRevert : Recorded where
  chainId := 0
  call := default
  result := { (default : RunResult) with
    output := stringData errorSelector "no\nSUCCESS => 1"
    reverted := true }

/-- A report of a call that reverted can end in the line of a success, and so be laid out in
another way than is meant. -/
theorem revert_reason_passes_for_success :
    Abi.Registry.empty.NamesAre OneLine ∧ forgedRevert.result.reverted = true ∧
      (Text.splitOnChar '\n' (report {} (forgedRevert.decode .empty)).toList).getLast? =
        some "SUCCESS => 1".toList ∧
      ¬ LaidOut {} forgedRevert.result.reverted (forgedRevert.decode .empty)
        (Text.splitOnChar '\n' (report {} (forgedRevert.decode .empty)).toList) := by
  have ends : (Text.splitOnChar '\n' (report {} (forgedRevert.decode .empty)).toList).getLast? =
      some "SUCCESS => 1".toList := by decide +kernel
  refine ⟨.empty, rfl, ends, fun laidOut => ?_⟩
  exact absurd (laidOut.outcome _ ends) (by decide)

end EvmInspect.Trace
