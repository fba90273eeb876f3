import EvmInspect.Proofs.Abi.Arity
import EvmInspect.Proofs.Abi.ReadBack
import EvmInspect.Trace.Execution

/-!
# Arguments and results are read back

A call whose data is a function's selector with encoded arguments behind it is shown with these
arguments, and what the function gave back is shown with the encoded results
(`arguments_read_back`). The selector is taken off once, and results have none.

There is a limit: the decoder opens sixteen frames at once and no more. A value that needs more
is not shown, nor is any beside it, though the call counts as decoded
(`deep_result_is_not_shown`).
-/

namespace EvmInspect.Trace

/-- Data carries values of parameters: it is the encoding of values of their types, every type in
which takes bytes. -/
structure Carries (data : Bytes) (declared : List Abi.Param) (types : List Abi.Ty)
    (values : List Abi.Value) : Prop where
  resolved : Abi.Param.resolveAll? declared = some types
  sized : Abi.Ty.allSized types = true
  admitted : Abi.Ty.admitsAll types values = true
  encoded : data = Abi.encodeParams types values
  short : data.length < UInt64.size

/-- Values are shown one by one with the names and types of the parameters. -/
structure Shows (shown : List Parameter) (declared : List Abi.Param)
    (values : List Abi.Value) : Prop where
  names : shown.map Parameter.name = declared.map Abi.Param.name
  types : shown.map Parameter.type = declared.map Abi.Param.type
  values : shown.map Parameter.value = values

/-- Values are shown if none of them needs more frames than the decoder opens, and otherwise
nothing is. -/
structure ShowsReadable (shown : List Parameter) (declared : List Abi.Param)
    (types : List Abi.Ty) (values : List Abi.Value) : Prop where
  readable : Abi.deepest (Abi.Ty.framesAll types values) ≤ Abi.Cursor.maxDepth →
    Shows shown declared values
  unreadable : Abi.Cursor.maxDepth < Abi.deepest (Abi.Ty.framesAll types values) → shown = []

theorem shows_zip {declared : List Abi.Param} {values : List Abi.Value}
    (each : values.length = declared.length) :
    Shows (Parameter.zip declared values) declared values := by
  induction declared generalizing values with
  | nil =>
    cases values with
    | nil => exact ⟨rfl, rfl, rfl⟩
    | cons v values => cases each
  | cons p declared ih =>
    cases values with
    | nil => cases each
    | cons v values =>
      obtain ⟨names, types, same⟩ := ih (Nat.succ.inj each)
      exact ⟨congrArg (p.name :: ·) names, congrArg (p.type :: ·) types, congrArg (v :: ·) same⟩

theorem showsReadable_readParameters {data : Bytes} {declared : List Abi.Param}
    {types : List Abi.Ty} {values : List Abi.Value} (h : Carries data declared types values) :
    ShowsReadable (readParameters declared data) declared types values := by
  have read := Abi.decodeParams_encodeParams h.sized h.admitted (h.encoded ▸ h.short)
  rw [← h.encoded] at read
  simp only [readParameters, h.resolved, read]
  constructor
  · intro readable
    simp only [if_pos readable]
    apply shows_zip
    rw [Abi.length_of_admitsAll h.admitted, Abi.length_resolveAll? h.resolved]
  · intro deep
    simp only [if_neg (Nat.not_le.mpr deep)]

/-- Types that take bytes leave no encoding empty. -/
theorem Carries.ne_nil {data : Bytes} {declared : List Abi.Param} {types : List Abi.Ty}
    {values : List Abi.Value} (h : Carries data declared types values) (some : declared ≠ []) :
    data ≠ [] := by
  have typed : types ≠ [] := by
    rw [← List.length_pos_iff, Abi.length_resolveAll? h.resolved]
    exact List.length_pos_iff.mpr some
  have words := Abi.Ty.minWordsAll_pos (List.isEmpty_eq_false_iff.mpr typed) h.sized
  have long := Abi.minWordsAll_le_encodeParams (Abi.Ty.allRegular_of_allSized h.sized) h.admitted
  rw [← h.encoded] at long
  exact List.ne_nil_of_length_pos (by omega)

/-! ## Selectors -/

theorem length_selector (f : Abi.Function) : f.selector.length = 4 := by
  rw [Abi.Function.selector, List.length_take, Hash.length_eq]
  rfl

section Selector

variable {selector : Abi.Selector} (size : selector.length = 4)

include size

theorem splitSelector?_append (args : Bytes) :
    Abi.Registry.splitSelector? (selector ++ args) = some (selector, args) := by
  have long : ¬ (selector ++ args).length < 4 := by
    rw [List.length_append]
    omega
  rw [Abi.Registry.splitSelector?, if_neg long, ← size, List.take_left, List.drop_left]

theorem splitSelector?_self : Abi.Registry.splitSelector? selector = some (selector, []) := by
  have alone := splitSelector?_append size []
  rwa [List.append_nil] at alone

/-- Only the selector counts for the function that data is for. -/
theorem function?_append (registry : Abi.Registry) (chain : UInt64) (target : Address)
    (args : Bytes) :
    registry.function? chain target (selector ++ args) =
      registry.function? chain target selector := by
  simp only [Abi.Registry.function?, splitSelector?_append size args, splitSelector?_self size]

end Selector

/-! ## Calls -/

/-- Encoded arguments are shown with the call that carries them behind the selector of its
function, and encoded results with what the function gave back. -/
theorem arguments_read_back (registry : Abi.Registry) (chain : UInt64) (f : Abi.Function)
    (types : List Abi.Ty) (values : List Abi.Value) :
    (∀ target call args depth, registry.function? chain target f.selector = some f →
      call.target = some target → call.data = f.selector ++ args →
      Carries args f.inputs types values →
        (decodeCall registry chain call depth).isDecoded = true ∧
        (decodeCall registry chain call depth).function = some f ∧
        ShowsReadable (decodeCall registry chain call depth).inputs f.inputs types values) ∧
    ∀ data, f.outputs ≠ [] → Carries data f.outputs types values →
      ShowsReadable (decodeReturn (some f) data) f.outputs types values := by
  constructor
  · intro target call args depth known called sent carries
    have found : registry.function? chain target call.data = some f := by
      rw [sent, function?_append (length_selector f), known]
    have behind : call.data.drop 4 = args := by
      rw [sent, ← length_selector f, List.drop_left]
    simp only [decodeCall, called, found, behind]
    exact ⟨trivial, trivial, showsReadable_readParameters carries⟩
  · intro data declared carries
    have outputs : f.outputs.isEmpty = false := List.isEmpty_eq_false_iff.mpr declared
    have given : data.isEmpty = false := List.isEmpty_eq_false_iff.mpr (carries.ne_nil declared)
    simp only [decodeReturn, outputs, given, Bool.or_self, Bool.false_eq_true, if_false]
    exact showsReadable_readParameters carries

/-- A function of numbers with two texts each. -/
def storing : Abi.Function where
  name := "store"
  inputs :=
    [.mk "entries" "tuple[]" [.mk "id" "uint256" [] false, .mk "names" "string[2]" [] false] false,
      .mk "tag" "bytes3" [] false]
  outputs := [.mk "" "bool[]" [] false]
  mutability := .nonpayable

def storingTypes : List Abi.Ty :=
  [.array (.tuple [.uint 256, .fixedArray .string 2]), .fixedBytes 3]

def storingArguments : List Abi.Value :=
  [.array [.tuple [.uint 7, .array [.string "left", .string ""]]], .fixedBytes [1, 2, 3]]

def storingCall : CallInput :=
  { (default : CallInput) with
    target := some default
    data := storing.selector ++ Abi.encodeParams storingTypes storingArguments }

/-- Arguments of nested types are shown, and so is the list that was given back for them. -/
theorem nested_arguments_read_back :
    (decodeCall (Abi.Registry.empty.registerFunction storing) 1 storingCall 0).function =
        some storing ∧
      Shows (decodeCall (Abi.Registry.empty.registerFunction storing) 1 storingCall 0).inputs
        storing.inputs storingArguments ∧
      Shows (decodeReturn (some storing) (Abi.encodeParams [.array .bool] [.array [.bool true]]))
        storing.outputs [.array [.bool true]] := by
  have known : (Abi.Registry.empty.registerFunction storing).function? 1 default
      storing.selector = some storing := by
    simp only [Abi.Registry.function?, splitSelector?_self (length_selector storing),
      Abi.Registry.registerFunction, Abi.Registry.firstOf, Abi.Registry.contract?,
      Abi.Registry.empty, KeyMap.get?_empty, Option.map_none, Option.bind_none, Option.none_or,
      List.nil_append, List.find?_singleton, decide_true, if_true, Option.map_some]
  have short : (Abi.encodeParams storingTypes storingArguments).length < UInt64.size := by cbv
  have shortResult : (Abi.encodeParams [.array .bool] [.array [.bool true]]).length <
      UInt64.size := by decide
  have arguments := (arguments_read_back (Abi.Registry.empty.registerFunction storing) 1 storing
    storingTypes storingArguments).1 default storingCall _ 0 known rfl rfl
    ⟨rfl, by decide, by decide, rfl, short⟩
  have result := (arguments_read_back .empty 1 storing [.array .bool] [.array [.bool true]]).2
    _ (List.cons_ne_nil _ _) ⟨rfl, by decide, by decide, rfl, shortResult⟩
  exact ⟨arguments.2.1, arguments.2.2.readable (by decide), result.readable (by decide)⟩

/-- The type of arrays of one item inside each other, around a number. -/
def nestedType : Nat → Abi.Ty
  | 0 => .uint 256
  | depth + 1 => .fixedArray (nestedType depth) 1

/-- The number 5 in so many arrays. -/
def nestedValue : Nat → Abi.Value
  | 0 => .uint 5
  | depth + 1 => .array [nestedValue depth]

def deepResult : Abi.Function where
  name := "r"
  inputs := []
  outputs := [.mk "n" "uint256[1][1][1][1][1][1][1][1][1][1][1][1][1][1][1][1][1]" [] false]
  mutability := .nonpayable

/-- A number with seventeen arrays around it is not read back. -/
theorem deep_result_is_not_shown :
    Carries (Abi.wordOf 5) deepResult.outputs [nestedType 17] [nestedValue 17] ∧
      deepResult.outputs ≠ [] ∧ decodeReturn (some deepResult) (Abi.wordOf 5) = [] ∧
      ¬ Shows (decodeReturn (some deepResult) (Abi.wordOf 5)) deepResult.outputs
        [nestedValue 17] := by
  have nothing : decodeReturn (some deepResult) (Abi.wordOf 5) = [] := rfl
  refine ⟨⟨rfl, by decide, by decide, by cbv, by decide⟩, List.cons_ne_nil _ _, nothing, ?_⟩
  intro shows
  have names := shows.names
  rw [nothing] at names
  cases names

end EvmInspect.Trace
