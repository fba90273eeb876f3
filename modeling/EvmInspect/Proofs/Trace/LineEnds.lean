import EvmInspect.Text.Split
import EvmInspect.Trace.Report

/-!
# Line ends in what a report shows

A report is written line by line, so what it shows should hold no line end of its own. Numbers,
addresses and bytes are written in digits and never do (`count_toDigits`, `count_hexDigits`,
`count_checksum`); a string is written as it is, so its line ends go into the line. They are
all there are: a value has the line ends of the strings in it, as far as these are shown
(`count_showValue`).
-/

namespace EvmInspect

namespace Text

/-! ## Splitting -/

/-- A text is split where it is put together with a separator. -/
theorem splitOnChar_append (separator : Char) (cs later : List Char) :
    splitOnChar separator (cs ++ separator :: later) =
      splitOnChar separator cs ++ splitOnChar separator later := by
  induction cs with
  | nil => simp [splitOnChar]
  | cons c rest ih =>
    rw [List.cons_append, splitOnChar, splitOnChar, ih]
    split
    next => rfl
    next =>
      obtain ⟨run, runs, split⟩ := List.exists_cons_of_ne_nil (splitOnChar_ne_nil separator rest)
      rw [split]
      rfl

/-- There is one piece more than there are separators. -/
theorem length_splitOnChar (separator : Char) (cs : List Char) :
    (splitOnChar separator cs).length = cs.count separator + 1 := by
  induction cs with
  | nil => rfl
  | cons c rest ih =>
    obtain ⟨run, runs, split⟩ := List.exists_cons_of_ne_nil (splitOnChar_ne_nil separator rest)
    rw [split] at ih
    by_cases same : c = separator
    · rw [splitOnChar, if_pos same, split, same, List.count_cons_self, List.length_cons, ih]
    · rw [splitOnChar, if_neg same, split, List.count_cons_of_ne same, ← ih]
      rfl

theorem splitOnChar_of_not_mem {separator : Char} {cs : List Char} (absent : separator ∉ cs) :
    splitOnChar separator cs = [cs] := by
  have one : (splitOnChar separator cs).length = 1 := by
    rw [length_splitOnChar, List.count_eq_zero.mpr absent]
  obtain ⟨piece, whole⟩ := List.length_eq_one_iff.mp one
  have joined := intercalate_splitOnChar separator cs
  rw [whole] at joined ⊢
  rw [← joined]
  simp [List.intercalate]

theorem length_flatMap_splitOnChar (separator : Char) (pieces : List (List Char)) :
    (pieces.flatMap (splitOnChar separator)).length =
      pieces.length + pieces.flatten.count separator := by
  induction pieces with
  | nil => rfl
  | cons piece rest ih =>
    rw [List.flatMap_cons, List.length_append, length_splitOnChar, ih, List.flatten_cons,
      List.count_append, List.length_cons]
    omega

/-- Pieces without separators stay whole. -/
theorem flatMap_splitOnChar_of_not_mem {separator : Char} {pieces : List (List Char)}
    (absent : separator ∉ pieces.flatten) : pieces.flatMap (splitOnChar separator) = pieces := by
  induction pieces with
  | nil => rfl
  | cons piece rest ih =>
    rw [List.flatten_cons, List.mem_append, not_or] at absent
    rw [List.flatMap_cons, splitOnChar_of_not_mem absent.1, ih absent.2, List.singleton_append]

/-- Lines that are joined are split again, each into its own pieces. -/
theorem splitOnChar_joined (separator : Char) {lines : List (List Char)} (nonempty : lines ≠ []) :
    splitOnChar separator (Abi.Param.joined [separator] lines) =
      lines.flatMap (splitOnChar separator) := by
  induction lines with
  | nil => exact absurd rfl nonempty
  | cons line rest ih =>
    cases rest with
    | nil => simp [Abi.Param.joined]
    | cons next later =>
      have whole : Abi.Param.joined [separator] (line :: next :: later) =
          line ++ separator :: Abi.Param.joined [separator] (next :: later) := by
        simp [Abi.Param.joined]
      rw [whole, splitOnChar_append, ih (List.cons_ne_nil _ _), ← List.flatMap_cons]

end Text

namespace Trace

/-! ## Digits -/

theorem count_toDigits {base : Nat} (proper : 1 < base) (n : Nat) :
    (Nat.toDigits base n).count '\n' = 0 := by
  induction n using Nat.strongRecOn with
  | ind n ih =>
    have digit : ∀ d, [Nat.digitChar d].count '\n' = 0 := fun d => by simp
    rw [Nat.toDigits_eq_if proper]
    split
    next => exact digit n
    next large =>
      have smaller : n / base < n := Nat.div_lt_self (by omega) proper
      rw [List.count_append, ih _ smaller, digit]

theorem exists_digit_of_mem_digits {bs : Bytes} {c : Char} (mem : c ∈ Hex.digits bs) :
    ∃ n < 16, c = Hex.digit n := by
  obtain ⟨b, _, pair⟩ := List.mem_flatMap.mp mem
  have := b.toNat_lt
  rcases List.mem_cons.mp pair with rfl | low
  · exact ⟨b.toNat / 16, by omega, rfl⟩
  · exact ⟨b.toNat % 16, by omega, List.mem_singleton.mp low⟩

/-- A hexadecimal digit is no line end, be it small or a capital. -/
theorem digit_ne : ∀ n < 16, Hex.digit n ≠ '\n' ∧ (Hex.digit n).toUpper ≠ '\n' := by decide

theorem count_hexDigits (bs : Bytes) : (Hex.digits bs).count '\n' = 0 := by
  rw [List.count_eq_zero]
  intro mem
  obtain ⟨n, small, same⟩ := exists_digit_of_mem_digits mem
  exact (digit_ne n small).1 same.symm

theorem count_checksum (a : Address) : a.checksum.toList.count '\n' = 0 := by
  rw [Address.checksum, String.toList_ofList, List.count_eq_zero]
  intro mem
  rcases List.mem_cons.mp mem with same | mem
  · exact absurd same (by decide)
  rcases List.mem_cons.mp mem with same | mem
  · exact absurd same (by decide)
  rw [Address.checksumDigits, ← List.map_uncurry_zip_eq_zipWith] at mem
  obtain ⟨⟨c, n⟩, pair, same⟩ := List.mem_map.mp mem
  obtain ⟨d, small, rfl⟩ := exists_digit_of_mem_digits (List.of_mem_zip pair).1
  dsimp only [Function.uncurry] at same
  split at same
  · exact (digit_ne d small).2 same
  · exact (digit_ne d small).1 same

theorem count_decimal (n : Int) : (Numeral.decimal n).toList.count '\n' = 0 := by
  cases n with
  | ofNat n =>
    rw [Numeral.decimal, String.toList_ofList, count_toDigits (by decide)]
  | negSucc n =>
    rw [Numeral.decimal, String.toList_ofList, List.count_cons, count_toDigits (by decide)]
    rfl

/-! ## Values -/

mutual

/-- The characters of the strings in a value, of each string as many as are shown. -/
def valueText (shown : String → List Char) : Abi.Value → List Char
  | .string s => shown s
  | .array items => valuesText shown items
  | .tuple members => valuesText shown members
  | _ => []

def valuesText (shown : String → List Char) : List Abi.Value → List Char
  | [] => []
  | v :: vs => valueText shown v ++ valuesText shown vs

end

/-- What is shown of a string: all of it, or only its beginning beyond the limit. -/
def PreviewConfig.shown (config : PreviewConfig) (s : String) : List Char :=
  if config.maxStringChars < s.toList.length then s.toList.take config.stringPreviewChars
  else s.toList

variable (config : PreviewConfig)

theorem count_showString (s : String) :
    (showString config s).count '\n' = (config.shown s).count '\n' := by
  unfold showString PreviewConfig.shown
  split <;> simp

theorem count_showBytes (bs : Bytes) : (showBytes config bs).count '\n' = 0 := by
  have part : (preview config.bytesPreviewHexChars (Hex.digits bs)).count '\n' = 0 := by
    have all := List.count_eq_zero.mp (count_hexDigits bs)
    unfold preview
    split
    next => exact List.count_eq_zero.mpr fun mem => all (List.mem_of_mem_take mem)
    next => exact count_hexDigits bs
  unfold showBytes
  split
  · simp [count_hexDigits]
  · simp [part, count_toDigits]

theorem count_flatMap_congr {α : Type} {f g : α → List Char} {xs : List α}
    (same : ∀ x ∈ xs, (f x).count '\n' = (g x).count '\n') :
    (xs.flatMap f).count '\n' = (xs.flatMap g).count '\n' := by
  induction xs with
  | nil => rfl
  | cons x rest ih =>
    obtain ⟨first, others⟩ := List.forall_mem_cons.mp same
    rw [List.flatMap_cons, List.flatMap_cons, List.count_append, List.count_append, first,
      ih others]

theorem count_joined (texts : List (List Char)) :
    (joined texts).count '\n' = texts.flatten.count '\n' := by
  induction texts with
  | nil => rfl
  | cons text rest ih =>
    cases rest with
    | nil => simp [joined, Abi.Param.joined]
    | cons next later =>
      have whole : joined (text :: next :: later) =
          text ++ [',', ' '] ++ joined (next :: later) := by
        simp [joined, Abi.Param.joined]
      have parts : (text :: next :: later).flatten = text ++ (next :: later).flatten :=
        List.flatten_cons
      rw [whole, parts, List.count_append, List.count_append, List.count_append, ih]
      rfl

mutual

/-- A value is shown with the line ends of the strings in it and no others. -/
theorem count_showValue : (v : Abi.Value) →
    (showValue config v).count '\n' = (valueText config.shown v).count '\n'
  | .bool b => by cases b <;> rfl
  | .uint w => count_decimal w.toNat
  | .int w => count_decimal w.toInt
  | .address a => count_checksum a
  | .fixedBytes bs => count_showBytes config bs
  | .bytes bs => count_showBytes config bs
  | .function bs => by
    show ("Function(0x".toList ++ Hex.digits bs ++ [')']).count '\n' = 0
    simp [count_hexDigits]
  | .string s => count_showString config s
  | .array items => by
    show ('[' :: joined (showValues config items) ++ [']']).count '\n' =
      (valuesText config.shown items).count '\n'
    simp [count_joined, count_showValues items]
  | .tuple members => by
    show ('(' :: joined (showValues config members) ++ [')']).count '\n' =
      (valuesText config.shown members).count '\n'
    simp [count_joined, count_showValues members]

theorem count_showValues : (vs : List Abi.Value) →
    (showValues config vs).flatten.count '\n' = (valuesText config.shown vs).count '\n'
  | [] => rfl
  | v :: vs => by
    rw [showValues, valuesText, List.flatten_cons, List.count_append, List.count_append,
      count_showValue v, count_showValues vs]

end

/-! ## Parameters -/

/-- A name without a line end. -/
def OneLine (name : String) : Prop := '\n' ∉ name.toList

instance (name : String) : Decidable (OneLine name) :=
  inferInstanceAs (Decidable ('\n' ∉ name.toList))

theorem OneLine.count {name : String} (h : OneLine name) : name.toList.count '\n' = 0 :=
  List.count_eq_zero.mpr h

/-- The characters of the strings in some parameters. -/
def parametersText (shown : String → List Char) (ps : List Parameter) : List Char :=
  ps.flatMap fun p => valueText shown p.value

theorem count_showParameters {ps : List Parameter} (names : ∀ p ∈ ps, OneLine p.name) :
    (showParameters config ps).count '\n' = (parametersText config.shown ps).count '\n' := by
  rw [showParameters, count_joined, ← List.flatMap_def, parametersText]
  apply count_flatMap_congr
  intro p mem
  unfold showParameter
  split
  · exact count_showValue config p.value
  · simp [(names p mem).count, count_showValue]

end Trace

end EvmInspect
