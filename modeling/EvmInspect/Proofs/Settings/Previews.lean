import EvmInspect.Proofs.Bytes.HexDigits
import EvmInspect.Settings.Basic

/-!
# What an ellipsis stands for

A value that is too long for a report is cut short, and an ellipsis says so. `TellsText` and
`TellsBytes` say when it is right: the value is shown whole and without one, or some of its
characters are missing where it stands.

Under settings that pass their check an ellipsis in a text is always right, because the check
compares the two limits for texts. It compares no limits for byte strings, and where the preview has
room for all digits of a value that is too long, the whole value is shown with an ellipsis behind
it. `ellipses_leave_out` says for which byte strings this happens and for which settings it happens
to none.
-/

namespace EvmInspect.Trace

/-- What is shown is a beginning of the whole, and not all of it. -/
structure LeavesOut (shown whole : List Char) : Prop where
  beginning : shown <+: whole
  shorter : shown.length < whole.length

/-- A text is shown whole, or an ellipsis stands for a part that is left out. -/
inductive TellsText (s : String) : List Char → Prop
  | whole : TellsText s ('"' :: s.toList ++ ['"'])
  | cut {shown} : LeavesOut shown s.toList → TellsText s ('"' :: shown ++ ['.', '.', '.', '"'])

/-- What stands behind the digits that are shown of a byte string. -/
def bytesEllipsis (bs : Bytes) : List Char :=
  "... (".toList ++ Nat.toDigits 10 bs.length ++ " bytes)".toList

theorem bytesEllipsis_ne_nil (bs : Bytes) : bytesEllipsis bs ≠ [] :=
  List.append_ne_nil_of_right_ne_nil _ (by decide)

/-- A byte string is shown with all its digits, or an ellipsis stands for digits that are left
out. -/
inductive TellsBytes (bs : Bytes) : List Char → Prop
  | whole : TellsBytes bs (Hex.encode bs).toList
  | cut {shown} : LeavesOut shown (Hex.digits bs) →
      TellsBytes bs ('0' :: 'x' :: shown ++ bytesEllipsis bs)

section Preview

variable {config : PreviewConfig}

theorem leavesOut_take {count : Nat} {whole : List Char} (less : count < whole.length) :
    LeavesOut (whole.take count) whole where
  beginning := List.take_prefix count whole
  shorter := by rwa [List.length_take_of_le (Nat.le_of_lt less)]

theorem length_digits (bs : Bytes) : (Hex.digits bs).length = 2 * bs.length := by
  rw [(Hex.spells_digits bs).length_eq, Hex.length_unpack]

/-- A preview that is no longer than the limit leaves out something of every text beyond it. -/
theorem tellsText_showString (ordered : config.stringPreviewChars ≤ config.maxStringChars)
    (s : String) : TellsText s (showString config s) := by
  unfold showString
  split
  next long => exact .cut (leavesOut_take (Nat.lt_of_le_of_lt ordered long))
  next => exact .whole

theorem toList_encode (bs : Bytes) : (Hex.encode bs).toList = '0' :: 'x' :: Hex.digits bs :=
  String.toList_ofList

theorem showBytes_of_short {bs : Bytes} (short : bs.length ≤ config.maxInlineBytes) :
    showBytes config bs = (Hex.encode bs).toList := by
  rw [showBytes, if_pos short, toList_encode]

theorem showBytes_of_long {bs : Bytes} (long : config.maxInlineBytes < bs.length) :
    showBytes config bs =
      '0' :: 'x' :: (Hex.digits bs).take config.bytesPreviewHexChars ++ bytesEllipsis bs := by
  have cut : preview config.bytesPreviewHexChars (Hex.digits bs) =
      (Hex.digits bs).take config.bytesPreviewHexChars := by
    unfold preview
    split
    · rfl
    next beyond => rw [List.take_of_length_le (by omega)]
  rw [showBytes, if_neg (Nat.not_le.mpr long), cut]
  show _ = _ ++ ("... (".toList ++ Nat.toDigits 10 bs.length ++ " bytes)".toList)
  simp only [List.append_assoc]

/-- A byte string with all its digits and an ellipsis behind them is not told right. -/
theorem not_tellsBytes_of_all {bs : Bytes} :
    ¬ TellsBytes bs ('0' :: 'x' :: Hex.digits bs ++ bytesEllipsis bs) := by
  intro tells
  generalize shown : '0' :: 'x' :: Hex.digits bs ++ bytesEllipsis bs = text at tells
  cases tells with
  | whole =>
    have none : bytesEllipsis bs = [] :=
      List.append_right_eq_self.mp (shown.trans (toList_encode bs))
    exact bytesEllipsis_ne_nil bs none
  | cut leaves =>
    have same := List.append_cancel_right shown
    cases same
    exact Nat.lt_irrefl _ leaves.shorter

theorem tellsBytes_iff {bs : Bytes} :
    TellsBytes bs (showBytes config bs) ↔
      bs.length ≤ config.maxInlineBytes ∨ config.bytesPreviewHexChars < 2 * bs.length := by
  rcases Nat.lt_or_ge config.maxInlineBytes bs.length with long | short
  · rw [showBytes_of_long long, or_iff_right (Nat.not_le.mpr long)]
    constructor
    · intro tells
      by_contra beyond
      rw [List.take_of_length_le (by rw [length_digits]; omega)] at tells
      exact not_tellsBytes_of_all tells
    · intro within
      exact .cut (leavesOut_take (by rwa [length_digits]))
  · rw [showBytes_of_short short]
    exact iff_of_true .whole (.inl short)

end Preview

/-- Under settings that pass their check, an ellipsis in a text stands for something that is left
out. That of a byte string does unless the preview has room for all its digits, so all of them do
exactly if it has no room for those of the shortest byte string that is cut. -/
theorem ellipses_leave_out {settings : Settings} (passes : settings.check = .ok ()) :
    (∀ s, TellsText s (showString settings.preview s)) ∧
    (∀ bs, TellsBytes bs (showBytes settings.preview bs) ↔
      bs.length ≤ settings.preview.maxInlineBytes ∨
        settings.preview.bytesPreviewHexChars < 2 * bs.length) ∧
    ((∀ bs, TellsBytes bs (showBytes settings.preview bs)) ↔
      settings.preview.bytesPreviewHexChars < 2 * (settings.preview.maxInlineBytes + 1)) := by
  have ordered := (Settings.check_eq_ok_iff.mp passes).preview
  refine ⟨tellsText_showString ordered, fun bs => tellsBytes_iff, ?_, ?_⟩
  · intro all
    have shortest := tellsBytes_iff.mp
      (all (List.replicate (settings.preview.maxInlineBytes + 1) 0))
    rw [List.length_replicate] at shortest
    omega
  · intro room bs
    refine tellsBytes_iff.mpr (or_iff_not_imp_left.mpr fun long => ?_)
    omega

/-- The standard settings leave something out wherever they show an ellipsis. -/
theorem standard_ellipses_leave_out :
    ({} : Settings).check = .ok () ∧
      (∀ s, TellsText s (showString {} s)) ∧ ∀ bs, TellsBytes bs (showBytes {} bs) := by
  have passes : ({} : Settings).check = .ok () := by decide
  obtain ⟨texts, _, bytes⟩ := ellipses_leave_out passes
  exact ⟨passes, texts, bytes.mpr (by decide)⟩

/-- Settings that show no byte string in full pass their check, and show one byte with both its
digits and an ellipsis for none. -/
theorem whole_byte_has_ellipsis :
    let settings : Settings := { preview := { maxInlineBytes := 0 } }
    settings.check = .ok () ∧
      showBytes settings.preview [0xab] = "0xab... (1 bytes)".toList ∧
      Hex.encode [0xab] = "0xab" ∧
      ¬ TellsBytes [0xab] (showBytes settings.preview [0xab]) := by
  refine ⟨by decide, by decide, by decide, not_tellsBytes_of_all⟩

end EvmInspect.Trace
