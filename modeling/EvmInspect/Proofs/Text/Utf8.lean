import EvmInspect.Bytes.Hex
import EvmInspect.Text.Utf8

/-!
# UTF-8 is read back

A character is written in one to four bytes. The bytes after the first carry six bits each
(`isContinuation_ofNat`, `low_ofNat`), and the first tells how many there are, so a character
is read back one length at a time (`decodeUtf8_one` to `decodeUtf8_four`). Longer forms of a
number than it needs, and the numbers that are no characters, are never written: of what is
written nothing is replaced (`decodeUtf8_utf8`).
-/

namespace EvmInspect.Text

/-! ## Bytes -/

theorem toNat_ofNat {n : Nat} (h : n < 256) : (UInt8.ofNat n).toNat = n :=
  UInt8.toNat_ofNat_of_lt' h

/-- A byte that carries six bits may follow the first byte of a character. -/
theorem isContinuation_ofNat (n : Nat) : isContinuation (UInt8.ofNat (n % 64 + 128)) = true := by
  have byte : (UInt8.ofNat (n % 64 + 128)).toNat = n % 64 + 128 := toNat_ofNat (by omega)
  simp only [isContinuation, UInt8.le_iff_toNat_le, byte, UInt8.reduceToNat, Bool.and_eq_true,
    decide_eq_true_eq]
  omega

theorem low_ofNat (n : Nat) : low (UInt8.ofNat (n % 64 + 128)) = n % 64 := by
  unfold low
  rw [toNat_ofNat (by omega)]
  omega

/-- In three bytes no number is written that fits two, and no surrogate. -/
theorem opensThree_ofNat {n : Nat} (least : 2048 ≤ n) (most : n < 65536)
    (scalar : n < 55296 ∨ 57344 ≤ n) :
    opensThree (UInt8.ofNat (n / 4096 % 16 + 224)) (UInt8.ofNat (n / 64 % 64 + 128)) = true := by
  have first : (UInt8.ofNat (n / 4096 % 16 + 224)).toNat = n / 4096 % 16 + 224 :=
    toNat_ofNat (by omega)
  have second : (UInt8.ofNat (n / 64 % 64 + 128)).toNat = n / 64 % 64 + 128 :=
    toNat_ofNat (by omega)
  simp only [opensThree, isContinuation, UInt8.le_iff_toNat_le, beq_iff_eq, ← UInt8.toNat_inj,
    first, second, UInt8.reduceToNat]
  split
  · simp only [Bool.and_eq_true, decide_eq_true_eq]
    omega
  · split <;> simp only [Bool.and_eq_true, decide_eq_true_eq] <;> omega

/-- In four bytes no number is written that fits three, and none beyond the last character. -/
theorem opensFour_ofNat {n : Nat} (least : 65536 ≤ n) (most : n < 1114112) :
    opensFour (UInt8.ofNat (n / 262144 % 8 + 240)) (UInt8.ofNat (n / 4096 % 64 + 128)) = true := by
  have first : (UInt8.ofNat (n / 262144 % 8 + 240)).toNat = n / 262144 % 8 + 240 :=
    toNat_ofNat (by omega)
  have second : (UInt8.ofNat (n / 4096 % 64 + 128)).toNat = n / 4096 % 64 + 128 :=
    toNat_ofNat (by omega)
  simp only [opensFour, isContinuation, UInt8.le_iff_toNat_le, beq_iff_eq, ← UInt8.toNat_inj,
    first, second, UInt8.reduceToNat]
  split
  · simp only [Bool.and_eq_true, decide_eq_true_eq]
    omega
  · split <;> simp only [Bool.and_eq_true, decide_eq_true_eq] <;> omega

/-! ## One character -/

section Character

variable (rest : Bytes) {n : Nat}

theorem decodeUtf8_one (h : n < 128) :
    decodeUtf8 (UInt8.ofNat n :: rest) = Char.ofNat n :: decodeUtf8 rest := by
  have first : (UInt8.ofNat n).toNat = n := toNat_ofNat (by omega)
  rw [decodeUtf8.eq_def]
  simp only [UInt8.lt_iff_toNat_lt, first, UInt8.reduceToNat, h, if_true]

theorem decodeUtf8_two (least : 128 ≤ n) (most : n < 2048) :
    decodeUtf8 (UInt8.ofNat (n / 64 % 32 + 192) :: UInt8.ofNat (n % 64 + 128) :: rest) =
      Char.ofNat n :: decodeUtf8 rest := by
  have first : (UInt8.ofNat (n / 64 % 32 + 192)).toNat = n / 64 % 32 + 192 :=
    toNat_ofNat (by omega)
  have notOne : ¬ n / 64 % 32 + 192 < 128 := by omega
  have two : 194 ≤ n / 64 % 32 + 192 ∧ n / 64 % 32 + 192 ≤ 223 := by omega
  have number : (n / 64 % 32 + 192) % 32 * 64 + n % 64 = n := by omega
  rw [decodeUtf8.eq_def]
  simp only [UInt8.lt_iff_toNat_lt, UInt8.le_iff_toNat_le, first, UInt8.reduceToNat, notOne, two,
    if_false, decide_true, Bool.and_self, if_true, isContinuation_ofNat, low_ofNat, number]

theorem decodeUtf8_three (least : 2048 ≤ n) (most : n < 65536) (scalar : n < 55296 ∨ 57344 ≤ n) :
    decodeUtf8 (UInt8.ofNat (n / 4096 % 16 + 224) :: UInt8.ofNat (n / 64 % 64 + 128) ::
      UInt8.ofNat (n % 64 + 128) :: rest) = Char.ofNat n :: decodeUtf8 rest := by
  have first : (UInt8.ofNat (n / 4096 % 16 + 224)).toNat = n / 4096 % 16 + 224 :=
    toNat_ofNat (by omega)
  have notOne : ¬ n / 4096 % 16 + 224 < 128 := by omega
  have notTwo : ¬ n / 4096 % 16 + 224 ≤ 223 := by omega
  have three : 224 ≤ n / 4096 % 16 + 224 ∧ n / 4096 % 16 + 224 ≤ 239 := by omega
  have number : ((n / 4096 % 16 + 224) % 16 * 64 + n / 64 % 64) * 64 + n % 64 = n := by omega
  have opens := opensThree_ofNat least most scalar
  rw [decodeUtf8.eq_def]
  simp only [UInt8.lt_iff_toNat_lt, UInt8.le_iff_toNat_le, first, UInt8.reduceToNat, notOne,
    notTwo, three, opens, if_false, decide_false, Bool.and_false, Bool.false_eq_true, decide_true,
    Bool.and_self, if_true, isContinuation_ofNat, low_ofNat, number]

theorem decodeUtf8_four (least : 65536 ≤ n) (most : n < 1114112) :
    decodeUtf8 (UInt8.ofNat (n / 262144 % 8 + 240) :: UInt8.ofNat (n / 4096 % 64 + 128) ::
      UInt8.ofNat (n / 64 % 64 + 128) :: UInt8.ofNat (n % 64 + 128) :: rest) =
      Char.ofNat n :: decodeUtf8 rest := by
  have first : (UInt8.ofNat (n / 262144 % 8 + 240)).toNat = n / 262144 % 8 + 240 :=
    toNat_ofNat (by omega)
  have notOne : ¬ n / 262144 % 8 + 240 < 128 := by omega
  have notTwo : ¬ n / 262144 % 8 + 240 ≤ 223 := by omega
  have notThree : ¬ n / 262144 % 8 + 240 ≤ 239 := by omega
  have four : 240 ≤ n / 262144 % 8 + 240 ∧ n / 262144 % 8 + 240 ≤ 244 := by omega
  have number : (((n / 262144 % 8 + 240) % 8 * 64 + n / 4096 % 64) * 64 + n / 64 % 64) * 64
      + n % 64 = n := by omega
  have opens := opensFour_ofNat least most
  rw [decodeUtf8.eq_def]
  simp only [UInt8.lt_iff_toNat_lt, UInt8.le_iff_toNat_le, first, UInt8.reduceToNat, notOne,
    notTwo, notThree, four, opens, if_false, decide_false, Bool.and_false, Bool.false_eq_true,
    decide_true, Bool.and_self, if_true, isContinuation_ofNat, low_ofNat, number]

end Character

/-- What a character is written as is read back as the character. -/
theorem decodeUtf8_encodeChar (c : Char) (rest : Bytes) :
    decodeUtf8 (String.utf8EncodeChar c ++ rest) = c :: decodeUtf8 rest := by
  have back : Char.ofNat c.val.toNat = c := Char.ofNat_toNat c
  have scalar : c.val.toNat < 55296 ∨ 57343 < c.val.toNat ∧ c.val.toNat < 1114112 := c.valid
  unfold String.utf8EncodeChar
  simp only
  split
  next one => exact (decodeUtf8_one rest (by omega)).trans (by rw [back])
  next notOne =>
    split
    next two => exact (decodeUtf8_two rest (by omega) (by omega)).trans (by rw [back])
    next notTwo =>
      split
      next three =>
        exact (decodeUtf8_three rest (by omega) (by omega) (by omega)).trans (by rw [back])
      next notThree =>
        exact (decodeUtf8_four rest (by omega) (by omega)).trans (by rw [back])

/-- A text is read back from the bytes it is written in. -/
theorem decodeUtf8_utf8 (cs : List Char) : decodeUtf8 (Hex.utf8 cs) = cs := by
  unfold Hex.utf8
  induction cs with
  | nil => rw [List.flatMap_nil, decodeUtf8.eq_def]
  | cons c cs ih => rw [List.flatMap_cons, decodeUtf8_encodeChar, ih]

end EvmInspect.Text
