import EvmInspect.Bytes.Hex
import EvmInspect.Word.Text
import Mathlib.Data.List.Forall2

/-!
# Hexadecimal digits

Bytes, words and 64-bit numbers are read from hexadecimal text by three readers of their own.
All of them read the same thing: the values of the digits (`Spells`), and the number that these
make (`number`). So a text is followed to its values once, and each reader is described by what
it makes of them: pairs of digits are bytes (`decodePairs_spells`), and whatever is put in front
of an odd number of them the bytes write the same number (`decodePadded_spells`,
`readDigits_spells`). What is written in hexadecimal spells the value it was written from
(`spells_digits`, `exists_spells_toDigits`), which makes each reader an inverse of its writer.
-/

namespace EvmInspect

namespace Hex

/-- The characters are hexadecimal digits, of either case, with these values. -/
def Spells (cs : List Char) (ds : List Nat) : Prop :=
  List.Forall₂ (fun c d => digitValue? c.toNat = some d) cs ds

/-- The number that hexadecimal digits write, going on from a number. -/
def number (soFar : Nat) (ds : List Nat) : Nat := ds.foldl (fun n d => n * 16 + d) soFar

/-- The bytes whose digits come in pairs. -/
def pack : List Nat → Bytes
  | high :: low :: rest => UInt8.ofNat (high * 16 + low) :: pack rest
  | _ => []

/-- The digits of bytes, two for each. -/
def unpack (bs : Bytes) : List Nat := bs.flatMap fun b => [b.toNat / 16, b.toNat % 16]

/-! ## Digits -/

section Digit

variable {n d : Nat}

theorem digitValue?_eq_some (h : digitValue? n = some d) :
    48 ≤ n ∧ n ≤ 57 ∧ d = n - 48 ∨ 97 ≤ n ∧ n ≤ 102 ∧ d = n - 87 ∨
      65 ≤ n ∧ n ≤ 70 ∧ d = n - 55 := by
  unfold digitValue? at h
  split at h
  · cases h
    omega
  · split at h
    · cases h
      omega
    · split at h
      · cases h
        omega
      · cases h

theorem digitValue?_lt (h : digitValue? n = some d) : d < 16 := by
  have cases := digitValue?_eq_some h
  omega

theorem digitValue?_ascii (h : digitValue? n = some d) : n < 128 := by
  have cases := digitValue?_eq_some h
  omega

theorem digitValue?_digit : ∀ d < 16, digitValue? (digit d).toNat = some d := by decide

theorem digitValue?_digitChar : ∀ d < 16, digitValue? (Nat.digitChar d).toNat = some d := by
  decide

/-- A hexadecimal digit is a digit of base 16 with the same value. -/
theorem numeral_digitValue? {c : Char} (h : digitValue? c.toNat = some d) :
    Numeral.digitValue? 16 c = some d := by
  have small := digitValue?_lt h
  have shown : ∀ value, value = d → (if value < 16 then some value else none) = some d := by
    rintro value rfl
    exact if_pos small
  apply shown
  rcases digitValue?_eq_some h with digit | lower | upper
  · rw [if_pos (by omega)]
    omega
  · rw [if_neg (by omega), if_pos (by omega)]
    omega
  · rw [if_neg (by omega), if_neg (by omega), if_pos (by omega)]
    omega

theorem utf8EncodeChar_digit {c : Char} (h : digitValue? c.toNat = some d) :
    String.utf8EncodeChar c = [c.val.toUInt8] := by
  have ascii := digitValue?_ascii h
  apply String.utf8EncodeChar_eq_singleton
  unfold Char.utf8Size
  rw [if_pos]
  show c.val.toNat ≤ 127
  exact Nat.le_of_lt_succ ascii

theorem nibble_digit {c : Char} (h : digitValue? c.toNat = some d) (position : Nat) :
    nibble position c.val.toUInt8 = .ok d := by
  have ascii : c.val.toNat < 128 := digitValue?_ascii h
  have same : c.val.toUInt8.toNat = c.toNat := by
    rw [UInt32.toNat_toUInt8]
    exact Nat.mod_eq_of_lt (Nat.lt_trans ascii (by decide))
  unfold nibble
  rw [same, h]

end Digit

/-! ## Spelled values -/

section Spells

variable {cs : List Char} {ds : List Nat}

theorem Spells.length_eq (h : Spells cs ds) : cs.length = ds.length := List.Forall₂.length_eq h

theorem Spells.lt (h : Spells cs ds) : ∀ d ∈ ds, d < 16 := by
  induction h with
  | nil => exact fun _ mem => nomatch mem
  | cons first _ ih => exact List.forall_mem_cons.mpr ⟨digitValue?_lt first, ih⟩

theorem Spells.zero (h : Spells cs ds) : Spells ('0' :: cs) (0 :: ds) := .cons rfl h

theorem Spells.mapM_eq (h : Spells cs ds) : cs.mapM (fun c => digitValue? c.toNat) = some ds := by
  induction h with
  | nil => rfl
  | cons first _ ih =>
    rw [List.mapM_cons, first, ih]
    rfl

/-- The text of digits has a byte for each of them. -/
theorem Spells.utf8_eq (h : Spells cs ds) : utf8 cs = cs.map fun c => c.val.toUInt8 := by
  induction h with
  | nil => rfl
  | cons first _ ih =>
    rw [List.map_cons, ← ih, utf8, List.flatMap_cons, utf8EncodeChar_digit first]
    rfl

theorem Spells.length_utf8 (h : Spells cs ds) : (utf8 cs).length = ds.length := by
  rw [h.utf8_eq, List.length_map, h.length_eq]

/-- Digits have no mark in front. -/
theorem Spells.stripLowerMark_eq (h : Spells cs ds) : Word.stripLowerMark cs = cs := by
  unfold Word.stripLowerMark
  split
  · obtain _ | ⟨_, _ | ⟨second, _⟩⟩ := h
    cases second
  · rfl

end Spells

/-! ## Pairs of digits -/

/-- An even number of digits is none at all, or a pair with an even number after it. -/
@[elab_as_elim]
theorem pairs_induction {motive : List Nat → Prop} (none : motive [])
    (pair : ∀ high low rest, high < 16 → low < 16 → motive rest → motive (high :: low :: rest)) :
    ∀ ds : List Nat, (∀ d ∈ ds, d < 16) → ds.length % 2 = 0 → motive ds
  | [], _, _ => none
  | [_], _, even => absurd even Nat.one_ne_zero
  | high :: low :: rest, small, even => by
    obtain ⟨highSmall, later⟩ := List.forall_mem_cons.mp small
    obtain ⟨lowSmall, restSmall⟩ := List.forall_mem_cons.mp later
    have restEven : rest.length % 2 = 0 := by
      simp only [List.length_cons] at even
      omega
    exact pair high low rest highSmall lowSmall (pairs_induction none pair rest restSmall restEven)

theorem toNat_ofPair {high low : Nat} (highSmall : high < 16) (lowSmall : low < 16) :
    (UInt8.ofNat (high * 16 + low)).toNat = high * 16 + low :=
  UInt8.toNat_ofNat_of_lt' (show high * 16 + low < 256 by omega)

/-- Going on from a number, the digits of a pair count as the byte they make. -/
theorem foldl_pack (ds : List Nat) (small : ∀ d ∈ ds, d < 16) (even : ds.length % 2 = 0)
    (soFar : Nat) : (pack ds).foldl (fun n b => n * 256 + b.toNat) soFar = number soFar ds := by
  revert soFar
  refine pairs_induction (fun _ => rfl) (fun high low rest highSmall lowSmall ih soFar => ?_)
    ds small even
  rw [pack, List.foldl_cons, toNat_ofPair highSmall lowSmall, ih]
  unfold number
  rw [List.foldl_cons, List.foldl_cons]
  congr 1
  omega

theorem value_eq_foldl (bs : Bytes) (soFar : Nat) :
    soFar * BigEndian.span bs.length + BigEndian.value bs =
      bs.foldl (fun n b => n * 256 + b.toNat) soFar := by
  induction bs generalizing soFar with
  | nil =>
    show soFar * 1 + 0 = soFar
    omega
  | cons b bs ih =>
    rw [List.foldl_cons, ← ih]
    simp only [List.length_cons, BigEndian.span, BigEndian.value]
    rw [Nat.add_mul, Nat.mul_comm (BigEndian.span bs.length) 256, Nat.mul_assoc, Nat.add_assoc]

/-- The bytes of pairs of digits write the number of the digits. -/
theorem value_pack {ds : List Nat} (small : ∀ d ∈ ds, d < 16) (even : ds.length % 2 = 0) :
    BigEndian.value (pack ds) = number 0 ds := by
  rw [← foldl_pack ds small even 0, ← value_eq_foldl, Nat.zero_mul, Nat.zero_add]

/-- The digits of bytes are packed into the bytes again. -/
theorem pack_unpack (bs : Bytes) : pack (unpack bs) = bs := by
  induction bs with
  | nil => rfl
  | cons b bs ih =>
    have byte : UInt8.ofNat (b.toNat / 16 * 16 + b.toNat % 16) = b := by
      rw [Nat.mul_comm, Nat.div_add_mod, UInt8.ofNat_toNat]
    show UInt8.ofNat (b.toNat / 16 * 16 + b.toNat % 16) :: pack (unpack bs) = b :: bs
    rw [byte, ih]

theorem length_unpack (bs : Bytes) : (unpack bs).length = 2 * bs.length := by
  induction bs with
  | nil => rfl
  | cons b bs ih =>
    show (unpack bs).length + 1 + 1 = 2 * (bs.length + 1)
    omega

/-! ## Reading -/

section Reading

variable {cs : List Char} {ds : List Nat}

/-- Pairs of digits are read as the bytes they make. -/
theorem decodePairs_spells (h : Spells cs ds) (even : ds.length % 2 = 0) (position : Nat) :
    decodePairs position (utf8 cs) = .ok (pack ds) := by
  fun_induction pack ds generalizing cs position with
  | case1 high low rest ih =>
    obtain _ | ⟨first, _ | ⟨second, later⟩⟩ := h
    have restEven : rest.length % 2 = 0 := by
      simp only [List.length_cons] at even
      omega
    have read := ih later restEven (position + 2)
    rw [Spells.utf8_eq (.cons first (.cons second later))]
    rw [Spells.utf8_eq later] at read
    simp only [List.map_cons, decodePairs, nibble_digit first, nibble_digit second, read]
  | case2 ds other =>
    match ds, other, even, h with
    | [], _, _, .nil => rfl
    | [_], _, even, _ => exact absurd even Nat.one_ne_zero
    | high :: low :: rest, other, _, _ => exact absurd rfl (other high low rest)

/-- With a zero in front of an odd number of digits, the bytes write the digits' number. -/
theorem decodePadded_spells (h : Spells cs ds) :
    ∃ bs, decodePadded (utf8 cs) = .ok bs ∧ BigEndian.value bs = number 0 ds := by
  unfold decodePadded
  rw [h.length_utf8]
  by_cases odd : ds.length % 2 = 1
  · have even : (0 :: ds).length % 2 = 0 := by
      rw [List.length_cons]
      omega
    rw [if_pos odd]
    exact ⟨_, decodePairs_spells h.zero even 0, value_pack h.zero.lt even⟩
  · have even : ds.length % 2 = 0 := by omega
    rw [if_neg odd]
    exact ⟨_, decodePairs_spells h even 0, value_pack h.lt even⟩

theorem le_number (soFar : Nat) (ds : List Nat) : soFar ≤ number soFar ds := by
  induction ds generalizing soFar with
  | nil => exact Nat.le_refl soFar
  | cons d ds ih =>
    have later := ih (soFar * 16 + d)
    unfold number at later ⊢
    rw [List.foldl_cons]
    omega

/-- Digits are read as their number if it is below the limit. -/
theorem readDigits_spells (h : Spells cs ds) {soFar limit : Nat}
    (fits : number soFar ds < limit) :
    Numeral.readDigits 16 limit soFar cs = .ok (number soFar ds) := by
  induction h generalizing soFar with
  | nil => rfl
  | @cons c d cs ds first _ ih =>
    have step : number soFar (d :: ds) = number (soFar * 16 + d) ds := rfl
    rw [step] at fits ⊢
    have below : soFar * 16 + d < limit := Nat.lt_of_le_of_lt (le_number _ _) fits
    unfold Numeral.readDigits
    rw [numeral_digitValue? first]
    dsimp only
    rw [if_pos below, ih fits]

end Reading

/-! ## Writing -/

/-- Bytes are written with their digits. -/
theorem spells_digits (bs : Bytes) : Spells (digits bs) (unpack bs) := by
  induction bs with
  | nil => exact .nil
  | cons b bs ih =>
    have byte := b.toNat_lt
    have high := digitValue?_digit (b.toNat / 16) (by omega)
    have low := digitValue?_digit (b.toNat % 16) (by omega)
    exact .cons high (.cons low ih)

/-- A number in hexadecimal is written with digits that make it. -/
theorem exists_spells_toDigits (n : Nat) :
    ∃ ds, Spells (Nat.toDigits 16 n) ds ∧ number 0 ds = n := by
  induction n using Nat.strongRecOn with
  | _ n ih =>
    by_cases small : n < 16
    · rw [Nat.toDigits_of_lt_base small]
      refine ⟨[n], .cons (digitValue?_digitChar n small) .nil, ?_⟩
      show 0 * 16 + n = n
      omega
    · have large : 16 ≤ n := Nat.le_of_not_lt small
      obtain ⟨ds, spells, same⟩ := ih (n / 16) (by omega)
      have last := digitValue?_digitChar (n % 16) (by omega)
      rw [Nat.toDigits_of_base_le (by decide) large]
      refine ⟨ds ++ [n % 16], List.rel_append spells (.cons last .nil), ?_⟩
      unfold number at same ⊢
      rw [List.foldl_append, same]
      show n / 16 * 16 + n % 16 = n
      omega

/-- A number other than zero is written without a zero in front. -/
theorem head?_toDigits {n : Nat} (pos : 0 < n) : (Nat.toDigits 16 n).head? ≠ some '0' := by
  induction n using Nat.strongRecOn with
  | _ n ih =>
    by_cases small : n < 16
    · have digit : ∀ d < 16, 0 < d → some (Nat.digitChar d) ≠ some '0' := by decide
      rw [Nat.toDigits_of_lt_base small]
      exact digit n small pos
    · have large : 16 ≤ n := Nat.le_of_not_lt small
      rw [Nat.toDigits_of_base_le (by decide) large]
      have first := ih (n / 16) (by omega) (by omega)
      intro zero
      rw [List.head?_append_of_ne_nil _ Nat.toDigits_ne_nil] at zero
      exact first zero

/-! ## Reading what was written -/

theorem length_utf8_digits (bs : Bytes) : (utf8 (digits bs)).length = 2 * bs.length := by
  rw [(spells_digits bs).length_utf8, length_unpack]

theorem decodePairs_digits (bs : Bytes) (position : Nat) :
    decodePairs position (utf8 (digits bs)) = .ok bs := by
  have even : (unpack bs).length % 2 = 0 := by
    rw [length_unpack]
    omega
  rw [decodePairs_spells (spells_digits bs) even position, pack_unpack]

/-- Whole bytes are read from the digits that they are written with. -/
theorem decodeStrict_digits (bs : Bytes) : decodeStrict (utf8 (digits bs)) = .ok bs := by
  unfold decodeStrict
  rw [length_utf8_digits, if_neg (by omega), decodePairs_digits]

/-- Bytes are read from the text that they are written as. -/
theorem decode_encode (bs : Bytes) : decode (encode bs) = .ok bs := by
  unfold decode encode
  rw [String.toList_ofList]
  show decodePadded (utf8 (digits bs)) = .ok bs
  unfold decodePadded
  rw [length_utf8_digits, if_neg (by omega), decodePairs_digits]

end Hex

/-- At most 64 digits are read as the word of their number. -/
theorem Word.ofHexDigits_spells {cs : List Char} {ds : List Nat} (h : Hex.Spells cs ds)
    (short : ds.length ≤ 64) :
    Word.ofHexDigits cs = .ok (BitVec.ofNat 256 (Hex.number 0 ds)) := by
  obtain ⟨bs, read, value⟩ := Hex.decodePadded_spells h
  unfold Word.ofHexDigits
  rw [h.stripLowerMark_eq]
  dsimp only
  rw [h.length_utf8, if_neg (Nat.not_lt.mpr short), read]
  dsimp only
  rw [Word.ofBytes, value]

/-- A word is written with at most 64 digits. -/
theorem Word.length_toDigits_le (w : Word) : (Nat.toDigits 16 w.toNat).length ≤ 64 := by
  apply (Nat.length_toDigits_le_iff (by decide) (by decide)).mpr
  exact Nat.lt_of_lt_of_eq w.isLt (by decide)

/-- A word is read from the digits that it is written with. -/
theorem Word.ofHexDigits_toDigits (w : Word) :
    Word.ofHexDigits (Nat.toDigits 16 w.toNat) = .ok w := by
  obtain ⟨ds, spells, same⟩ := Hex.exists_spells_toDigits w.toNat
  have short := w.length_toDigits_le
  rw [spells.length_eq] at short
  rw [Word.ofHexDigits_spells spells short, same, BitVec.ofNat_toNat, BitVec.setWidth_eq]

/-- A 64-bit number is read from the digits that it is written with. -/
theorem Numeral.readUInt64_toDigits (n : UInt64) :
    Numeral.readUInt64 16 (Nat.toDigits 16 n.toNat) = .ok n := by
  obtain ⟨ds, spells, same⟩ := Hex.exists_spells_toDigits n.toNat
  have fits : Hex.number 0 ds < UInt64.size := by
    rw [same]
    exact n.toNat_lt
  have digits := Hex.readDigits_spells spells fits
  have plain : Numeral.readUnsigned 16 UInt64.size (Nat.toDigits 16 n.toNat) =
      Numeral.readDigits 16 UInt64.size 0 (Nat.toDigits 16 n.toNat) := by
    unfold Numeral.readUnsigned
    split
    · rename_i none
      exact absurd none Nat.toDigits_ne_nil
    · rename_i sign
      rw [sign] at spells
      obtain _ | ⟨first, _⟩ := spells
      cases first
    · rename_i sign
      rw [sign] at spells
      obtain _ | ⟨first, _⟩ := spells
      cases first
    · rfl
  rw [Numeral.readUInt64, plain, digits, same]
  exact congrArg Except.ok n.ofNat_toNat

end EvmInspect
