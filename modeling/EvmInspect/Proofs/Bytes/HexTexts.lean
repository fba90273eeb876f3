import EvmInspect.Proofs.Bytes.HexDigits

/-!
# Which texts are hexadecimal

The readers of hexadecimal text look at its UTF-8 form: they count bytes, and they name the byte
at which they stop. What they accept is a matter of characters all the same. A character outside
ASCII begins with a byte that is no digit (`exists_lead_byte`), so the bytes of a text are digits
exactly if its characters are (`spells_of_utf8`), and then there are as many of the one as of the
other. What is read, and from which texts, is told by `decodeStrict_eq_ok_iff` where whole bytes are
wanted and by `decode_eq_ok_iff` where a mark may stand in front and a zero is put before an odd
number of digits (`padded`).

Digits count the same in either case (`spells_map_toLower`). Of all texts that are read as some
bytes the one that is written for them has the same digits in lowercase (`IsTextOf.exists_decode`).
-/

namespace EvmInspect.Hex

/-! ## Letters of either case -/

section Case

variable {c : Char} {cs : List Char} {d : Nat} {ds : List Nat}

theorem toNat_toLower (c : Char) :
    c.toLower.toNat = if 65 ≤ c.toNat ∧ c.toNat ≤ 90 then c.toNat + 32 else c.toNat := by
  have range : c.val ≥ 'A'.val ∧ c.val ≤ 'Z'.val ↔ 65 ≤ c.toNat ∧ c.toNat ≤ 90 := by
    rw [ge_iff_le, UInt32.le_iff_toNat_le, UInt32.le_iff_toNat_le]
    exact Iff.rfl
  unfold Char.toLower
  by_cases capital : 65 ≤ c.toNat ∧ c.toNat ≤ 90
  · have small : c.val.toNat ≤ 90 := capital.2
    rw [dif_pos (range.mpr capital), if_pos capital]
    show (c.val + 32).toNat = c.val.toNat + 32
    rw [UInt32.toNat_add]
    show (c.val.toNat + 32) % 4294967296 = c.val.toNat + 32
    omega
  · rw [dif_neg (mt range.mp capital), if_neg capital]

/-- A digit has the same value in lowercase, and what is no digit does not become one. -/
theorem digitValue?_toLower (c : Char) : digitValue? c.toLower.toNat = digitValue? c.toNat := by
  rw [toNat_toLower]
  split
  next capital =>
    have code : ∀ n < 91, 65 ≤ n → digitValue? (n + 32) = digitValue? n := by decide
    exact code c.toNat (Nat.lt_succ_of_le capital.2) capital.1
  next => rfl

theorem spells_map_toLower : Spells (cs.map Char.toLower) ds ↔ Spells cs ds := by
  unfold Spells
  simp only [List.forall₂_map_left_iff, digitValue?_toLower]

/-- The digit that is written for a value is in lowercase. -/
theorem digit_eq_toLower (h : digitValue? c.toNat = some d) : digit d = c.toLower := by
  have lower := toNat_toLower c
  have back : Char.ofNat c.toLower.toNat = c.toLower := Char.ofNat_toNat _
  rw [← back, lower, digit]
  rcases digitValue?_eq_some h with decimal | small | capital
  · rw [if_pos (by omega), if_neg (by omega)]
    congr 1
    omega
  · rw [if_neg (by omega), if_neg (by omega)]
    congr 1
    omega
  · rw [if_neg (by omega), if_pos (by omega)]
    congr 1
    omega

theorem Spells.map_digit (h : Spells cs ds) : ds.map digit = cs.map Char.toLower := by
  induction h with
  | nil => rfl
  | cons first _ ih => rw [List.map_cons, List.map_cons, digit_eq_toLower first, ih]

end Case

/-! ## Bytes and characters -/

section Characters

variable {cs : List Char} {ds : List Nat} {bytes bs : Bytes}

/-- A character outside ASCII begins with a byte outside ASCII. -/
theorem exists_lead_byte {c : Char} (wide : 128 ≤ c.toNat) :
    ∃ b rest, String.utf8EncodeChar c = b :: rest ∧ 128 ≤ b.toNat := by
  have lead : ∀ {n}, 192 ≤ n → n < 256 → 128 ≤ (UInt8.ofNat n).toNat := by
    intro n low high
    rw [UInt8.toNat_ofNat_of_lt' high]
    omega
  have number : 128 ≤ c.val.toNat := wide
  unfold String.utf8EncodeChar
  dsimp only
  rw [if_neg (by omega)]
  split
  · exact ⟨_, _, rfl, lead (by omega) (by omega)⟩
  · split
    · exact ⟨_, _, rfl, lead (by omega) (by omega)⟩
    · exact ⟨_, _, rfl, lead (by omega) (by omega)⟩

/-- The bytes are digits with these values. -/
def SpellsBytes (bytes : Bytes) (ds : List Nat) : Prop :=
  List.Forall₂ (fun b d => digitValue? b.toNat = some d) bytes ds

/-- A text whose bytes are digits is made of the digits. -/
theorem spells_of_utf8 (h : SpellsBytes (utf8 cs) ds) : Spells cs ds := by
  induction cs generalizing ds with
  | nil =>
    cases h
    exact .nil
  | cons c cs ih =>
    rw [utf8, List.flatMap_cons] at h
    by_cases ascii : c.toNat < 128
    · have small : c.val.toNat < 128 := ascii
      have one : String.utf8EncodeChar c = [UInt8.ofNat c.val.toNat] := by
        unfold String.utf8EncodeChar
        dsimp only
        rw [if_pos (by omega)]
      rw [one] at h
      obtain _ | ⟨first, rest⟩ := h
      rw [UInt8.toNat_ofNat_of_lt' (Nat.lt_trans small (by decide))] at first
      exact .cons first (ih rest)
    · obtain ⟨b, rest, split, wide⟩ := exists_lead_byte (Nat.le_of_not_lt ascii)
      rw [split] at h
      obtain _ | ⟨first, _⟩ := h
      exact absurd (digitValue?_ascii first) (Nat.not_lt.mpr wide)

theorem nibble_eq_ok {position : Nat} {b : UInt8} {d : Nat} (h : nibble position b = .ok d) :
    digitValue? b.toNat = some d := by
  unfold nibble at h
  split at h
  next n value =>
    cases h
    exact value
  next => cases h

/-- Only digits are read, and only pairs of them. -/
theorem exists_spellsBytes {position : Nat} (read : decodePairs position bytes = .ok bs) :
    ∃ ds, SpellsBytes bytes ds ∧ ds.length % 2 = 0 ∧ bs = pack ds := by
  fun_induction decodePairs position bytes generalizing bs with
  | case1 => cases read
  | case2 => cases read
  | case3 => cases read
  | case4 position high low rest h highDigit l lowDigit tail readTail ih =>
    cases read
    obtain ⟨ds, spells, even, rfl⟩ := ih readTail
    refine ⟨h :: l :: ds, .cons (nibble_eq_ok highDigit) (.cons (nibble_eq_ok lowDigit) spells),
      ?_, rfl⟩
    rw [List.length_cons, List.length_cons]
    omega
  | case5 =>
    cases read
    exact ⟨[], .nil, rfl, rfl⟩
  | case6 => cases read

theorem decodePairs_eq_ok_iff {position : Nat} :
    decodePairs position (utf8 cs) = .ok bs ↔
      ∃ ds, Spells cs ds ∧ ds.length % 2 = 0 ∧ bs = pack ds := by
  constructor
  · intro read
    obtain ⟨ds, spells, even, same⟩ := exists_spellsBytes read
    exact ⟨ds, spells_of_utf8 spells, even, same⟩
  · rintro ⟨ds, spells, even, rfl⟩
    exact decodePairs_spells spells even position

/-- Whole bytes are read from an even number of digits and from nothing else. -/
theorem decodeStrict_eq_ok_iff :
    decodeStrict (utf8 cs) = .ok bs ↔ ∃ ds, Spells cs ds ∧ ds.length % 2 = 0 ∧ bs = pack ds := by
  unfold decodeStrict
  split
  next odd =>
    refine iff_of_false nofun ?_
    rintro ⟨ds, spells, even, _⟩
    rw [spells.length_utf8, even] at odd
    cases odd
  next => exact decodePairs_eq_ok_iff

end Characters

/-! ## An odd number of digits -/

/-- The digits of whole bytes: an odd number of them has one more in front. -/
def padded {α : Type} (zero : α) (xs : List α) : List α :=
  if xs.length % 2 = 1 then zero :: xs else xs

theorem even_length_padded {α : Type} (zero : α) (xs : List α) :
    (padded zero xs).length % 2 = 0 := by
  unfold padded
  split
  · rw [List.length_cons]
    omega
  · omega

section Padded

variable {cs : List Char} {ds : List Nat} {bs : Bytes}

theorem Spells.padded (h : Spells cs ds) : Spells (padded '0' cs) (padded 0 ds) := by
  unfold Hex.padded
  rw [h.length_eq]
  split
  · exact h.zero
  · exact h

/-- Digits of any number are read as the bytes that they make with a zero in front or without, and
nothing else is read. -/
theorem decodePadded_eq_ok_iff :
    decodePadded (utf8 cs) = .ok bs ↔ ∃ ds, Spells cs ds ∧ bs = pack (padded 0 ds) := by
  unfold decodePadded
  constructor
  · intro read
    split at read
    next odd =>
      have whole : decodePairs 0 (utf8 ('0' :: cs)) = .ok bs := read
      obtain ⟨ds, spells, even, rfl⟩ := decodePairs_eq_ok_iff.mp whole
      obtain _ | ⟨zero, rest⟩ := spells
      cases zero
      refine ⟨_, rest, ?_⟩
      rw [Spells.length_utf8 rest] at odd
      rw [Hex.padded, if_pos odd]
      rfl
    next notOdd =>
      obtain ⟨ds, spells, even, rfl⟩ := decodePairs_eq_ok_iff.mp read
      refine ⟨ds, spells, ?_⟩
      rw [spells.length_utf8] at notOdd
      rw [Hex.padded, if_neg notOdd]
  · rintro ⟨ds, spells, rfl⟩
    have read := decodePairs_spells spells.padded (even_length_padded 0 ds) 0
    have same : utf8 (Hex.padded '0' cs) =
        if (utf8 cs).length % 2 = 1 then 48 :: utf8 cs else utf8 cs := by
      unfold Hex.padded
      rw [spells.length_utf8, spells.length_eq]
      split <;> rfl
    rw [← same]
    exact read

end Padded

/-! ## Marks -/

/-- The text is `cs` with a mark in front of it or with none. -/
inductive Marked (cs : List Char) : List Char → Prop
  | bare : Marked cs cs
  | lower : Marked cs ('0' :: 'x' :: cs)
  | upper : Marked cs ('0' :: 'X' :: cs)

theorem marked_stripMark (text : List Char) : Marked (stripMark text) text := by
  unfold stripMark
  split
  · exact .lower
  · exact .upper
  · exact .bare

section Marked

variable {text : List Char} {cs : List Char} {ds : List Nat} {bs : Bytes}

theorem stripMark_of_spells (spells : Spells cs ds) : stripMark cs = cs := by
  unfold stripMark
  split
  · obtain _ | ⟨_, _ | ⟨second, _⟩⟩ := spells
    cases second
  · obtain _ | ⟨_, _ | ⟨second, _⟩⟩ := spells
    cases second
  · rfl

/-- What is left of digits with a mark is the digits: they have no mark themselves. -/
theorem Marked.stripMark_eq (marked : Marked cs text) (spells : Spells cs ds) :
    stripMark text = cs := by
  cases marked with
  | bare => exact stripMark_of_spells spells
  | lower => rfl
  | upper => rfl

/-- Bytes are read from digits with a mark or without, and from nothing else. -/
theorem decode_eq_ok_iff {text : String} :
    decode text = .ok bs ↔
      ∃ cs ds, Marked cs text.toList ∧ Spells cs ds ∧ bs = pack (padded 0 ds) := by
  rw [decode, decodePadded_eq_ok_iff]
  constructor
  · rintro ⟨ds, spells, same⟩
    exact ⟨_, ds, marked_stripMark _, spells, same⟩
  · rintro ⟨cs, ds, marked, spells, same⟩
    rw [marked.stripMark_eq spells]
    exact ⟨ds, spells, same⟩

end Marked

/-! ## Writing what was read -/

section Writing

variable {cs : List Char} {ds : List Nat} {bs : Bytes}

theorem length_pack (ds : List Nat) : (pack ds).length = ds.length / 2 := by
  fun_induction pack ds with
  | case1 high low rest ih =>
    simp only [List.length_cons, ih]
    omega
  | case2 ds other =>
    obtain _ | ⟨high, _ | ⟨low, rest⟩⟩ := ds
    · rfl
    · show 0 = 1 / 2
      omega
    · exact absurd rfl (other high low rest)

/-- Bytes are written with the digits that they are made of. -/
theorem digits_pack (small : ∀ d ∈ ds, d < 16) (even : ds.length % 2 = 0) :
    digits (pack ds) = ds.map digit := by
  refine pairs_induction rfl (fun high low rest highSmall lowSmall ih => ?_) ds small even
  have highDigit : (high * 16 + low) / 16 = high := by omega
  have lowDigit : (high * 16 + low) % 16 = low := by omega
  unfold digits at ih ⊢
  rw [pack, List.flatMap_cons, toNat_ofPair highSmall lowSmall, highDigit, lowDigit, ih]
  rfl

theorem map_toLower_digits (bs : Bytes) : (digits bs).map Char.toLower = digits bs := by
  have spells := spells_digits bs
  have even : (unpack bs).length % 2 = 0 := by
    rw [length_unpack]
    omega
  rw [← spells.map_digit, ← digits_pack spells.lt even, pack_unpack]

/-- The text is these hexadecimal digits, with a mark in front of them or with none. -/
structure IsTextOf (cs : List Char) (text : String) : Prop where
  marked : Marked cs text.toList
  digits : ∃ ds, Spells cs ds

/-- The text that is written for the bytes of these digits. -/
def canonical (cs : List Char) : String :=
  String.ofList ('0' :: 'x' :: (padded '0' cs).map Char.toLower)

/-- What is read from digits is written with the same digits in lowercase. -/
theorem encode_pack_padded (spells : Spells cs ds) :
    encode (pack (padded 0 ds)) = canonical cs := by
  have whole := spells.padded
  rw [encode, digits_pack whole.lt (even_length_padded 0 ds), whole.map_digit, canonical]

/-- Digits are always read, as the bytes that are written with them. -/
theorem IsTextOf.exists_decode {text : String} (h : IsTextOf cs text) :
    ∃ bs, decode text = .ok bs ∧ encode bs = canonical cs := by
  obtain ⟨ds, spells⟩ := h.digits
  exact ⟨_, decode_eq_ok_iff.mpr ⟨cs, ds, h.marked, spells, rfl⟩, encode_pack_padded spells⟩

theorem exists_decode_iff {text : String} :
    (∃ bs, decode text = .ok bs) ↔ ∃ cs, IsTextOf cs text := by
  constructor
  · rintro ⟨bs, read⟩
    obtain ⟨cs, ds, marked, spells, _⟩ := decode_eq_ok_iff.mp read
    exact ⟨cs, marked, ds, spells⟩
  · rintro ⟨cs, h⟩
    obtain ⟨bs, read, _⟩ := h.exists_decode
    exact ⟨bs, read⟩

theorem encode_injective {bs bs' : Bytes} (same : encode bs = encode bs') : bs = bs' := by
  have back := decode_encode bs
  rw [same, decode_encode] at back
  exact (Except.ok.inj back).symm

/-- Neither the mark nor the case of the digits counts. -/
theorem IsTextOf.decode_congr {cs' : List Char} {text text' : String} (h : IsTextOf cs text)
    (h' : IsTextOf cs' text') (alike : cs.map Char.toLower = cs'.map Char.toLower) :
    decode text = decode text' := by
  obtain ⟨bs, read, written⟩ := h.exists_decode
  obtain ⟨bs', read', written'⟩ := h'.exists_decode
  have lengths : cs.length = cs'.length := by
    simpa only [List.length_map] using congrArg List.length alike
  have same : canonical cs = canonical cs' := by
    unfold canonical padded
    rw [lengths]
    split
    · rw [List.map_cons, List.map_cons, alike]
    · rw [alike]
  rw [← written, ← written'] at same
  rw [read, read', encode_injective same]

end Writing

end EvmInspect.Hex
