import EvmInspect.Node.Client
import EvmInspect.Proofs.Bytes.HexDigits

/-!
# Spellings of a storage key

A storage key may be spelled in several ways: in hexadecimal with digits of either case, or in
decimal, and with zeros in front. Whatever the spelling, what is read is the key
(`storageKey?_of_spells`).

A numeral that writes no key is refused, and never read as some other key: a decimal one if its
number is too large (`readDigits_of_large`), a hexadecimal one if it has more than 64 digits, zeros
in front counted (`ofHexDigits_of_long`). So a numeral is read as its number or not at all, and what
is written for a key is read as the key again (`numerals_never_wrap`).
-/

namespace EvmInspect.Word

/-- The spellings of a storage key. In hexadecimal there are at most 64 digits. -/
inductive SpellsKey : String → Word → Prop
  | hex {mark cs ds} : mark = 'x' ∨ mark = 'X' → Hex.Spells cs ds → ds.length ≤ 64 →
      SpellsKey (String.ofList ('0' :: mark :: cs)) (BitVec.ofNat 256 (Hex.number 0 ds))
  | decimal {cs} : (∀ c ∈ cs, c.isDigit) → Nat.ofDigitChars 10 cs 0 < count →
      SpellsKey (String.ofList cs) (BitVec.ofNat 256 (Nat.ofDigitChars 10 cs 0))

theorem digitValue?_of_isDigit {c : Char} (digit : c.isDigit) :
    Numeral.digitValue? 10 c = some (c.toNat - 48) := by
  have range : 48 ≤ c.toNat ∧ c.toNat ≤ 57 := by
    unfold Char.isDigit at digit
    rw [Bool.and_eq_true, decide_eq_true_eq, decide_eq_true_eq] at digit
    exact ⟨UInt32.le_iff_toNat_le.mp digit.1, UInt32.le_iff_toNat_le.mp digit.2⟩
  unfold Numeral.digitValue?
  dsimp only
  rw [if_pos range, if_pos (by omega)]

theorem le_ofDigitChars (cs : List Char) (soFar : Nat) : soFar ≤ Nat.ofDigitChars 10 cs soFar := by
  induction cs generalizing soFar with
  | nil => exact Nat.le_refl soFar
  | cons c cs ih =>
    rw [Nat.ofDigitChars_cons]
    have later := ih (10 * soFar + (c.toNat - '0'.toNat))
    omega

theorem ofDigitChars_cons_mul (c : Char) (cs : List Char) (soFar : Nat) :
    Nat.ofDigitChars 10 (c :: cs) soFar =
      Nat.ofDigitChars 10 cs (soFar * 10 + (c.toNat - 48)) := by
  have zero : '0'.toNat = 48 := rfl
  rw [Nat.ofDigitChars_cons, zero, Nat.mul_comm]

/-- Decimal digits are read as their number if it is below the limit. -/
theorem readDigits_of_isDigit {cs : List Char} (digits : ∀ c ∈ cs, c.isDigit) {soFar limit : Nat}
    (fits : Nat.ofDigitChars 10 cs soFar < limit) :
    Numeral.readDigits 10 limit soFar cs = .ok (Nat.ofDigitChars 10 cs soFar) := by
  induction cs generalizing soFar with
  | nil => rfl
  | cons c cs ih =>
    obtain ⟨first, later⟩ := List.forall_mem_cons.mp digits
    rw [ofDigitChars_cons_mul] at fits ⊢
    have below : soFar * 10 + (c.toNat - 48) < limit :=
      Nat.lt_of_le_of_lt (le_ofDigitChars cs _) fits
    rw [Numeral.readDigits, digitValue?_of_isDigit first]
    dsimp only
    rw [if_pos below, ih later fits]

/-- Decimal digits are refused if their number is not below the limit: it is reached at some digit
and never left again. -/
theorem readDigits_of_large {cs : List Char} (digits : ∀ c ∈ cs, c.isDigit) {soFar limit : Nat}
    (large : limit ≤ Nat.ofDigitChars 10 cs soFar) (start : soFar < limit) :
    Numeral.readDigits 10 limit soFar cs = .error .tooLarge := by
  induction cs generalizing soFar with
  | nil => exact absurd start (Nat.not_lt.mpr large)
  | cons c cs ih =>
    obtain ⟨first, later⟩ := List.forall_mem_cons.mp digits
    rw [ofDigitChars_cons_mul] at large
    rw [Numeral.readDigits, digitValue?_of_isDigit first]
    dsimp only
    by_cases below : soFar * 10 + (c.toNat - 48) < limit
    · rw [if_pos below, ih later large below]
    · rw [if_neg below]

/-- Too many hexadecimal digits are refused, whatever they write. -/
theorem ofHexDigits_of_long {cs : List Char} {ds : List Nat} (spells : Hex.Spells cs ds)
    (long : 64 < ds.length) : ofHexDigits cs = .error .tooLong := by
  unfold ofHexDigits
  rw [spells.stripLowerMark_eq]
  dsimp only
  rw [spells.length_utf8, if_pos long]

/-! ## Keys -/

theorem storageKey?_marked {mark : Char} (marked : mark = 'x' ∨ mark = 'X') (cs : List Char) :
    storageKey? (String.ofList ('0' :: mark :: cs)) = (ofHexDigits cs).toOption := by
  unfold storageKey?
  rw [String.toList_ofList]
  rcases marked with rfl | rfl <;> rfl

theorem storageKey?_isDigit {text : String} (digits : ∀ c ∈ text.toList, c.isDigit) :
    storageKey? text = ofDecimalDigits? text.toList := by
  unfold storageKey?
  split
  next whole =>
    rw [whole] at digits
    exact absurd (digits 'x' (by simp)) (by decide)
  next whole =>
    rw [whole] at digits
    exact absurd (digits 'X' (by simp)) (by decide)
  next => rfl

/-- A storage key is read from all of its spellings. -/
theorem storageKey?_of_spells {text : String} {key : Word} (h : SpellsKey text key) :
    storageKey? text = some key := by
  cases h with
  | hex marked spells short =>
    rw [storageKey?_marked marked, ofHexDigits_spells spells short]
    rfl
  | @decimal cs digits fits =>
    rw [storageKey?_isDigit (by rwa [String.toList_ofList]), String.toList_ofList,
      ofDecimalDigits?, readDigits_of_isDigit digits fits]

/-! ## Numerals -/

/-- The text is a decimal numeral of the number, with zeros in front or without. -/
structure IsDecimal (n : Nat) (text : String) : Prop where
  digits : ∀ c ∈ text.toList, c.isDigit
  value : Nat.ofDigitChars 10 text.toList 0 = n

/-- The text is a mark and hexadecimal digits with these values. -/
inductive IsHexadecimal (ds : List Nat) : String → Prop
  | intro {mark cs} : mark = 'x' ∨ mark = 'X' → Hex.Spells cs ds →
      IsHexadecimal ds (String.ofList ('0' :: mark :: cs))

theorem count_eq_pow : count = Nat.pow 2 256 := by decide

theorem toNat_ofNat_of_lt {n : Nat} (h : n < Nat.pow 2 256) : (BitVec.ofNat 256 n).toNat = n :=
  Nat.mod_eq_of_lt h

/-- A decimal numeral is read as its number if there is such a word, and refused if not. -/
theorem storageKey?_decimal {n : Nat} {text : String} (h : IsDecimal n text) :
    (storageKey? text).map BitVec.toNat = if n < Nat.pow 2 256 then some n else none := by
  obtain ⟨digits, rfl⟩ := h
  rw [storageKey?_isDigit digits, ofDecimalDigits?, ← count_eq_pow]
  by_cases fits : Nat.ofDigitChars 10 text.toList 0 < count
  · rw [readDigits_of_isDigit digits fits, if_pos fits]
    rw [count_eq_pow] at fits
    exact congrArg some (toNat_ofNat_of_lt fits)
  · rw [readDigits_of_large digits (Nat.le_of_not_lt fits) (by decide), if_neg fits]
    rfl

theorem number_lt {ds : List Nat} (small : ∀ d ∈ ds, d < 16) (soFar : Nat) :
    Hex.number soFar ds < (soFar + 1) * Nat.pow 16 ds.length := by
  induction ds generalizing soFar with
  | nil =>
    show soFar < (soFar + 1) * 1
    omega
  | cons d ds ih =>
    obtain ⟨first, later⟩ := List.forall_mem_cons.mp small
    have next : soFar * 16 + d + 1 ≤ (soFar + 1) * 16 := by omega
    calc Hex.number soFar (d :: ds)
        = Hex.number (soFar * 16 + d) ds := rfl
      _ < (soFar * 16 + d + 1) * Nat.pow 16 ds.length := ih later _
      _ ≤ (soFar + 1) * 16 * Nat.pow 16 ds.length := Nat.mul_le_mul_right _ next
      _ = (soFar + 1) * Nat.pow 16 (d :: ds).length := by
        rw [Nat.mul_assoc, Nat.mul_comm 16]
        rfl

/-- The number of 64 hexadecimal digits is that of a word. -/
theorem number_lt_pow {ds : List Nat} (small : ∀ d ∈ ds, d < 16) (short : ds.length ≤ 64) :
    Hex.number 0 ds < Nat.pow 2 256 := by
  calc Hex.number 0 ds
      < (0 + 1) * Nat.pow 16 ds.length := number_lt small 0
    _ = Nat.pow 16 ds.length := Nat.one_mul _
    _ ≤ Nat.pow 16 64 := Nat.pow_le_pow_right (by decide) short
    _ = Nat.pow 2 256 := by decide

/-- Hexadecimal digits are read as their number if there are no more than a word has, and refused
if there are more. -/
theorem storageKey?_hexadecimal {ds : List Nat} {text : String} (h : IsHexadecimal ds text) :
    (storageKey? text).map BitVec.toNat =
      if ds.length ≤ 64 then some (Hex.number 0 ds) else none := by
  obtain ⟨marked, spells⟩ := h
  rw [storageKey?_marked marked]
  split
  next short =>
    rw [ofHexDigits_spells spells short]
    exact congrArg some (toNat_ofNat_of_lt (number_lt_pow spells.lt short))
  next long =>
    rw [ofHexDigits_of_long spells (Nat.lt_of_not_le long)]
    rfl

/-! ## What is written for a key -/

theorem isDecimal_decimal (n : Nat) : IsDecimal n (Numeral.decimal n) := by
  have written : (Numeral.decimal n).toList = Nat.toDigits 10 n := String.toList_ofList
  constructor
  · rw [written]
    exact fun c mem => Nat.isDigit_of_mem_toDigits (by decide) (by decide) mem
  · rw [written]
    exact Nat.ofDigitChars_toDigits (by decide) (by decide)

theorem number_replicate_zero (k : Nat) (ds : List Nat) :
    Hex.number 0 (List.replicate k 0 ++ ds) = Hex.number 0 ds := by
  induction k with
  | zero => rfl
  | succ k ih => exact ih

theorem spells_zeros (k : Nat) : Hex.Spells (List.replicate k '0') (List.replicate k 0) := by
  induction k with
  | zero => exact .nil
  | succ k ih => exact ih.zero

/-- The hexadecimal digits of a key with zeros in front. -/
def zeroPadded (k : Nat) (w : Word) : String :=
  String.ofList ('0' :: 'x' :: (List.replicate k '0' ++ Nat.toDigits 16 w.toNat))

theorem isHexadecimal_zeroPadded (k : Nat) (w : Word) :
    ∃ ds, IsHexadecimal ds (zeroPadded k w) ∧ ds.length = k + (Nat.toDigits 16 w.toNat).length ∧
      Hex.number 0 ds = w.toNat := by
  obtain ⟨ds, spells, same⟩ := Hex.exists_spells_toDigits w.toNat
  refine ⟨List.replicate k 0 ++ ds, .intro (.inl rfl) (List.rel_append (spells_zeros k) spells),
    ?_, ?_⟩
  · rw [List.length_append, List.length_replicate, spells.length_eq]
  · rw [number_replicate_zero, same]

theorem eq_some_of_toNat {found : Option Word} {w : Word}
    (h : found.map BitVec.toNat = some w.toNat) : found = some w := by
  obtain ⟨key, rfl, same⟩ := Option.map_eq_some_iff.mp h
  rw [BitVec.eq_of_toNat_eq same]

/-- A numeral is read as its number or not at all: a decimal one if its number is below 2^256, a
hexadecimal one if it has at most 64 digits, and both are refused otherwise. So a key is read from
all of its spellings, and from what is written for it: in decimal, in hexadecimal as a client asks a
node for it, and with zeros put in front of that, up to 64 digits. -/
theorem numerals_never_wrap :
    (∀ n text, IsDecimal n text →
      (storageKey? text).map BitVec.toNat = if n < Nat.pow 2 256 then some n else none) ∧
    (∀ ds text, IsHexadecimal ds text →
      (storageKey? text).map BitVec.toNat =
        if ds.length ≤ 64 then some (Hex.number 0 ds) else none) ∧
    (∀ text key, SpellsKey text key → storageKey? text = some key) ∧
    (∀ w, storageKey? (Numeral.decimal w.unsigned) = some w) ∧
    (∀ w (client : Node.Client) a, ∃ text,
      (client.request (.slot a w)).params = [.string a.hex, .string text, client.blockTag] ∧
        storageKey? text = some w) ∧
    (∀ w k, k + (Nat.toDigits 16 w.toNat).length ≤ 64 → storageKey? (zeroPadded k w) = some w) := by
  have padded : ∀ w k, k + (Nat.toDigits 16 w.toNat).length ≤ 64 →
      storageKey? (zeroPadded k w) = some w := by
    intro w k short
    obtain ⟨ds, numeral, length, same⟩ := isHexadecimal_zeroPadded k w
    apply eq_some_of_toNat
    rw [storageKey?_hexadecimal numeral, if_pos (length ▸ short), same]
  refine ⟨fun n text => storageKey?_decimal, fun ds text => storageKey?_hexadecimal,
    fun text key => storageKey?_of_spells, fun w => ?_, fun w client a => ⟨w.hex, rfl, ?_⟩, padded⟩
  · apply eq_some_of_toNat
    rw [unsigned_eq_toNat, storageKey?_decimal (isDecimal_decimal w.toNat), if_pos w.isLt]
  · refine padded w 0 ?_
    rw [Nat.zero_add]
    exact w.length_toDigits_le

/-- The last key is read from its decimal form. The number after it and 65 zeros are refused. -/
theorem last_key_is_read :
    storageKey? (Numeral.decimal (unsigned (BitVec.allOnes 256))) = some (BitVec.allOnes 256) ∧
      storageKey? (Numeral.decimal (Nat.pow 2 256)) = none ∧
      storageKey? (String.ofList ('0' :: 'X' :: List.replicate 65 '0')) = none := by
  obtain ⟨decimal, hexadecimal, _, written, _⟩ := numerals_never_wrap
  have beyond := decimal _ _ (isDecimal_decimal (Nat.pow 2 256))
  have long := hexadecimal _ _ (.intro (.inr rfl) (spells_zeros 65))
  rw [if_neg (Nat.lt_irrefl _)] at beyond
  rw [if_neg (by decide)] at long
  exact ⟨written _, Option.map_eq_none_iff.mp beyond, Option.map_eq_none_iff.mp long⟩

end EvmInspect.Word
