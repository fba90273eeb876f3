import EvmInspect.Word

/-!
# Words as integers

A word is turned into an integer by way of its 32 bytes, and an integer into a word by way of its
sign and the bytes of its size. The two ways are inverse to each other (`ofInt?_eq_some_iff`), so
an integer has a word exactly if it lies in the range of words (`isSome_ofInt?_iff`).

What decides is how long the numeral of the size is: for the number of a word it takes at most 32
bytes (`length_minimal_toNat`), with zeros in front of it up to 32 it writes the same word again,
and a longer one is refused before it could be cut off.
-/

namespace EvmInspect.Word

/-- What a short numeral writes with the sign of a positive number is the number of its word. -/
theorem unsigned_ofShort {bs : Bytes} (short : bs.length ≤ 32) :
    (ofShort bs short).unsigned = Signed.toInt ⟨.positive, bs⟩ := by
  rw [unsigned_eq_toNat, toNat_ofShort, Signed.toInt]

theorem length_minimal_toNat {w : Word} (positive : w.toNat ≠ 0) :
    (BigEndian.minimal w.toNat).length ≤ 32 := by
  rw [BigEndian.length_minimal]
  exact (BigEndian.width_le_iff positive).mpr w.toNat_lt_count

/-- The word of an integer has the integer as its number. -/
theorem unsigned_of_ofInt? {n : Int} {w : Word} (h : ofInt? n = some w) : w.unsigned = n := by
  have written := Signed.toInt_ofInt n
  unfold ofInt? at h
  generalize Signed.ofInt n = form at h written
  obtain ⟨sign, size⟩ := form
  cases sign with
  | negative => cases h
  | zero =>
    cases h
    exact written
  | positive =>
    dsimp only at h
    split at h
    next => cases h
    next =>
      cases h
      rw [unsigned_ofShort, written]

/-- A word is the word of its number. -/
theorem ofInt?_unsigned (w : Word) : ofInt? w.unsigned = some w := by
  rw [unsigned_eq_toNat]
  -- zero is told by its sign: the bytes of its size are not looked at
  by_cases zero : w.toNat = 0
  · have none : w = 0 := BitVec.eq_of_toNat_eq zero
    subst none
    rfl
  · have short := length_minimal_toNat zero
    have found : ofInt? (w.toNat : Int) = some (ofShort (BigEndian.minimal w.toNat) short) := by
      rw [ofInt?, Signed.ofInt_natCast zero]
      exact dif_neg (Nat.not_lt.mpr short)
    have same : ofShort (BigEndian.minimal w.toNat) short = w := by
      apply BitVec.eq_of_toNat_eq
      rw [toNat_ofShort, BigEndian.value_minimal]
    rw [found, same]

/-- The two ways are inverse to each other. -/
theorem ofInt?_eq_some_iff {n : Int} {w : Word} : ofInt? n = some w ↔ w.unsigned = n := by
  constructor
  · exact unsigned_of_ofInt?
  · rintro rfl
    exact ofInt?_unsigned w

/-- An integer has a word exactly if it lies in the range of words. -/
theorem isSome_ofInt?_iff {n : Int} :
    (ofInt? n).isSome ↔ 0 ≤ n ∧ n < (Nat.pow 2 256 : Nat) := by
  rw [Option.isSome_iff_exists]
  constructor
  · rintro ⟨w, h⟩
    rw [← unsigned_of_ofInt? h, unsigned_eq_toNat]
    exact ⟨Int.natCast_nonneg _, Int.ofNat_lt.mpr w.isLt⟩
  · rintro ⟨nonneg, small⟩
    obtain ⟨k, rfl⟩ := Int.eq_ofNat_of_zero_le nonneg
    refine ⟨BitVec.ofNat 256 k, ofInt?_eq_some_iff.mpr ?_⟩
    rw [unsigned_eq_toNat, BitVec.toNat_ofNat]
    exact congrArg Int.ofNat (Nat.mod_eq_of_lt (Int.ofNat_lt.mp small))

/-- The last word has a number, and neither the integer after it nor one below zero has a word. -/
example :
    ofInt? (unsigned (BitVec.allOnes 256)) = some (BitVec.allOnes 256) ∧
      ofInt? (unsigned (BitVec.allOnes 256) + 1) = none ∧ ofInt? (-1) = none ∧
      ofInt? 0 = some 0 := by decide

end EvmInspect.Word
