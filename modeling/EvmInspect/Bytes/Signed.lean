import EvmInspect.Bytes.BigEndian

/-!
# Integers over bytes

An integer of any size is written as its sign and the numeral of its size, which has no more bytes
than it needs. Zero has a sign of its own. What is written is read back (`toInt_ofInt`), and
several forms may be read as one integer: zeros may stand in front of the numeral.
-/

namespace EvmInspect

/-- The sign of an integer. -/
inductive Sign where
  | negative
  | zero
  | positive
deriving DecidableEq

/-- An integer as its sign and the numeral of its size. -/
structure Signed where
  sign : Sign
  size : Bytes
deriving DecidableEq

namespace Signed

/-- The sign and the size of an integer. -/
def ofInt : Int → Signed
  | .ofNat 0 => ⟨.zero, BigEndian.minimal 0⟩
  | .ofNat (n + 1) => ⟨.positive, BigEndian.minimal (n + 1)⟩
  | .negSucc n => ⟨.negative, BigEndian.minimal (n + 1)⟩

/-- The integer of a sign and a size. With the sign of zero the size counts for nothing. -/
def toInt : Signed → Int
  | ⟨.negative, size⟩ => -(BigEndian.value size : Int)
  | ⟨.zero, _⟩ => 0
  | ⟨.positive, size⟩ => (BigEndian.value size : Int)

theorem ofInt_natCast {n : Nat} (positive : n ≠ 0) :
    ofInt (n : Int) = ⟨.positive, BigEndian.minimal n⟩ := by
  cases n with
  | zero => exact absurd rfl positive
  | succ n => rfl

/-- What is written for an integer is read as the integer. -/
@[simp] theorem toInt_ofInt (n : Int) : (ofInt n).toInt = n := by
  cases n with
  | ofNat n =>
    cases n with
    | zero => rfl
    | succ n => simp only [ofInt, toInt, BigEndian.value_minimal, Int.ofNat_eq_natCast]
  | negSucc n => simp only [ofInt, toInt, BigEndian.value_minimal, Int.negSucc_eq, Int.natCast_succ]

end Signed

end EvmInspect
