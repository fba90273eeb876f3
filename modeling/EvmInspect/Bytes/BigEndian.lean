/-!
# Big-endian numerals over bytes

A byte string read as a numeral in base 256, most significant byte first, and the
numeral of a given width. Reading a numeral back gives the number modulo the width
(`value_numeral`), and writing what was read gives the bytes back (`numeral_value`).

A number also has a numeral of no more bytes than it needs, whose length tells how large it is
(`width_le_iff`). Zeros in front of a numeral count for nothing (`value_pad`).
-/

namespace EvmInspect

/-- A byte string. -/
abbrev Bytes := List UInt8

namespace BigEndian

/-- How many numbers have a numeral of a width: a power of 256. -/
def span : (width : Nat) → Nat
  | 0 => 1
  | width + 1 => span width * 256

theorem span_pos (width : Nat) : 0 < span width := by
  induction width with
  | zero => exact Nat.one_pos
  | succ width ih => exact Nat.mul_pos ih (by decide)

/-- The number that a byte string writes in base 256. -/
def value : Bytes → Nat
  | [] => 0
  | b :: bs => b.toNat * span bs.length + value bs

/-- The low `width` base-256 digits of a number, most significant first. -/
def numeral : (width : Nat) → Nat → Bytes
  | 0, _ => []
  | width + 1, n => UInt8.ofNat (n / span width) :: numeral width n

@[simp] theorem length_numeral (width n : Nat) : (numeral width n).length = width := by
  induction width with
  | zero => rfl
  | succ width ih => simp [numeral, ih]

theorem value_lt (bs : Bytes) : value bs < span bs.length := by
  induction bs with
  | nil => simp [value, span]
  | cons b bs ih =>
    have hb : b.toNat < 256 := b.toNat_lt
    have step : (b.toNat + 1) * span bs.length ≤ 256 * span bs.length :=
      Nat.mul_le_mul_right _ hb
    simp only [value, List.length_cons, span]
    rw [Nat.mul_comm (span bs.length) 256]
    calc b.toNat * span bs.length + value bs
        < b.toNat * span bs.length + span bs.length := Nat.add_lt_add_left ih _
      _ = (b.toNat + 1) * span bs.length := by rw [Nat.add_mul, Nat.one_mul]
      _ ≤ 256 * span bs.length := step

@[simp] theorem value_numeral (width n : Nat) : value (numeral width n) = n % span width := by
  induction width with
  | zero => simp [numeral, value, span, Nat.mod_one]
  | succ width ih =>
    have high : (UInt8.ofNat (n / span width)).toNat = n / span width % 256 := by
      simp [UInt8.toNat_ofNat']
    rw [numeral, value, length_numeral, ih, high, span, Nat.mod_mul,
      Nat.mul_comm, Nat.add_comm]

theorem numeral_congr {width m n : Nat} (h : m % span width = n % span width) :
    numeral width m = numeral width n := by
  induction width generalizing m n with
  | zero => rfl
  | succ width ih =>
    rw [span, Nat.mod_mul, Nat.mod_mul] at h
    have pos : 0 < span width := span_pos _
    have hm : m % span width < span width := Nat.mod_lt _ pos
    have hn : n % span width < span width := Nat.mod_lt _ pos
    have low : m % span width = n % span width := by
      have := congrArg (· % span width) h
      simpa [Nat.add_mul_mod_self_left, Nat.mod_eq_of_lt hm, Nat.mod_eq_of_lt hn] using this
    have high : m / span width % 256 = n / span width % 256 := by
      rw [low] at h
      exact Nat.eq_of_mul_eq_mul_left pos (Nat.add_left_cancel h)
    have digit : UInt8.ofNat (m / span width) = UInt8.ofNat (n / span width) := by
      apply UInt8.toNat_inj.mp
      simpa [UInt8.toNat_ofNat'] using high
    rw [numeral, numeral, digit, ih low]

@[simp] theorem numeral_value (bs : Bytes) : numeral bs.length (value bs) = bs := by
  induction bs with
  | nil => rfl
  | cons b bs ih =>
    have pos : 0 < span bs.length := span_pos _
    have small := value_lt bs
    have high : (b.toNat * span bs.length + value bs) / span bs.length = b.toNat := by
      rw [Nat.add_comm, Nat.add_mul_div_right _ _ pos, Nat.div_eq_of_lt small, Nat.zero_add]
    have low : numeral bs.length (b.toNat * span bs.length + value bs)
        = numeral bs.length (value bs) :=
      numeral_congr (by rw [Nat.mul_add_mod_self_right])
    rw [value, List.length_cons, numeral, high, low, ih]
    simp

/-! ## As many bytes as needed -/

/-- How many bytes hold the bits of a number; zero takes one as well. -/
def width (n : Nat) : Nat := n.log2 / 8 + 1

/-- The numeral of a number, with no more bytes than it needs. -/
def minimal (n : Nat) : Bytes := numeral (width n) n

/-- A numeral with zeros in front of it, up to a width. -/
def pad (width : Nat) (bs : Bytes) : Bytes := List.replicate (width - bs.length) 0 ++ bs

theorem span_eq_pow (width : Nat) : span width = Nat.pow 2 (8 * width) := by
  induction width with
  | zero => rfl
  | succ width ih =>
    rw [span, ih, Nat.mul_succ]
    exact (Nat.pow_add 2 (8 * width) 8).symm

theorem width_le_iff {n k : Nat} (positive : n ≠ 0) : width n ≤ k ↔ n < span k := by
  have bits : width n ≤ k ↔ n.log2 < 8 * k := by
    unfold width
    omega
  rw [bits, span_eq_pow]
  exact Nat.log2_lt positive

theorem lt_span_width (n : Nat) : n < span (width n) := by
  by_cases zero : n = 0
  · rw [zero]
    exact span_pos _
  · exact (width_le_iff zero).mp (Nat.le_refl _)

@[simp] theorem length_minimal (n : Nat) : (minimal n).length = width n :=
  length_numeral _ _

@[simp] theorem value_minimal (n : Nat) : value (minimal n) = n := by
  rw [minimal, value_numeral, Nat.mod_eq_of_lt (lt_span_width n)]

theorem value_zeros (k : Nat) (bs : Bytes) : value (List.replicate k 0 ++ bs) = value bs := by
  induction k with
  | zero => rfl
  | succ k ih =>
    rw [List.replicate_succ, List.cons_append, value, ih, UInt8.toNat_zero, Nat.zero_mul,
      Nat.zero_add]

@[simp] theorem value_pad (width : Nat) (bs : Bytes) : value (pad width bs) = value bs :=
  value_zeros _ _

theorem length_pad {width : Nat} {bs : Bytes} (short : bs.length ≤ width) :
    (pad width bs).length = width := by
  rw [pad, List.length_append, List.length_replicate, Nat.sub_add_cancel short]

end BigEndian

end EvmInspect
