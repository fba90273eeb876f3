import EvmInspect.Bytes.Signed

/-!
# The words of the machine

Three sizes of value carry all of the machine's state: 256-bit words, 160-bit
addresses and 32-byte hashes. Words and addresses are numbers with a big-endian
byte form; a hash is the bytes themselves. Balances are reckoned with integers of any
size: a word is turned into one, and back where there is one, by way of its bytes.
-/

namespace EvmInspect

/-- A 256-bit machine word: a storage key, a transient value, a balance. -/
abbrev Word := BitVec 256

namespace Word

/-- How many words there are. -/
def count : Nat := BigEndian.span 32

theorem toNat_lt_count (w : Word) : w.toNat < count := Nat.lt_of_lt_of_eq w.isLt (by decide)

/-- The 32 bytes of a word, most significant first. -/
def toBytes (w : Word) : Bytes := BigEndian.numeral 32 w.toNat

/-- The word that a byte string writes, modulo 2^256. -/
def ofBytes (bs : Bytes) : Word := BitVec.ofNat 256 (BigEndian.value bs)

@[simp] theorem length_toBytes (w : Word) : (toBytes w).length = 32 := by simp [toBytes]

@[simp] theorem value_toBytes (w : Word) : BigEndian.value (toBytes w) = w.toNat := by
  rw [toBytes, BigEndian.value_numeral]
  exact Nat.mod_eq_of_lt w.toNat_lt_count

@[simp] theorem ofBytes_toBytes (w : Word) : ofBytes (toBytes w) = w := by
  apply BitVec.eq_of_toNat_eq
  rw [ofBytes, value_toBytes, BitVec.toNat_ofNat, Nat.mod_eq_of_lt w.isLt]

theorem toBytes_ofBytes {bs : Bytes} (h : bs.length = 32) : toBytes (ofBytes bs) = bs := by
  have small := BigEndian.value_lt bs
  rw [h] at small
  have exact : (ofBytes bs).toNat = BigEndian.value bs := by
    simp only [ofBytes, BitVec.toNat_ofNat]
    exact Nat.mod_eq_of_lt (Nat.lt_of_lt_of_eq small (by decide))
  rw [toBytes, exact, ← h]
  exact BigEndian.numeral_value bs

/-- The word that at most 32 bytes write; zeros are put in front of fewer. -/
def ofShort (bs : Bytes) (_short : bs.length ≤ 32) : Word := ofBytes (BigEndian.pad 32 bs)

/-- The bytes of a word that a short numeral writes are the numeral, with zeros in front. -/
theorem toBytes_ofShort {bs : Bytes} (short : bs.length ≤ 32) :
    toBytes (ofShort bs short) = BigEndian.pad 32 bs :=
  toBytes_ofBytes (BigEndian.length_pad short)

theorem toNat_ofShort {bs : Bytes} (short : bs.length ≤ 32) :
    (ofShort bs short).toNat = BigEndian.value bs := by
  rw [← value_toBytes, toBytes_ofShort, BigEndian.value_pad]

/-- The number of a word, read without sign: what its bytes write as a positive number. -/
def unsigned : Word → Int
  -- the word is evaluated first, so that this is not done again for each of its bytes
  | w@(.ofFin ⟨_, _⟩) => Signed.toInt ⟨.positive, w.toBytes⟩

theorem unsigned_eq_toNat (w : Word) : w.unsigned = (w.toNat : Int) := by
  have read : w.unsigned = (BigEndian.value w.toBytes : Int) := rfl
  rw [read, value_toBytes]

/-- The word of an integer, if it has one: it has none if it is negative or if its size takes more
than 32 bytes. -/
def ofInt? (n : Int) : Option Word :=
  match Signed.ofInt n with
  | ⟨.negative, _⟩ => none
  | ⟨.zero, _⟩ => some 0
  | ⟨.positive, size⟩ =>
    if long : 32 < size.length then none else some (ofShort size (Nat.le_of_not_lt long))

end Word

/-- A 20-byte account address. -/
structure Address where
  /-- The address as a number, the first byte being the most significant. -/
  value : BitVec 160
deriving DecidableEq

namespace Address

/-- The address whose number is `n`, modulo 2^160. -/
def ofNat (n : Nat) : Address := ⟨BitVec.ofNat 160 n⟩

def toNat (a : Address) : Nat := a.value.toNat

/-- The 20 bytes of an address, most significant first. -/
def toBytes (a : Address) : Bytes := BigEndian.numeral 20 a.toNat

/-- The address that a byte string writes; of a longer string, its last 20 bytes. -/
def ofBytes (bs : Bytes) : Address := ofNat (BigEndian.value bs)

instance : Inhabited Address := ⟨ofNat 0⟩

@[simp] theorem length_toBytes (a : Address) : a.toBytes.length = 20 := by simp [toBytes]

theorem toNat_inj {a b : Address} (h : a.toNat = b.toNat) : a = b := by
  cases a; cases b
  exact congrArg Address.mk (BitVec.eq_of_toNat_eq h)

/-- How many addresses there are. -/
def count : Nat := BigEndian.span 20

theorem toNat_lt_count (a : Address) : a.toNat < count :=
  Nat.lt_of_lt_of_eq a.value.isLt (by decide)

@[simp] theorem ofBytes_toBytes (a : Address) : ofBytes a.toBytes = a := by
  apply toNat_inj
  have h : a.toNat % BigEndian.span 20 = a.toNat := Nat.mod_eq_of_lt a.toNat_lt_count
  rw [ofBytes, toBytes, BigEndian.value_numeral, h]
  exact Nat.mod_eq_of_lt a.value.isLt

end Address

/-- A 32-byte hash: a block hash, a log topic or a listed storage key. -/
structure Hash where
  bytes : Bytes
  length_eq : bytes.length = 32
deriving DecidableEq

namespace Hash

/-- The hash whose bytes write the word `w`. -/
def ofWord (w : Word) : Hash := ⟨w.toBytes, w.length_toBytes⟩

/-- The word that the hash's bytes write. -/
def toWord (h : Hash) : Word := Word.ofBytes h.bytes

/-- The hash of exactly 32 bytes. -/
def ofBytes? (bs : Bytes) : Option Hash :=
  if h : bs.length = 32 then some ⟨bs, h⟩ else none

/-- The hash of 32 zero bytes. -/
def zero : Hash := ofWord 0

instance : Inhabited Hash := ⟨zero⟩

@[simp] theorem toWord_ofWord (w : Word) : (ofWord w).toWord = w := Word.ofBytes_toBytes w

/-- Distinct hashes write distinct words. -/
theorem toWord_inj {a b : Hash} (h : a.toWord = b.toWord) : a = b := by
  have bytes := congrArg Word.toBytes h
  rw [toWord, toWord, Word.toBytes_ofBytes a.length_eq, Word.toBytes_ofBytes b.length_eq] at bytes
  cases a; cases b; cases bytes; rfl

end Hash

end EvmInspect
