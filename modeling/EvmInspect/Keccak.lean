import EvmInspect.Word

/-!
# Keccak-256

The sponge over 25 lanes of 64 bits with a rate of 136 bytes and the padding `01…80`,
squeezed for 32 bytes. Lane `x + 5 y` is the lane in column `x` and row `y`; lanes are
read and written with their least significant byte first.
-/

namespace EvmInspect.Keccak

/-- The state of the sponge. -/
abbrev State := Vector UInt64 25

/-- The constants added to lane 0, one for each round. -/
def roundConstants : List UInt64 := [
  0x0000000000000001, 0x0000000000008082, 0x800000000000808a, 0x8000000080008000,
  0x000000000000808b, 0x0000000080000001, 0x8000000080008081, 0x8000000000008009,
  0x000000000000008a, 0x0000000000000088, 0x0000000080008009, 0x000000008000000a,
  0x000000008000808b, 0x800000000000008b, 0x8000000000008089, 0x8000000000008003,
  0x8000000000008002, 0x8000000000000080, 0x000000000000800a, 0x800000008000000a,
  0x8000000080008081, 0x8000000000008080, 0x0000000080000001, 0x8000000080008008]

/-- How far each lane is turned, lane by lane. -/
def rotations : Vector UInt64 25 := #v[
  0, 1, 62, 28, 27,
  36, 44, 6, 55, 20,
  3, 10, 43, 25, 39,
  41, 45, 15, 21, 8,
  18, 2, 61, 56, 14]

def rotateLeft (lane amount : UInt64) : UInt64 :=
  if amount = 0 then lane else (lane <<< amount) ||| (lane >>> (64 - amount))

/-- The lane in a column and a row, both counted modulo five. -/
def lane (s : State) (x y : Nat) : UInt64 :=
  s.get ⟨x % 5 + 5 * (y % 5), by omega⟩

/-- Adds to each lane the parity of two neighbouring columns. -/
def theta (s : State) : State :=
  let parity : Vector UInt64 5 :=
    .ofFn fun x => lane s x 0 ^^^ lane s x 1 ^^^ lane s x 2 ^^^ lane s x 3 ^^^ lane s x 4
  let effect : Vector UInt64 5 := .ofFn fun x =>
    parity.get ⟨(x.val + 4) % 5, by omega⟩ ^^^ rotateLeft (parity.get ⟨(x.val + 1) % 5, by omega⟩) 1
  .ofFn fun i => s[i] ^^^ effect.get ⟨i.val % 5, by omega⟩

/-- Turns each lane and moves it to its new place. -/
def rhoPi (s : State) : State :=
  .ofFn fun i =>
    let x := i.val % 5
    let y := i.val / 5
    let source := (x + 3 * y) % 5 + 5 * x
    rotateLeft (s.get ⟨source, by omega⟩) (rotations.get ⟨source, by omega⟩)

/-- Mixes each lane with the next two of its row. -/
def chi (s : State) : State :=
  .ofFn fun i =>
    let x := i.val % 5
    let y := i.val / 5
    lane s x y ^^^ (~~~ lane s (x + 1) y &&& lane s (x + 2) y)

/-- Adds a round constant to lane 0. -/
def iota (s : State) (constant : UInt64) : State := s.set 0 (s[0] ^^^ constant)

/-- The permutation: 24 rounds. -/
def permute (s : State) : State :=
  roundConstants.foldl (fun s constant => iota (chi (rhoPi (theta s))) constant) s

/-- The number of bytes absorbed before each permutation. -/
def rate : Nat := 136

/-- The message with its padding: its length is a multiple of the rate. -/
def pad (message : Bytes) : Bytes :=
  let missing := rate - message.length % rate
  if missing = 1 then message ++ [0x81]
  else message ++ 0x01 :: List.replicate (missing - 2) 0 ++ [0x80]

/-- A lane of eight bytes, the least significant first. -/
def laneOfBytes (bs : Bytes) : UInt64 :=
  bs.foldr (fun b n => (n <<< 8) ||| b.toUInt64) 0

/-- The first `count` bytes of a lane, the least significant first. -/
def bytesOfLane : (count : Nat) → UInt64 → Bytes
  | 0, _ => []
  | count + 1, n => n.toUInt8 :: bytesOfLane count (n >>> 8)

/-- Adds one block to the state and permutes it. -/
def absorb (s : State) (block : Bytes) : State :=
  permute (.ofFn fun i =>
    if i.val < 17 then s[i] ^^^ laneOfBytes ((block.drop (8 * i.val)).take 8) else s[i])

/-- Absorbs `count` blocks from the front of the bytes. -/
def absorbBlocks (s : State) : (count : Nat) → Bytes → State
  | 0, _ => s
  | count + 1, bs => absorbBlocks (absorb s (bs.take rate)) count (bs.drop rate)

theorem length_bytesOfLane (count : Nat) (n : UInt64) : (bytesOfLane count n).length = count := by
  induction count generalizing n with
  | zero => rfl
  | succ count ih => simp [bytesOfLane, ih]

/-- The Keccak-256 hash of a message. -/
def hash (message : Bytes) : Hash :=
  let padded := pad message
  let s := absorbBlocks (Vector.replicate 25 0) (padded.length / rate) padded
  { bytes := bytesOfLane 8 s[0] ++ bytesOfLane 8 s[1] ++ bytesOfLane 8 s[2] ++ bytesOfLane 8 s[3]
    length_eq := by simp [length_bytesOfLane] }

end EvmInspect.Keccak
