/-!
# Characters written with letters and digits

A label of a domain may write the characters that are not ASCII as a row of numbers: each
number says how far to go on, through the code points and through the places in the text,
before the next character is put in. The digits are the letters and then the decimal
digits, the lowest first; which digit ends a number depends on the numbers before it.
Numbers have 32 bits.
-/

namespace EvmInspect.Url.Punycode

/-- The value of a digit. -/
def digit? (c : Char) : Option Nat :=
  if 'a' ≤ c && c ≤ 'z' then some (c.toNat - 97)
  else if 'A' ≤ c && c ≤ 'Z' then some (c.toNat - 65)
  else if c.isDigit then some (c.toNat - 48 + 26)
  else none

/-- Digits below the threshold of their place end a number. -/
def threshold (bias place : Nat) : Nat :=
  if place ≤ bias then 1 else if bias + 26 ≤ place then 26 else place - bias

/-- How often the thirty-fifth part is taken until the number is small, times 36, and what is
left then. -/
def scaled (delta : Nat) : Nat × Nat :=
  if 455 < delta then
    let (steps, rest) := scaled (delta / 35)
    (steps + 36, rest)
  else (0, delta)
termination_by delta
decreasing_by omega

/-- The bias after a number, `count` characters being there. -/
def adapted (delta count : Nat) (isFirst : Bool) : Nat :=
  let delta := if isFirst then delta / 700 else delta / 2
  let (steps, rest) := scaled (delta + delta / count)
  steps + 36 * rest / (rest + 38)

/-- What has been read. -/
structure State where
  text : List Char
  codePoint : Nat
  bias : Nat
  /-- Where the number began, and where it has led so far. -/
  start : Nat
  index : Nat
  /-- The place of the next digit and its weight. -/
  place : Nat
  weight : Nat

/-- Before the first number, behind the characters of ASCII. -/
def initial (ascii : List Char) : State := ⟨ascii, 128, 72, 0, 0, 36, 1⟩

/-- Reads a digit. -/
def State.read (s : State) (c : Char) : Option State :=
  match digit? c with
  | none => none
  | some d =>
    let index := s.index + d * s.weight
    let t := threshold s.bias s.place
    if UInt32.size ≤ index then none
    else if d < t then
      let count := s.text.length + 1
      let codePoint := s.codePoint + index / count
      let next := index % count + 1
      if codePoint.isValidChar then
        some ⟨s.text.insertIdx (index % count) (Char.ofNat codePoint), codePoint,
          adapted (index - s.start) count (s.start = 0), next, next, 36, 1⟩
      else none
    else
      let weight := s.weight * (36 - t)
      if weight < UInt32.size then some { s with index, weight, place := s.place + 36 } else none

/-- Reads digits to their end, where a number has to end. -/
def readAll (s : State) : List Char → Option (List Char)
  | [] => if s.place = 36 then some s.text else none
  | c :: rest =>
    match s.read c with
    | some s => readAll s rest
    | none => none

/-- The text that is written. Its characters of ASCII stand in front of the last hyphen. -/
def decode? (written : List Char) : Option (List Char) :=
  match written.reverse.span (· != '-') with
  | (digits, []) => readAll (initial []) digits.reverse
  | (_, [_hyphen]) => none
  | (digits, _hyphen :: ascii) => readAll (initial ascii.reverse) digits.reverse

example : decode? "mnchen-3ya".toList = some "münchen".toList := by decide +kernel
example : decode? "-a".toList = none ∧ decode? "z".toList = none := by decide +kernel

end EvmInspect.Url.Punycode
