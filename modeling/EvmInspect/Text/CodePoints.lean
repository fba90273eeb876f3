import EvmInspect.Text.Numeral
import EvmInspect.Text.Split

/-!
# Sets of code points

The characters with a property of Unicode make up a few runs of code points. A set is
written as words: a code point in hexadecimal, two of them with `-` between for all from
one to the other, or with `~` between for every second one.
-/

namespace EvmInspect.Text

/-- The words of a text, with blanks and ends of lines between them. -/
def wordsOf (cs : List Char) : List (List Char) :=
  (splitOnChar ' ' (cs.map fun c => if c = '\n' then ' ' else c)).filter fun word => !word.isEmpty

/-- The number that hexadecimal digits write. -/
def hexNumber (digits : List Char) : Nat :=
  digits.foldl (fun n c => n * 16 + (Numeral.digitValue? 16 c).getD 0) 0

/-- The code points from `first` to `last`, or every second one of them. -/
structure Span where
  first : Nat
  last : Nat
  everySecond : Bool

namespace Span

def contains (s : Span) (n : Nat) : Bool :=
  s.first ≤ n && n ≤ s.last && (!s.everySecond || (n - s.first) % 2 = 0)

/-- The span that a word writes. -/
def ofWord (word : List Char) : Span :=
  match word.span fun c => c != '-' && c != '~' with
  | (first, mark :: last) => ⟨hexNumber first, hexNumber last, mark = '~'⟩
  | (only, []) => ⟨hexNumber only, hexNumber only, false⟩

end Span

/-- The set that a text writes. -/
def spansOf (text : String) : List Span := (wordsOf text.toList).map Span.ofWord

/-- Whether a character is in a set. -/
def isIn (set : List Span) (c : Char) : Bool := set.any fun s => s.contains c.toNat

example : (spansOf "41-43 61~65").length = 2 := by decide

end EvmInspect.Text
