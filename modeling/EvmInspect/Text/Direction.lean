import EvmInspect.Text.Marks

/-!
# The direction of writing

A label of a domain is written to the left or to the right. In a domain with characters
of both directions a label has to keep to one of them, so that what is shown in one order
cannot be read in another. The sets are those of Unicode 15.
-/

namespace EvmInspect.Text

/-- What a character has to do with the direction of a text. -/
inductive Direction where
  /-- A letter of a script that is written from left to right. -/
  | rightward
  /-- A letter of a script that is written from right to left. -/
  | leftward
  | digit
  /-- A digit of Arabic, which makes a text one that is written to the left. -/
  | arabicDigit
  | nonspacing
  | neutral
deriving DecidableEq

namespace Direction

/-- Letters that are written from right to left. -/
def leftwardLetters : List Span := spansOf "
  5BE 5C0 5C3 5C6 5D0-5F4 608 60B 60D 61B-64A 66D-66F 671-6D5 6E5-6E6 6EE-6EF 6FA-710 712-72F
  74D-7A5 7B1-7EA 7F4-7F5 7FA 7FE-815 81A 824 828 830-858 85E-897 8A0-8C9 2135-2138 FB1D
  FB1F-FD3D FD50-FDCE FDF0-FDFC FE71-FEFC 10800-1091B 10920-10A00 10A10-10A35 10A40-10AE4
  10AEB-10B35 10B40-10D23 10D40-10D8F 10E80-10EA9 10EAD-10EFC 10F00-10F45 10F51-10F81
  10F86-10FF6 1E800-1E8CF 1E900-1E943 1E94B-1EEBB"

/-- Digits that are written with those letters. -/
def arabicDigits : List Span := spansOf "
  660-669 66B-66C 10D30-10D39 10E60-10E7E"

/-- All other digits. -/
def digits : List Span := spansOf "
  30-39 BC-BE 6F0-6F9 2150-215F 2189 32C0-32CB 3358-3370 33E0-33FE 102E1-102FB"

/-- Punctuation, symbols and joiners. -/
def neutrals : List Span := spansOf "
  21-2E 3B-3D 5F-60 7B-B1 B6-BB BF D7 F7 2B9-2BA 2C2-2CF 2D2-2DF 2E5-2ED 2EF-2FF 374-375 387 3F6
  58A-58F 606-607 609-60A 60C 60E-60F 66A 6DE 6E9 7F6-7F9 9F2-9F3 9FB AF1 BF3-BFA C78-C7E E3F
  F3A-F3D 1390-1399 1400 169B-169C 17DB 17F0-180A 1940-1945 19DE-19FF 200C-208B 20A0-20C1
  2103-2104 2108-2109 2114-2125 2127-2129 212E 213A 2140-214D 218A-2335 237B-2394 2396-2426
  2440-26AB 26AD-27FF 2900-2B95 2B97-2BFF 2CE5-2CEA 2CF9-2CFF 2E00-2E9E 2EA0-2EF2 3001-3004
  3008-3020 3030 3036-3037 303D-303F 30A0 30FB 31C0-31E3 3200-3243 4DC0-4DFF A490-A4C6 A60D-A60F
  A673 A67E-A67F A700-A721 A788 A828-A82B A838-A839 A874-A877 AB6A-AB6B FD3E-FD4F FDCF FDFD-FE18
  FE31-FE5E FF5F-FF65 FFE0-FFEE 10101 10140-1018C 10190-101A0 1091F 10B39-10B3F 11052-11065
  11660-1166C 11FD5-11FF1 16FE2 1D1E9-1D241 1D245 1D300-1D356 1D6C1 1D6DB 1D6FB 1D715 1D735
  1D74F 1D76F 1D789 1D7A9 1D7C3 1E2FF 1EEF0-1F12F 1F16D-1F16F 1F1AD 1F240-1F248 1F260-1F6D7
  1F6DC-1F776 1F77B-1F8B1 1F900-1FA53 1FA60-1FA88 1FA90-1FABD 1FABF-1FAC5 1FACE-1FADB
  1FAE0-1FAE8 1FAF0-1FBCA"

def ofChar (c : Char) : Direction :=
  if isIn leftwardLetters c then leftward
  else if isIn arabicDigits c then arabicDigit
  else if isIn digits c then digit
  else if isIn neutrals c then neutral
  else if isNonspacing c then nonspacing
  else rightward

/-- Whether the last of the directions that is not of a mark passes. -/
def endsWith (p : Direction → Bool) (directions : List Direction) : Bool :=
  match directions.reverse.dropWhile (· = nonspacing) with
  | [] => true
  | last :: _ => p last

/-- Whether a label keeps to one direction: it begins with a letter, has no letter of the
other direction, and ends with a letter or a digit. -/
def isConsistent : List Direction → Bool
  | [] => true
  | rightward :: rest =>
    rest.all (fun d => d != leftward && d != arabicDigit) &&
      endsWith (fun d => d = rightward || d = digit) rest
  | leftward :: rest =>
    rest.all (· != rightward) &&
      endsWith (fun d => d = leftward || d = digit || d = arabicDigit) rest &&
      !(rest.contains digit && rest.contains arabicDigit)
  | _ => false

example : isConsistent [leftward, neutral, digit] ∧ ¬ isConsistent [digit, rightward] := by decide

end Direction

/-- Whether the labels of a domain keep to their directions, which matters only where one
is written to the left. -/
def keepDirections (labels : List (List Char)) : Bool :=
  let directions := labels.map fun label => label.map Direction.ofChar
  let isMixed := directions.any fun ds => ds.any fun d => d = .leftward || d = .arabicDigit
  !isMixed || directions.all Direction.isConsistent

end EvmInspect.Text
