import EvmInspect.Json.Token

/-!
# Bare values of TOML

A bare word is a boolean, a number, or a date with or without a time. Integers have 64
bits with a sign and may be written in four bases; digits may be grouped by single
underscores between them. Numbers that are no integers, and dates, keep their spelling.
-/

namespace EvmInspect.Toml

/-- Digits without the underscores between them; there has to be a digit on either side of
each. -/
def ungrouped? (isDigit : Char → Bool) : List Char → Option (List Char)
  | [] => none
  | [c] => if isDigit c then some [c] else none
  | c :: '_' :: rest => if isDigit c then (ungrouped? isDigit rest).map (c :: ·) else none
  | c :: rest => if isDigit c then (ungrouped? isDigit rest).map (c :: ·) else none

/-- Splits off a sign; `true` for a minus. -/
def splitSign : List Char → Bool × List Char
  | '-' :: rest => (true, rest)
  | '+' :: rest => (false, rest)
  | cs => (false, cs)

/-- Decimal digits that do not start with a zero, unless it is all there is. -/
def wholePart? (cs : List Char) : Option (List Char) :=
  match ungrouped? Char.isDigit cs with
  | some ['0'] => some ['0']
  | some ('0' :: _) => none
  | digits => digits

/-- An integer of 64 bits with a sign. -/
def int64? (n : Int) : Option Json :=
  if -(Numeral.int64Limit : Int) ≤ n && n < Numeral.int64Limit then some (.integer n) else none

/-- An integer of a base other than ten. -/
def integerOfBase? (base : Nat) (cs : List Char) : Option Json :=
  match ungrouped? (fun c => (Numeral.digitValue? base c).isSome) cs with
  | none => none
  | some digits =>
    match Numeral.readDigits base Numeral.int64Limit 0 digits with
    | .ok n => int64? n
    | .error _ => none

def integer? (cs : List Char) : Option Json :=
  match cs with
  | '0' :: 'x' :: digits => integerOfBase? 16 digits
  | '0' :: 'o' :: digits => integerOfBase? 8 digits
  | '0' :: 'b' :: digits => integerOfBase? 2 digits
  | cs =>
    let (negative, cs) := splitSign cs
    match wholePart? cs with
    | some digits =>
      let n : Int := Json.natOfDigits digits
      int64? (if negative then -n else n)
    | none => none

/-- The digits of a fraction, which may be missing; `none` when there is only its dot. -/
def places? : List Char → Option (List Char)
  | [] => some []
  | '.' :: cs => ungrouped? Char.isDigit cs
  | _ => none

/-- The power of ten after the `e`, which may be missing. -/
def power? : List Char → Option Int
  | [] => some 0
  | _mark :: cs =>
    let (negative, cs) := splitSign cs
    (ungrouped? Char.isDigit cs).map fun digits =>
      let n : Int := Json.natOfDigits digits
      if negative then -n else n

/-- Whether `digits` times a power of ten lies below the largest number of the 64-bit
floating format, rounding included. -/
def fitsFloat (digits : Nat) (exponent : Int) : Bool :=
  let size := (Nat.toDigits 10 digits).length
  if digits = 0 then true
  else if (size : Int) + exponent ≤ 308 then true
  else if (size : Int) - 1 + exponent ≥ 309 then false
  else
    if 0 ≤ exponent then digits * Nat.pow 10 exponent.toNat < Numeral.floatLimit
    else digits < Numeral.floatLimit * Nat.pow 10 (-exponent).toNat

/-- A number with a fraction, an exponent or both, or one of the names of the values that
are no numbers. One that is too large is refused, unless it is negative. -/
def float? (word : List Char) : Option Json :=
  let (negative, cs) := splitSign word
  if cs = "inf".toList || cs = "nan".toList then some (.fraction (String.ofList word))
  else
    let (mantissa, scale) := cs.span fun c => c != 'e' && c != 'E'
    let (whole, fraction) := mantissa.span (· != '.')
    if scale.isEmpty && fraction.isEmpty then none
    else
      match wholePart? whole, places? fraction, power? scale with
      | some whole, some places, some power =>
        let digits := Json.natOfDigits (whole ++ places)
        if negative || fitsFloat digits (power - places.length) then
          some (.fraction (String.ofList word))
        else none
      | _, _, _ => none

/-! ## Dates and times -/

/-- The number of two digits. -/
def twoDigits? (a b : Char) : Option Nat :=
  if a.isDigit && b.isDigit then some (Json.natOfDigits [a, b]) else none

def daysIn (year month : Nat) : Nat :=
  if month = 2 then
    if year % 4 = 0 && (year % 100 ≠ 0 || year % 400 = 0) then 29 else 28
  else if month = 4 || month = 6 || month = 9 || month = 11 then 30
  else 31

/-- Whether a day exists. -/
def isDay (year month day : Nat) : Bool :=
  1 ≤ month && month ≤ 12 && 1 ≤ day && day ≤ daysIn year month

/-- The text after a date in front. -/
def afterDate? : List Char → Option (List Char)
  | y1 :: y2 :: y3 :: y4 :: '-' :: m1 :: m2 :: '-' :: d1 :: d2 :: rest =>
    match twoDigits? y1 y2, twoDigits? y3 y4, twoDigits? m1 m2, twoDigits? d1 d2 with
    | some century, some year, some month, some day =>
      if isDay (century * 100 + year) month day then some rest else none
    | _, _, _, _ => none
  | _ => none

/-- The text after hours and minutes in front. -/
def afterHourMinute? : List Char → Option (List Char)
  | h1 :: h2 :: ':' :: m1 :: m2 :: rest =>
    match twoDigits? h1 h2, twoDigits? m1 m2 with
    | some hour, some minute => if hour < 24 && minute < 60 then some rest else none
    | _, _ => none
  | _ => none

/-- The text after a time in front; a second may be a leap second. -/
def afterTime? (cs : List Char) : Option (List Char) :=
  match afterHourMinute? cs with
  | some (':' :: s1 :: s2 :: rest) =>
    match twoDigits? s1 s2 with
    | none => none
    | some second =>
      if 60 < second then none
      else
        match rest with
        | '.' :: rest =>
          let (places, rest) := rest.span Char.isDigit
          if places.isEmpty then none else some rest
        | rest => some rest
  | _ => none

/-- Whether a text is an offset from universal time, or nothing. -/
def isOffset : List Char → Bool
  | [] => true
  | ['Z'] => true
  | ['z'] => true
  | sign :: rest => (sign = '+' || sign = '-') && afterHourMinute? rest == some []

/-- Whether a text is a date, a time, or a date and a time with or without an offset. -/
def isDateTime (cs : List Char) : Bool :=
  match afterDate? cs with
  | some [] => true
  | some (delimiter :: time) =>
    (delimiter = 'T' || delimiter = 't' || delimiter = ' ') &&
      ((afterTime? time).map isOffset).getD false
  | none => afterTime? cs == some []

/-- A date as a document: an object of one member that no record has a field for. -/
def dateTime (cs : List Char) : Json := .object [("date-time", .string (String.ofList cs))]

/-- The value of a bare word. -/
def scalar? (word : List Char) : Option Json :=
  if word = "true".toList then some (.bool true)
  else if word = "false".toList then some (.bool false)
  else if isDateTime word then some (dateTime word)
  else (float? word).or (integer? word)

example : ungrouped? Char.isDigit "1_000".toList = some "1000".toList := by decide
example : ungrouped? Char.isDigit "1__0".toList = none := by decide
example : isDateTime "1979-05-27T07:32:00.5-08:00".toList = true := by decide
example : isDateTime "2023-02-29".toList = false := by decide

end EvmInspect.Toml
