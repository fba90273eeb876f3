import EvmInspect.Bytes.BigEndian

/-!
# Reading UTF-8 without failing

Bytes that need not be UTF-8 are read as text all the same: each longest piece that
begins like a character but is none, and each byte that cannot begin one, becomes the
replacement character U+FFFD.
-/

namespace EvmInspect.Text

/-- The character that stands for bytes that are none. -/
def replacement : Char := Char.ofNat 0xfffd

/-- A byte that may follow the first byte of a character. -/
def isContinuation (b : UInt8) : Bool := 0x80 ≤ b && b ≤ 0xbf

/-- Whether the second byte may follow the first in a character of three bytes:
overlong forms and surrogates are shut out. -/
def opensThree (first second : UInt8) : Bool :=
  if first == 0xe0 then 0xa0 ≤ second && second ≤ 0xbf
  else if first == 0xed then 0x80 ≤ second && second ≤ 0x9f
  else isContinuation second

/-- Whether the second byte may follow the first in a character of four bytes:
overlong forms and numbers above U+10FFFF are shut out. -/
def opensFour (first second : UInt8) : Bool :=
  if first == 0xf0 then 0x90 ≤ second && second ≤ 0xbf
  else if first == 0xf4 then 0x80 ≤ second && second ≤ 0x8f
  else isContinuation second

/-- The low six bits of a byte. -/
def low (b : UInt8) : Nat := b.toNat % 64

/-- Reads bytes as UTF-8, putting `replacement` for what is not. -/
def decodeUtf8 : Bytes → List Char
  | [] => []
  | b₀ :: rest₀ =>
    if b₀ < 0x80 then Char.ofNat b₀.toNat :: decodeUtf8 rest₀
    else if 0xc2 ≤ b₀ && b₀ ≤ 0xdf then
      match rest₀ with
      | [] => [replacement]
      | b₁ :: rest₁ =>
        if isContinuation b₁ then
          Char.ofNat (b₀.toNat % 32 * 64 + low b₁) :: decodeUtf8 rest₁
        else replacement :: decodeUtf8 (b₁ :: rest₁)
    else if 0xe0 ≤ b₀ && b₀ ≤ 0xef then
      match rest₀ with
      | [] => [replacement]
      | b₁ :: rest₁ =>
        if opensThree b₀ b₁ then
          match rest₁ with
          | [] => [replacement]
          | b₂ :: rest₂ =>
            if isContinuation b₂ then
              Char.ofNat ((b₀.toNat % 16 * 64 + low b₁) * 64 + low b₂) :: decodeUtf8 rest₂
            else replacement :: decodeUtf8 (b₂ :: rest₂)
        else replacement :: decodeUtf8 (b₁ :: rest₁)
    else if 0xf0 ≤ b₀ && b₀ ≤ 0xf4 then
      match rest₀ with
      | [] => [replacement]
      | b₁ :: rest₁ =>
        if opensFour b₀ b₁ then
          match rest₁ with
          | [] => [replacement]
          | b₂ :: rest₂ =>
            if isContinuation b₂ then
              match rest₂ with
              | [] => [replacement]
              | b₃ :: rest₃ =>
                if isContinuation b₃ then
                  Char.ofNat (((b₀.toNat % 8 * 64 + low b₁) * 64 + low b₂) * 64 + low b₃)
                    :: decodeUtf8 rest₃
                else replacement :: decodeUtf8 (b₃ :: rest₃)
            else replacement :: decodeUtf8 (b₂ :: rest₂)
        else replacement :: decodeUtf8 (b₁ :: rest₁)
    else replacement :: decodeUtf8 rest₀

end EvmInspect.Text
