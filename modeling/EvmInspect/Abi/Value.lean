import EvmInspect.Abi.Ty
import EvmInspect.Word

/-!
# Values of the ABI

What a parameter can hold. Integers are kept as the word they were read from: unsigned
types read it as a number, signed types as its two's complement.
-/

namespace EvmInspect.Abi

inductive Value where
  | uint (word : Word)
  | int (word : Word)
  | address (a : Address)
  | bool (b : Bool)
  | fixedBytes (bytes : Bytes)
  | function (bytes : Bytes)
  | bytes (bytes : Bytes)
  | string (text : String)
  | array (items : List Value)
  | tuple (members : List Value)
deriving Inhabited

mutual

/-- Whether a value belongs to a type. The width of an integer type does not count. -/
def Ty.admits : Ty → Value → Bool
  | .uint _, .uint _ => true
  | .int _, .int _ => true
  | .address, .address _ => true
  | .bool, .bool _ => true
  | .fixedBytes n, .fixedBytes bs => bs.length == n && n ≤ 32
  | .function, .function bs => bs.length == 24
  | .bytes, .bytes bs => bs.length < UInt64.size
  | .string, .string s => s.utf8ByteSize < UInt64.size
  | .array t, .array vs => vs.length < UInt64.size && vs.all (Ty.admits t)
  | .fixedArray t n, .array vs => vs.length == n && vs.all (Ty.admits t)
  | .tuple ts, .tuple vs => Ty.admitsAll ts vs
  | _, _ => false

/-- Whether each value of a list belongs to the type at its place. -/
def Ty.admitsAll : List Ty → List Value → Bool
  | [], [] => true
  | t :: ts, v :: vs => Ty.admits t v && Ty.admitsAll ts vs
  | _, _ => false

end

end EvmInspect.Abi
