/-!
# Types of the contract ABI

The types a parameter can have once its name is resolved, and the three facts about a
type that decide its layout: whether its values are reached through an offset, how many
words any value of it takes at least, and whether it is made of empty tuples only.
-/

namespace EvmInspect.Abi

/-- A resolved ABI type. -/
inductive Ty where
  | uint (bits : Nat)
  | int (bits : Nat)
  | address
  | bool
  | fixedBytes (size : Nat)
  /-- An address and a selector, 24 bytes in all. -/
  | function
  | bytes
  | string
  | array (element : Ty)
  | fixedArray (element : Ty) (size : Nat)
  | tuple (members : List Ty)
deriving Inhabited

namespace Ty

/-- Whether a value of the type is one word. -/
def isWord : Ty → Bool
  | uint _ => true
  | int _ => true
  | address => true
  | bool => true
  | fixedBytes _ => true
  | function => true
  | _ => false

mutual

/-- Whether a value of the type is reached through an offset. -/
def isDynamic : Ty → Bool
  | bytes => true
  | string => true
  | array _ => true
  | fixedArray t _ => isDynamic t
  | tuple ts => anyDynamic ts
  | _ => false

/-- Whether some type of a list is dynamic. -/
def anyDynamic : List Ty → Bool
  | [] => false
  | t :: ts => isDynamic t || anyDynamic ts

end

mutual

/-- The least number of words that a value of the type takes. -/
def minWords : Ty → Nat
  | fixedArray t n => n * minWords t
  | tuple ts => minWordsAll ts
  | _ => 1

/-- The least number of words that values of a list of types take together. -/
def minWordsAll : List Ty → Nat
  | [] => 0
  | t :: ts => minWords t + minWordsAll ts

end

mutual

/-- Whether the type is made of empty tuples only, so that its values take no bytes. -/
def isEmpty : Ty → Bool
  | array t => isEmpty t
  | fixedArray t _ => isEmpty t
  | tuple ts => allEmpty ts
  | _ => false

/-- Whether every type of a list is made of empty tuples only. -/
def allEmpty : List Ty → Bool
  | [] => true
  | t :: ts => isEmpty t && allEmpty ts

end

end Ty

end EvmInspect.Abi
