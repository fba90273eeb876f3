import EvmInspect.KeyMap

/-!
# An account in the ledger

What is known of one address. The account names this address itself; under which one a
ledger keeps it is another matter. A balance is the chain's value, once that has been
fetched, and the sum of what execution added. A slot keeps, beside its value, the first
value that was observed for it: that record is made when the slot is first written or
fetched, and only an absent record is ever filled in later.
-/

namespace EvmInspect.Ledger

structure Account where
  /-- The address that the account was made for. -/
  address : Address
  /-- The balance on the chain, once fetched. -/
  chainBalance : Option Word := none
  /-- The sum of all changes to the balance. -/
  delta : Int := 0
  nonce : Option UInt64 := none
  code : Option Bytes := none
  storage : KeyMap Word Bytes := .empty
  /-- The first value observed of each slot: absent for a slot written before any value
  of it was known. -/
  firstValues : KeyMap Word (Option Bytes) := .empty
  warmKeys : KeySet Word := .empty
deriving DecidableEq

namespace Account

/-- An account as it is made for an address, with nothing known of it. -/
def empty (address : Address := default) : Account := { address }

instance : Inhabited Account := ⟨empty⟩

/-- The balance: the chain's, or zero while that is not known, and all changes. -/
def total (a : Account) : Int := ((a.chainBalance.map Word.unsigned).getD 0) + a.delta

/-- Writes a slot, recording its present value as its first on the first touch. -/
def writeTracked (a : Account) (key : Word) (value : Bytes) : Account :=
  let firstValues :=
    if a.firstValues.contains key then a.firstValues
    else a.firstValues.insert key (a.storage.get? key)
  { a with firstValues, storage := a.storage.insert key value }

/-- Writes a slot without a record. -/
def writeUntracked (a : Account) (key : Word) (value : Bytes) : Account :=
  { a with storage := a.storage.insert key value }

/-- Keeps a fetched value of a slot; it is the slot's first value unless one is known. -/
def recordFetched (a : Account) (key : Word) (value : Bytes) : Account :=
  let first := ((a.firstValues.get? key).getD none).or (some value)
  { a with firstValues := a.firstValues.insert key first, storage := a.storage.insert key value }

def addDelta (a : Account) (amount : Int) : Account := { a with delta := a.delta + amount }

def warmKey (a : Account) (key : Word) : Account := { a with warmKeys := KeySet.add a.warmKeys key }

/-- Goes back from `live` to a captured account. The address stays that of `live`, and what is
known of the chain is not lost: a balance fetched since and the first values recorded since are
kept. -/
def restore (captured live : Account) : Account :=
  { captured with
    address := live.address
    chainBalance := captured.chainBalance.or live.chainBalance
    firstValues := .union (fun now before => now.or before) live.firstValues captured.firstValues }

/-! ## Records -/

/-- A tracked write records the present value of its slot unless there is a record. -/
theorem firstValues_writeTracked_self (a : Account) (key : Word) (value : Bytes) :
    (a.writeTracked key value).firstValues.get? key =
      if (a.firstValues.get? key).isSome then a.firstValues.get? key
      else some (a.storage.get? key) := by
  unfold writeTracked KeyMap.contains
  by_cases recorded : (a.firstValues.get? key).isSome
  · simp only [if_pos recorded]
  · simp only [if_neg recorded, KeyMap.get?_insert_self]

theorem firstValues_writeTracked_of_ne (a : Account) {key k : Word} (value : Bytes)
    (h : key ≠ k) : (a.writeTracked key value).firstValues.get? k = a.firstValues.get? k := by
  unfold writeTracked
  by_cases recorded : a.firstValues.contains key
  · simp only [if_pos recorded]
  · simp only [if_neg recorded, KeyMap.get?_insert_of_ne _ _ h]

/-- What is recorded of a slot that is brought back: nothing is lost, and a value that the
live record has stays. -/
def mergedRecord : (captured live : Option (Option Bytes)) → Option (Option Bytes)
  | none, live => live
  | some old, none => some old
  | some old, some now => some (now.or old)

theorem firstValues_restore (captured live : Account) (key : Word) :
    (captured.restore live).firstValues.get? key =
      mergedRecord (captured.firstValues.get? key) (live.firstValues.get? key) := by
  rw [show (captured.restore live).firstValues =
    .union (fun now before => now.or before) live.firstValues captured.firstValues from rfl,
    KeyMap.get?_union]
  cases captured.firstValues.get? key with
  | none => rfl
  | some old => cases live.firstValues.get? key <;> rfl

end Account

end EvmInspect.Ledger
