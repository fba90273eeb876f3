import EvmInspect.Address.Text
import EvmInspect.Json.Basic
import EvmInspect.Ledger.State
import EvmInspect.Word.Text

/-!
# What execution changed

The slots whose present value differs from the first one observed, and the accounts
whose balance moved. Both are gathered account by account, under the address that each account
names, and then sorted.
-/

namespace EvmInspect.Ledger

open Rank

/-- A slot that holds something else than at first. -/
structure StorageChange where
  address : Address
  key : Word
  /-- Absent where nothing was known of the slot before it was written. -/
  first : Option Bytes
  current : Bytes
deriving DecidableEq

/-- An account whose balance moved. -/
structure BalanceChange where
  address : Address
  chainBalance : Option Word
  delta : Int
deriving DecidableEq

namespace StorageChange

/-- Whether a change may stand before another: by address, and by key under one address. -/
def le (c d : StorageChange) : Bool :=
  decide (rank c.address < rank d.address ∨
    rank c.address = rank d.address ∧ rank c.key ≤ rank d.key)

def document (c : StorageChange) : Json :=
  .object [
    ("address", .string c.address.hex),
    ("key", .string c.key.hex),
    ("original", match c.first with
      | some value => .string (Hex.encode value)
      | none => .null),
    ("current", .string (Hex.encode c.current))]

end StorageChange

namespace BalanceChange

/-- Whether a change of balance may stand before another. -/
def le (c d : BalanceChange) : Bool := decide (rank c.address ≤ rank d.address)

def document (c : BalanceChange) : Json :=
  .object [
    ("address", .string c.address.hex),
    ("initial_chain_balance", match c.chainBalance with
      | some balance => .string balance.hex
      | none => .null),
    ("delta", .string (Numeral.decimal c.delta))]

end BalanceChange

namespace Account

/-- The changed slots among some records of an account. A recorded slot that has no value is no
change. -/
def changesAmong (account : Account) (records : List (Word × Option Bytes)) :
    List StorageChange :=
  records.filterMap fun (key, first) =>
    match account.storage.get? key with
    | none => none
    | some current =>
      if first = some current then none else some ⟨account.address, key, first, current⟩

/-- The changed slots of an account. -/
def storageChanges (account : Account) : List StorageChange :=
  account.changesAmong account.firstValues.toList

/-- The change of balance of an account, if its balance moved. -/
def balanceChange? (account : Account) : Option BalanceChange :=
  if account.delta = 0 then none
  else some ⟨account.address, account.chainBalance, account.delta⟩

end Account

namespace World

/-- The changed slots, by address and then by key. -/
def storageChanges (w : World) : List StorageChange :=
  (w.accounts.toList.flatMap fun entry => entry.2.storageChanges).mergeSort StorageChange.le

/-- The accounts with a change of balance, by address. -/
def balanceChanges (w : World) : List BalanceChange :=
  (w.accounts.toList.filterMap fun entry => entry.2.balanceChange?).mergeSort BalanceChange.le

end World

end EvmInspect.Ledger
