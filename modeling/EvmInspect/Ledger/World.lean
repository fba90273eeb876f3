import EvmInspect.Ledger.Account

/-!
# The state that snapshots capture

Accounts, warm addresses and transient storage. A snapshot is a copy of all three under
a number; going back to it brings back its accounts and no others.
-/

namespace EvmInspect.Ledger

structure World where
  accounts : KeyMap Address Account := .empty
  /-- Every address that was ever touched. -/
  warm : KeySet Address := .empty
  /-- Values that live for one transaction. -/
  transient : KeyMap (Address × Word) Word := .empty
deriving DecidableEq

namespace World

def empty : World := {}

instance : Inhabited World := ⟨empty⟩

def account? (w : World) (a : Address) : Option Account := w.accounts.get? a

/-- The account of an address, made for it if there is none. -/
def accountD (w : World) (a : Address) : Account := (w.account? a).getD (.empty a)

/-- What was recorded of a slot when it was first touched, if it was. -/
def firstValue? (w : World) (a : Address) (key : Word) : Option (Option Bytes) :=
  (w.account? a).bind fun account => account.firstValues.get? key

/-- Changes an account without touching its address; an account that is not there is made. -/
def modify (w : World) (a : Address) (change : Account → Account) : World :=
  { w with accounts := w.accounts.insert a (change (w.accountD a)) }

/-- Touches an address and changes its account, which is made if it is not there. -/
def touch (w : World) (a : Address) (change : Account → Account) : World :=
  { w.modify a change with warm := KeySet.add w.warm a }

def isWarm (w : World) (a : Address) : Bool := w.warm.contains a

def isSlotWarm (w : World) (a : Address) (key : Word) : Bool :=
  match w.account? a with
  | some account => account.warmKeys.contains key
  | none => false

/-- The transient value of a slot, zero unless set. -/
def transientValue (w : World) (a : Address) (key : Word) : Word :=
  (w.transient.get? (a, key)).getD 0

def setTransient (w : World) (a : Address) (key value : Word) : World :=
  { w with transient := w.transient.insert (a, key) value }

/-- Goes back from `live` to a captured world. An account that is live no more is made anew. -/
def restore (captured live : World) : World :=
  { captured with
    accounts := captured.accounts.map fun a account => account.restore (live.accountD a) }

/-! ## Look-ups -/

@[simp] theorem account?_touch (w : World) (a b : Address) (change : Account → Account) :
    (w.touch a change).account? b =
      if a = b then some (change (w.accountD a)) else w.account? b := by
  simp only [touch, modify, account?, KeyMap.get?_insert, Rank.rank_eq_iff]

@[simp] theorem accountD_touch (w : World) (a b : Address) (change : Account → Account) :
    (w.touch a change).accountD b = if a = b then change (w.accountD a) else w.accountD b := by
  simp only [accountD, account?_touch]
  split <;> rfl

/-- Dropping an account leaves the others. -/
theorem account?_erase (w : World) (a b : Address) :
    World.account? { w with accounts := w.accounts.erase a } b =
      if a = b then none else w.account? b := by
  simp only [account?, KeyMap.get?_erase, Rank.rank_eq_iff]

theorem accountD_erase (w : World) (a b : Address) :
    World.accountD { w with accounts := w.accounts.erase a } b =
      if a = b then .empty b else w.accountD b := by
  simp only [accountD, account?_erase]
  split <;> rfl

theorem firstValue?_eq (w : World) (a : Address) (key : Word) :
    w.firstValue? a key = (w.accountD a).firstValues.get? key := by
  unfold firstValue? accountD
  cases w.account? a <;> rfl

@[simp] theorem transient_touch (w : World) (a : Address) (change : Account → Account) :
    (w.touch a change).transient = w.transient := rfl

/-- An account comes back merged with the one that is live, or else with one that is new. -/
theorem account?_restore (captured live : World) (a : Address) :
    (captured.restore live).account? a =
      (captured.account? a).map fun account => account.restore (live.accountD a) := by
  simp only [restore, account?, KeyMap.get?_map]

end World

/-- A copy of the world under a number. -/
structure Snapshot where
  id : Nat
  world : World
deriving DecidableEq

end EvmInspect.Ledger
