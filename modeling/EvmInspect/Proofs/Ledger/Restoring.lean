import EvmInspect.Ledger.World
import Mathlib.Data.List.Nodup

/-!
# What going back keeps of the live world

Going back to a captured world (`World.restore`) takes from it everything that execution made,
whatever the live world is (`executed_restore`). Of the live world only what is known of the
chain is kept, and only for accounts that were captured: a balance that was not known then, and
the first values of slots (`World.Replaces`). A live account keeps the address that it names, and
one that is made anew names the one that it is put under. So going back twice is going back once,
and what was gone back to in between does not show.

`World.restore` makes the accounts at one stroke. Going back step by step comes to the same: the
accounts that were not captured are dropped, missing ones are made, and each is given its records
and then the rest, in whatever order accounts and records are gone through
(`bringBack_eq_restore`).
-/

namespace EvmInspect

/-! ## Entries in any order -/

namespace KeyMap

variable {κ α β : Type} [Rank κ] {k : κ}

theorem findIn_eq_some_iff_of_nodup {v : α} {es : List (κ × α)}
    (distinct : (es.map Prod.fst).Nodup) : findIn k es = some v ↔ (k, v) ∈ es := by
  induction es with
  | nil => simp [findIn]
  | cons head rest ih =>
    obtain ⟨k', v'⟩ := head
    obtain ⟨fresh, distinct⟩ := List.nodup_cons.mp distinct
    by_cases same : Rank.rank k' = Rank.rank k
    · obtain rfl := Rank.rank_inj same
      have gone : (k', v) ∉ rest := fun mem => fresh (List.mem_map.mpr ⟨_, mem, rfl⟩)
      simp [findIn, gone, eq_comm]
    · have other : k ≠ k' := fun h => same (by rw [h])
      simp [findIn, same, ih distinct, other]

/-- The keys of a map's entries are distinct in any order. -/
theorem nodup_of_perm {m : KeyMap κ α} {es : List (κ × α)} (order : es.Perm m.toList) :
    (es.map Prod.fst).Nodup := by
  have ascending : (m.toList.map Prod.fst).Nodup := by
    rw [List.Nodup, List.pairwise_map]
    refine m.ordered.imp fun lt same => ?_
    rw [same] at lt
    exact Nat.lt_irrefl _ lt
  exact (order.map Prod.fst).nodup_iff.mpr ascending

theorem findIn_of_perm {m : KeyMap κ α} {es : List (κ × α)} (order : es.Perm m.toList) :
    findIn k es = m.get? k := by
  apply Option.ext
  intro v
  rw [findIn_eq_some_iff_of_nodup (nodup_of_perm order), order.mem_iff, get?_eq_some_iff]

/-- Puts entries in one by one, each made with what is there under its key. -/
def putAll (make : κ → Option α → β → α) (m : KeyMap κ α) (es : List (κ × β)) : KeyMap κ α :=
  es.foldl (fun m e => m.insert e.1 (make e.1 (m.get? e.1) e.2)) m

/-- The order in which the entries of a map are put in does not count. -/
theorem get?_putAll (make : κ → Option α → β → α) (m : KeyMap κ α) {later : KeyMap κ β}
    {es : List (κ × β)} (order : es.Perm later.toList) :
    (putAll make m es).get? k =
      match later.get? k with
      | some v => some (make k (m.get? k) v)
      | none => m.get? k := by
  have distinct := nodup_of_perm order
  rw [← findIn_of_perm order]
  clear order
  induction es generalizing m with
  | nil => rfl
  | cons head rest ih =>
    obtain ⟨k', v⟩ := head
    obtain ⟨fresh, distinct⟩ := List.nodup_cons.mp distinct
    rw [putAll, List.foldl_cons, ← putAll, ih _ distinct]
    by_cases same : k' = k
    · subst same
      have gone : findIn k' rest = none := by
        refine findIn_eq_none fun e mem eq => fresh ?_
        exact List.mem_map.mpr ⟨e, mem, Rank.rank_inj eq⟩
      simp only [findIn, gone, if_true, get?_insert_self]
    · have differs : ¬ Rank.rank k' = Rank.rank k := fun eq => same (Rank.rank_inj eq)
      simp only [findIn, if_neg differs, get?_insert_of_ne m _ same]

end KeyMap

namespace Ledger

/-! ## An account -/

namespace Account

/-- All that execution makes of an account. -/
structure Executed where
  delta : Int
  nonce : Option UInt64
  code : Option Bytes
  storage : KeyMap Word Bytes
  warmKeys : KeySet Word

/-- What is left without the address and without what is known of the chain. -/
def executed (a : Account) : Executed := ⟨a.delta, a.nonce, a.code, a.storage, a.warmKeys⟩

/-- What an account that was captured under an address becomes where there may be a live one. -/
structure Replaces (a : Address) (captured : Account) (live : Option Account) (back : Account) :
    Prop where
  address : back.address = (live.map Account.address).getD a
  executed : back.executed = captured.executed
  chainBalance : back.chainBalance = captured.chainBalance.or (live.bind Account.chainBalance)
  observed : ∀ key v, (live.bind fun now => now.firstValues.get? key) = some (some v) →
    back.firstValues.get? key = some (some v)
  unobserved : ∀ key, (∀ v, (live.bind fun now => now.firstValues.get? key) ≠ some (some v)) →
    back.firstValues.get? key =
      (captured.firstValues.get? key).or (live.bind fun now => now.firstValues.get? key)

theorem executed_restore (captured live : Account) :
    (captured.restore live).executed = captured.executed := rfl

theorem eq_of_executed {a b : Account} (address : a.address = b.address)
    (executed : a.executed = b.executed) (balance : a.chainBalance = b.chainBalance)
    (records : a.firstValues = b.firstValues) : a = b := by
  obtain ⟨_, _, delta, nonce, code, storage, _, warmKeys⟩ := a
  obtain ⟨_, _, delta', nonce', code', storage', _, warmKeys'⟩ := b
  cases address
  cases executed
  cases balance
  cases records
  rfl

theorem mergedRecord_self (record : Option (Option Bytes)) :
    mergedRecord record record = record := by
  cases record with
  | none => rfl
  | some value => cases value <;> rfl

theorem mergedRecord_mergedRecord (captured live : Option (Option Bytes)) :
    mergedRecord captured (mergedRecord captured live) = mergedRecord captured live := by
  cases captured with
  | none => rfl
  | some old =>
    cases live with
    | none => exact mergedRecord_self (some old)
    | some now => cases now <;> cases old <;> rfl

theorem restore_restore (captured live : Account) :
    captured.restore (captured.restore live) = captured.restore live := by
  refine eq_of_executed rfl rfl ?_ (KeyMap.ext_get? fun key => ?_)
  · show captured.chainBalance.or (captured.chainBalance.or live.chainBalance) =
      captured.chainBalance.or live.chainBalance
    rw [← Option.or_assoc, Option.or_self]
  · rw [firstValues_restore, firstValues_restore, mergedRecord_mergedRecord]

/-- Nothing is recorded in an account that is made anew. -/
theorem firstValues_getD (a : Address) (live : Option Account) (key : Word) :
    (live.getD (.empty a)).firstValues.get? key =
      live.bind fun now => now.firstValues.get? key := by
  cases live <;> rfl

theorem replaces_restore (a : Address) (captured : Account) (live : Option Account) :
    captured.Replaces a live (captured.restore (live.getD (.empty a))) where
  address := by cases live <;> rfl
  executed := rfl
  chainBalance := by cases live <;> rfl
  observed key v record := by
    rw [firstValues_restore, firstValues_getD, record]
    cases captured.firstValues.get? key <;> rfl
  unobserved key unobserved := by
    rw [firstValues_restore, firstValues_getD]
    cases record : live.bind fun now => now.firstValues.get? key with
    | none => cases captured.firstValues.get? key <;> rfl
    | some now =>
      cases now with
      | none => cases captured.firstValues.get? key <;> rfl
      | some v => exact absurd record (unobserved v)

end Account

/-! ## A world -/

namespace World

/-- All that execution makes of a world. -/
structure Executed where
  accounts : KeyMap Address Account.Executed
  warm : KeySet Address
  transient : KeyMap (Address × Word) Word

/-- What is left without what is known of the chain. -/
def executed (w : World) : Executed :=
  ⟨w.accounts.map fun _ account => account.executed, w.warm, w.transient⟩

/-- What a captured world becomes over a live one. -/
structure Replaces (captured live back : World) : Prop where
  addresses : back.accounts.keys = captured.accounts.keys
  accounts : ∀ a old, captured.account? a = some old →
    ∃ now, back.account? a = some now ∧ old.Replaces a (live.account? a) now
  warm : back.warm = captured.warm
  transient : back.transient = captured.transient

theorem replaces_restore (captured live : World) :
    captured.Replaces live (captured.restore live) where
  addresses := by rw [restore, KeyMap.keys_map]
  accounts a old there := by
    rw [account?_restore, there]
    exact ⟨_, rfl, old.replaces_restore a (live.account? a)⟩
  warm := rfl
  transient := rfl

/-- What execution made is the captured world's, whatever the live one is. -/
theorem executed_restore (captured live : World) :
    (captured.restore live).executed = captured.executed := by
  have accounts : (captured.restore live).executed.accounts = captured.executed.accounts := by
    apply KeyMap.ext_get?
    intro a
    show ((captured.restore live).accounts.map _).get? a = (captured.accounts.map _).get? a
    rw [KeyMap.get?_map, KeyMap.get?_map]
    show ((captured.restore live).account? a).map _ = (captured.account? a).map _
    rw [account?_restore, Option.map_map]
    exact Option.map_congr fun old _ => old.executed_restore (live.accountD a)
  exact congrArg (Executed.mk · captured.warm captured.transient) accounts

theorem restore_restore (captured live : World) :
    captured.restore (captured.restore live) = captured.restore live := by
  have accounts : (captured.restore (captured.restore live)).accounts =
      (captured.restore live).accounts := by
    apply KeyMap.ext_get?
    intro a
    show (captured.restore (captured.restore live)).account? a = (captured.restore live).account? a
    rw [account?_restore, accountD, account?_restore]
    cases captured.account? a with
    | none => rfl
    | some old => exact congrArg some (old.restore_restore (live.accountD a))
  exact congrArg (World.mk · captured.warm captured.transient) accounts

end World

/-! ## Step by step -/

/-- Gives a live account the balance and the records of a captured one: the balance if there was
one, and a record where the live account has none or knows no value. -/
def Account.seed (live : Account) (balance : Option Word)
    (records : List (Word × Option Bytes)) : Account :=
  { live with
    chainBalance := balance.or live.chainBalance
    firstValues := KeyMap.putAll (fun _ present first => (present.getD none).or first)
      live.firstValues records }

/-- Brings a captured account back over a live one, its records in some order. -/
def Account.bringBack (captured : Account) (records : List (Word × Option Bytes))
    (live : Account) : Account :=
  { live.seed captured.chainBalance records with
    delta := captured.delta
    nonce := captured.nonce
    code := captured.code
    storage := captured.storage
    warmKeys := captured.warmKeys }

/-- Goes back to a captured world step by step, its accounts in some order and the records of
each in some order. -/
def World.bringBack (captured : World) (order : List (Address × Account))
    (records : Address → List (Word × Option Bytes)) (live : World) : World where
  accounts := KeyMap.putAll (fun a now old => old.bringBack (records a) (now.getD (.empty a)))
    (live.accounts.filter fun a _ => captured.accounts.contains a) order
  warm := captured.warm
  transient := captured.transient

/-- An order of the accounts of a world, and of the records of each. -/
structure World.Orders (w : World) (order : List (Address × Account))
    (records : Address → List (Word × Option Bytes)) : Prop where
  accounts : order.Perm w.accounts.toList
  records : ∀ a account, w.account? a = some account →
    (records a).Perm account.firstValues.toList

theorem Account.bringBack_eq_restore {captured : Account} {records : List (Word × Option Bytes)}
    (order : records.Perm captured.firstValues.toList) (live : Account) :
    captured.bringBack records live = captured.restore live := by
  refine eq_of_executed rfl rfl rfl (KeyMap.ext_get? fun key => ?_)
  rw [firstValues_restore]
  show (KeyMap.putAll _ live.firstValues records).get? key = _
  rw [KeyMap.get?_putAll _ _ order]
  cases captured.firstValues.get? key with
  | none => rfl
  | some first => cases live.firstValues.get? key <;> rfl

/-- In whatever order accounts and records are gone through, going back step by step is going
back at one stroke. -/
theorem World.bringBack_eq_restore {captured : World} {order : List (Address × Account)}
    {records : Address → List (Word × Option Bytes)} (h : captured.Orders order records)
    (live : World) : captured.bringBack order records live = captured.restore live := by
  have accounts : (captured.bringBack order records live).accounts =
      (captured.restore live).accounts := by
    apply KeyMap.ext_get?
    intro a
    show (KeyMap.putAll _ _ order).get? a = (captured.restore live).account? a
    rw [account?_restore, KeyMap.get?_putAll _ _ h.accounts, KeyMap.get?_filter]
    show _ = (captured.accounts.get? a).map _
    cases there : captured.accounts.get? a with
    | none =>
      -- what was not captured has been dropped
      simp [KeyMap.contains, there]
    | some old =>
      have kept : (live.accounts.get? a).filter (fun _ => captured.accounts.contains a) =
          live.account? a := by
        simp only [KeyMap.contains, there, Option.isSome_some, World.account?]
        cases live.accounts.get? a <;> rfl
      simp only [kept, Option.map_some, Account.bringBack_eq_restore (h.records a old there),
        World.accountD]
  exact congrArg (World.mk · captured.warm captured.transient) accounts

/-! ## Going back -/

/-- Over any live world a captured world comes back with its accounts and no others, with all
that execution had made of them; going through its accounts and records in any order comes to
the same. Going back again changes nothing, and nothing that execution made depends on the live
world, whether or not another world was gone back to before. -/
theorem World.restore_absorbs (captured live : World) :
    captured.Replaces live (captured.restore live) ∧
      (∀ order records, captured.Orders order records →
        captured.bringBack order records live = captured.restore live) ∧
      captured.restore (captured.restore live) = captured.restore live ∧
      (∀ elsewhere : World,
        (captured.restore elsewhere).executed = (captured.restore live).executed) ∧
      ∀ other : World,
        (captured.restore (other.restore live)).executed = (captured.restore live).executed := by
  refine ⟨captured.replaces_restore live, ?_, captured.restore_restore live, ?_, ?_⟩
  · intro order records orders
    exact bringBack_eq_restore orders live
  · intro elsewhere
    rw [executed_restore, executed_restore]
  · intro other
    rw [executed_restore, executed_restore]

/-- Two accounts and their records are gone through from the last to the first. The live world
has dropped one of them, and knows a balance of the other and has a third. -/
theorem World.backwards_restore_absorbs :
    let a := Address.ofNat 1
    let b := Address.ofNat 2
    let captured : World :=
      { accounts := .insert (.insert .empty a
          { address := a
            storage := .insert .empty 0 [1]
            firstValues := .insert (.insert .empty 0 none) 1 (some [5]) })
          b { address := b, delta := 3 }
        warm := KeySet.add .empty a }
    let live : World :=
      { accounts := .insert (.insert .empty b { address := b, chainBalance := some 9 })
          (Address.ofNat 3) (.empty (Address.ofNat 3)) }
    let records := fun a =>
      ((captured.account? a).map fun account => account.firstValues.toList.reverse).getD []
    captured.Orders captured.accounts.toList.reverse records ∧
      captured.bringBack captured.accounts.toList.reverse records live = captured.restore live ∧
      (captured.restore live).account? b =
        some { address := b, chainBalance := some 9, delta := 3 } := by
  intro a b captured live records
  have orders : captured.Orders captured.accounts.toList.reverse records := by
    refine ⟨List.reverse_perm _, fun a account there => ?_⟩
    show (((captured.account? a).map _).getD []).Perm _
    rw [there]
    exact List.reverse_perm _
  exact ⟨orders, (restore_absorbs captured live).2.1 _ _ orders, by decide⟩

end Ledger

end EvmInspect
