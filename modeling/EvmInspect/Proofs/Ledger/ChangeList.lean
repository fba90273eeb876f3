import EvmInspect.Ledger.Changes
import EvmInspect.Proofs.Ledger.OwnAddresses
import Mathlib.Data.List.Basic
import Mathlib.Data.List.Pairwise
import Mathlib.Data.List.Perm.Basic

/-!
# The list of changed slots as a map

Where each account stands under its own address (`World.Own`), a slot is listed at most once, and
what is listed of it depends on this slot alone: on what is recorded of it and on what it holds
(`changeAt?`). The accounts of a world are kept in the order of their addresses, so the changes
are found in strictly ascending order (`Before`) and sorting leaves them as they are
(`storageChanges_eq`). Two worlds list the same exactly if they agree at each slot
(`storageChanges_eq_iff`).
-/

namespace EvmInspect.Ledger

open Rank

/-- Sorting restores a strictly ascending list from any arrangement of its members. -/
theorem mergeSort_eq_of_perm {α : Type} {le : α → α → Bool} {xs ys : List α}
    (trans : ∀ x y z, le x y = true → le y z = true → le x z = true)
    (total : ∀ x y, (le x y || le y x) = true) (same : xs.Perm ys)
    (ascending : ys.Pairwise fun x y => le y x = false) : xs.mergeSort le = ys := by
  have ordered : ys.Pairwise fun x y => le x y = true := by
    refine ascending.imp fun {x y} after => ?_
    have either := total x y
    rwa [after, Bool.or_false] at either
  -- members that stand before each other both ways are one member
  let Once : α → α → Prop := fun x y => le x y = true → le y x = true → x = y
  have symm : Std.Symm Once := ⟨fun _ _ once before after => (once after before).symm⟩
  have unique : ∀ x ∈ ys, ∀ y ∈ ys, Once x y := by
    refine List.Pairwise.forall_of_forall (fun _ _ _ _ => rfl) (ascending.imp ?_)
    intro x y after _ before
    rw [after] at before
    cases before
  refine List.Perm.eq_of_pairwise ?_ (List.pairwise_mergeSort trans total xs) ordered
    ((List.mergeSort_perm xs le).trans same)
  intro x y memX memY before after
  have memX : x ∈ ys := same.mem_iff.mp (List.mem_mergeSort.mp memX)
  exact unique x memX y memY before after

/-! ## The order of changes -/

namespace StorageChange

variable {c d e : StorageChange}

/-- One change is listed before another: by address and then by key. -/
def Before (c d : StorageChange) : Prop :=
  rank c.address < rank d.address ∨ c.address = d.address ∧ rank c.key < rank d.key

theorem Before.asymm (h : c.Before d) : ¬ d.Before c := by
  intro h'
  rcases h with lower | ⟨same, lower⟩
  · rcases h' with higher | ⟨same, _⟩
    · exact Nat.lt_asymm lower higher
    · rw [same] at lower
      exact Nat.lt_irrefl _ lower
  · rcases h' with higher | ⟨_, higher⟩
    · rw [same] at higher
      exact Nat.lt_irrefl _ higher
    · exact Nat.lt_asymm lower higher

theorem Before.le_eq_false (h : c.Before d) : d.le c = false := by
  rcases h with lower | ⟨same, lower⟩
  · simp only [le, decide_eq_false_iff_not]
    omega
  · simp only [le, same, decide_eq_false_iff_not]
    omega

theorem le_trans (first : c.le d = true) (next : d.le e = true) : c.le e = true := by
  simp only [le, decide_eq_true_eq] at first next ⊢
  omega

theorem le_total (c d : StorageChange) : (c.le d || d.le c) = true := by
  simp only [le, Bool.or_eq_true, decide_eq_true_eq]
  omega

/-- Changes in strictly ascending order are what sorting makes of any arrangement of them. -/
theorem mergeSort_eq {found listed : List StorageChange} (same : found.Perm listed)
    (ascending : listed.Pairwise Before) : found.mergeSort le = listed :=
  mergeSort_eq_of_perm (fun _ _ _ => le_trans) le_total same (ascending.imp Before.le_eq_false)

end StorageChange

namespace BalanceChange

variable {c d e : BalanceChange}

/-- One change of balance is listed before another. -/
def Before (c d : BalanceChange) : Prop := rank c.address < rank d.address

theorem Before.le_eq_false (h : c.Before d) : d.le c = false := by
  simp only [le, decide_eq_false_iff_not]
  exact Nat.not_le.mpr h

theorem le_trans (first : c.le d = true) (next : d.le e = true) : c.le e = true := by
  simp only [le, decide_eq_true_eq] at first next ⊢
  omega

theorem le_total (c d : BalanceChange) : (c.le d || d.le c) = true := by
  simp only [le, Bool.or_eq_true, decide_eq_true_eq]
  omega

theorem mergeSort_eq {found listed : List BalanceChange} (same : found.Perm listed)
    (ascending : listed.Pairwise Before) : found.mergeSort le = listed :=
  mergeSort_eq_of_perm (fun _ _ _ => le_trans) le_total same (ascending.imp Before.le_eq_false)

end BalanceChange

/-! ## An account -/

/-- What is listed of a slot of an account. -/
def Account.changeAt? (account : Account) (key : Word) : Option StorageChange :=
  match account.firstValues.get? key, account.storage.get? key with
  | some first, some current =>
    if first = some current then none else some ⟨account.address, key, first, current⟩
  | _, _ => none

namespace Account

variable {account : Account} {c : StorageChange}

/-- What is listed of a slot is listed under the account's address and the key. -/
theorem changeAt?_slot {key : Word} (h : account.changeAt? key = some c) :
    c.address = account.address ∧ c.key = key := by
  unfold changeAt? at h
  split at h
  next =>
    split at h
    next => cases h
    next =>
      cases h
      exact ⟨rfl, rfl⟩
  next => cases h

/-- What is listed of a slot names the first value on record. -/
theorem changeAt?_first {key : Word} (h : account.changeAt? key = some c) :
    account.firstValues.get? key = some c.first := by
  unfold changeAt? at h
  split at h
  next recorded _ =>
    split at h
    next => cases h
    next =>
      cases h
      exact recorded
  next => cases h

/-- Each recorded slot is listed as its record and its value say. -/
theorem storageChanges_eq (account : Account) :
    account.storageChanges =
      account.firstValues.toList.filterMap fun entry => account.changeAt? entry.1 := by
  unfold storageChanges changesAmong
  apply List.filterMap_congr
  rintro ⟨key, first⟩ mem
  have recorded : account.firstValues.get? key = some first := KeyMap.get?_eq_some_iff.mpr mem
  unfold changeAt?
  simp only [recorded]
  cases account.storage.get? key <;> rfl

theorem mem_storageChanges :
    c ∈ account.storageChanges ↔
      c.address = account.address ∧ account.changeAt? c.key = some c := by
  rw [storageChanges_eq, List.mem_filterMap]
  constructor
  · rintro ⟨⟨key, first⟩, _, shown⟩
    obtain ⟨same, rfl⟩ := changeAt?_slot shown
    exact ⟨same, shown⟩
  · rintro ⟨_, shown⟩
    have recorded := changeAt?_first shown
    exact ⟨(c.key, c.first), KeyMap.get?_eq_some_iff.mp recorded, shown⟩

theorem storageChanges_pairwise (account : Account) :
    account.storageChanges.Pairwise StorageChange.Before := by
  rw [storageChanges_eq]
  refine List.Pairwise.filterMap _ ?_ account.firstValues.ordered
  rintro ⟨key, first⟩ ⟨key', first'⟩ lower c hc d hd
  obtain ⟨ca, rfl⟩ := changeAt?_slot hc
  obtain ⟨da, rfl⟩ := changeAt?_slot hd
  exact .inr ⟨ca.trans da.symm, lower⟩

end Account

/-! ## A world -/

namespace World

variable {w v : World} {c : StorageChange}

/-- What is listed of a slot. -/
def changeAt? (w : World) (a : Address) (key : Word) : Option StorageChange :=
  (w.account? a).bind fun account => account.changeAt? key

theorem changeAt?_slot (own : w.Own) {a : Address} {key : Word} (h : w.changeAt? a key = some c) :
    c.address = a ∧ c.key = key := by
  obtain ⟨account, there, shown⟩ := Option.bind_eq_some_iff.mp h
  obtain ⟨address, same⟩ := Account.changeAt?_slot shown
  exact ⟨address.trans (own a account there), same⟩

theorem mem_storageChanges (own : w.Own) :
    c ∈ w.storageChanges ↔ w.changeAt? c.address c.key = some c := by
  unfold storageChanges changeAt?
  rw [List.mem_mergeSort, List.mem_flatMap]
  constructor
  · rintro ⟨⟨a, account⟩, mem, listed⟩
    have there : w.account? a = some account := KeyMap.get?_eq_some_iff.mpr mem
    obtain ⟨address, shown⟩ := Account.mem_storageChanges.mp listed
    rw [address, own a account there, there]
    exact shown
  · intro shown
    obtain ⟨account, there, shown⟩ := Option.bind_eq_some_iff.mp shown
    exact ⟨(c.address, account), KeyMap.get?_eq_some_iff.mp there,
      Account.mem_storageChanges.mpr ⟨(own _ account there).symm, shown⟩⟩

/-- The changes are found in ascending order of their accounts, and of the records of each. -/
theorem found_pairwise (own : w.Own) :
    (w.accounts.toList.flatMap fun entry => entry.2.storageChanges).Pairwise
      StorageChange.Before := by
  rw [List.pairwise_flatMap]
  refine ⟨fun entry _ => entry.2.storageChanges_pairwise, ?_⟩
  have named : ∀ entry ∈ w.accounts.toList, ∀ c ∈ entry.2.storageChanges, c.address = entry.1 := by
    rintro ⟨a, account⟩ mem c listed
    exact (Account.mem_storageChanges.mp listed).1.trans
      (own a account (KeyMap.get?_eq_some_iff.mpr mem))
  refine w.accounts.ordered.imp_of_mem ?_
  intro entry entry' mem mem' lower c listed d listed'
  rw [← named entry mem c listed, ← named entry' mem' d listed'] at lower
  exact .inl lower

/-- Sorting leaves the changes as they are found. -/
theorem storageChanges_eq (own : w.Own) :
    w.storageChanges = w.accounts.toList.flatMap fun entry => entry.2.storageChanges :=
  StorageChange.mergeSort_eq (List.Perm.refl _) (found_pairwise own)

theorem storageChanges_pairwise (own : w.Own) :
    w.storageChanges.Pairwise StorageChange.Before := by
  rw [storageChanges_eq own]
  exact found_pairwise own

/-- Nothing is listed of a slot exactly if no listed change is one of this slot. -/
theorem changeAt?_eq_none_iff (own : w.Own) {a : Address} {key : Word} :
    w.changeAt? a key = none ↔ ∀ c ∈ w.storageChanges, ¬ (c.address = a ∧ c.key = key) := by
  constructor
  · rintro unlisted c listed ⟨rfl, rfl⟩
    rw [mem_storageChanges own, unlisted] at listed
    cases listed
  · intro unlisted
    cases h : w.changeAt? a key with
    | none => rfl
    | some c =>
      obtain ⟨rfl, rfl⟩ := changeAt?_slot own h
      exact absurd ⟨rfl, rfl⟩ (unlisted c ((mem_storageChanges own).mpr h))

/-- Two worlds list the same changes exactly if they list the same of each slot. -/
theorem storageChanges_eq_iff (own : w.Own) (own' : v.Own) :
    w.storageChanges = v.storageChanges ↔ ∀ a key, w.changeAt? a key = v.changeAt? a key := by
  constructor
  · intro same a key
    apply Option.ext
    intro c
    have member := congrArg (c ∈ ·) same
    simp only [mem_storageChanges own, mem_storageChanges own', eq_iff_iff] at member
    constructor
    · intro h
      obtain ⟨rfl, rfl⟩ := changeAt?_slot own h
      exact member.mp h
    · intro h
      obtain ⟨rfl, rfl⟩ := changeAt?_slot own' h
      exact member.mpr h
  · intro same
    have distinct : ∀ u : World, u.Own → u.storageChanges.Nodup := by
      intro u own
      refine (storageChanges_pairwise own).imp ?_
      rintro c _ before rfl
      exact before.asymm before
    refine List.Perm.eq_of_pairwise ?_ (storageChanges_pairwise own) (storageChanges_pairwise own')
      ((List.perm_ext_iff_of_nodup (distinct w own) (distinct v own')).mpr fun c => ?_)
    · intro c d _ _ before after
      exact absurd after before.asymm
    · rw [mem_storageChanges own, mem_storageChanges own', same]

end World

end EvmInspect.Ledger
