import EvmInspect.Proofs.Ledger.ChangeList

/-!
# What is reported of changes

The reports of a reachable ledger are exact: a slot is in the one exactly if it is on record and
holds something else than its record says, an account is in the other exactly if its delta is not
zero.

They are canonical as well. Accounts, and the records of each, may be visited in any order
(`World.Visits`): what is gathered on the way and then sorted is always the report
(`World.Visits.storageChanges`, `World.Visits.balanceChanges`). For no two changes have one place,
as no two accounts name one address, and of a list in strictly ascending order every arrangement is
sorted back into it.
-/

namespace EvmInspect.Ledger

open Rank

/-! ## Visits -/

/-- An account that is visited. -/
structure Visited where
  account : Account
  /-- The records of the account, in the order of the visit. -/
  records : List (Word × Option Bytes)

/-- The changed slots that are found in the visit of an account. -/
def Visited.storageChanges (v : Visited) : List StorageChange := v.account.changesAmong v.records

/-- The change of balance that is found in the visit of an account. -/
def Visited.balanceChange? (v : Visited) : Option BalanceChange := v.account.balanceChange?

namespace World

/-- Every account of a world is visited once, with each of its records once, in some order. -/
structure Visits (w : World) (visited : List Visited) : Prop where
  accounts : (visited.map Visited.account).Perm (w.accounts.toList.map Prod.snd)
  records : ∀ v ∈ visited, v.records.Perm v.account.firstValues.toList

variable {w : World}

theorem exists_visits (w : World) : ∃ visited, w.Visits visited := by
  refine ⟨w.accounts.toList.map fun e => ⟨e.2, e.2.firstValues.toList⟩, ?_, ?_⟩
  · rw [List.map_map]
    exact List.Perm.refl _
  · exact List.forall_mem_map.mpr fun e _ => List.Perm.refl _

/-- Other orders of a visit find the same slots. -/
theorem Visits.perm_storageChanges {visited : List Visited} (h : w.Visits visited) :
    (visited.flatMap Visited.storageChanges).Perm
      (w.accounts.toList.flatMap fun e => e.2.storageChanges) := by
  have each : ∀ v ∈ visited, v.storageChanges.Perm v.account.storageChanges :=
    fun v mem => (h.records v mem).filterMap _
  have all := h.accounts.flatMap_right Account.storageChanges
  rw [List.flatMap_map, List.flatMap_map] at all
  exact (List.Perm.flatMap_left visited each).trans all

theorem Visits.perm_balanceChanges {visited : List Visited} (h : w.Visits visited) :
    (visited.filterMap Visited.balanceChange?).Perm
      (w.accounts.toList.filterMap fun e => e.2.balanceChange?) := by
  have all := h.accounts.filterMap Account.balanceChange?
  rw [List.filterMap_map, List.filterMap_map] at all
  exact all

/-! ## The report of slots -/

/-- A slot is reported exactly if it is on record and holds something else. -/
theorem mem_storageChanges_iff (own : w.Own) {c : StorageChange} :
    c ∈ w.storageChanges ↔ ∃ account, w.account? c.address = some account ∧
      account.firstValues.get? c.key = some c.first ∧
      account.storage.get? c.key = some c.current ∧ c.first ≠ some c.current := by
  rw [mem_storageChanges own, changeAt?, Option.bind_eq_some_iff]
  refine exists_congr fun account => and_congr_right fun there => ?_
  have named := own _ account there
  obtain ⟨a, key, first, current⟩ := c
  unfold Account.changeAt?
  cases account.firstValues.get? key with
  | none => simp
  | some recorded =>
    cases account.storage.get? key with
    | none => simp
    | some value =>
      by_cases clean : recorded = some value
      · simp only [if_pos clean, Option.some.injEq]
        constructor
        · nofun
        · rintro ⟨rfl, rfl, changed⟩
          exact absurd clean changed
      · simp only [if_neg clean, Option.some.injEq, StorageChange.mk.injEq, named, true_and]
        constructor
        · rintro ⟨rfl, rfl⟩
          exact ⟨rfl, rfl, clean⟩
        · rintro ⟨rfl, rfl, _⟩
          exact ⟨rfl, rfl⟩

/-- No slot is reported twice. -/
theorem storageChanges_once (own : w.Own) :
    (w.storageChanges.map fun c => (c.address, c.key)).Nodup := by
  rw [List.Nodup, List.pairwise_map]
  refine (storageChanges_pairwise own).imp fun {c d} before same => ?_
  obtain ⟨address, key⟩ := Prod.mk.inj same
  rcases before with lower | ⟨_, lower⟩
  · rw [address] at lower
    exact Nat.lt_irrefl _ lower
  · rw [key] at lower
    exact Nat.lt_irrefl _ lower

/-- Whatever is visited first, sorting gives the report. -/
theorem Visits.storageChanges (own : w.Own) {visited : List Visited} (h : w.Visits visited) :
    (visited.flatMap Visited.storageChanges).mergeSort StorageChange.le = w.storageChanges := by
  rw [storageChanges_eq own]
  exact StorageChange.mergeSort_eq h.perm_storageChanges (found_pairwise own)

/-- A slot that is given its first value back is not reported. -/
theorem not_reported_of_restored {a : Address} {key : Word} {v : Bytes} {change : Account → Account}
    (own : (w.touch a change).Own)
    (recorded : (change (w.accountD a)).firstValues.get? key = some (some v))
    (holds : (change (w.accountD a)).storage.get? key = some v) :
    ∀ c ∈ (w.touch a change).storageChanges, ¬ (c.address = a ∧ c.key = key) := by
  rintro c reported ⟨rfl, rfl⟩
  obtain ⟨account, there, first, current, changed⟩ := (mem_storageChanges_iff own).mp reported
  rw [account?_touch, if_pos rfl] at there
  cases there
  rw [recorded] at first
  rw [holds] at current
  exact changed ((Option.some.inj first).symm.trans current)

/-! ## The report of balances -/

theorem mem_balanceChange?_iff {account : Account} {c : BalanceChange} :
    account.balanceChange? = some c ↔ account.delta ≠ 0 ∧
      c.address = account.address ∧ c.chainBalance = account.chainBalance ∧
        c.delta = account.delta := by
  obtain ⟨address, chainBalance, delta⟩ := c
  unfold Account.balanceChange?
  by_cases still : account.delta = 0
  · rw [if_pos still]
    exact iff_of_false nofun fun h => h.1 still
  · rw [if_neg still, Option.some.injEq, BalanceChange.mk.injEq]
    constructor
    · rintro ⟨rfl, rfl, rfl⟩
      exact ⟨still, rfl, rfl, rfl⟩
    · rintro ⟨_, rfl, rfl, rfl⟩
      exact ⟨rfl, rfl, rfl⟩

/-- The changes of balance are found in ascending order of their accounts. -/
theorem foundBalances_pairwise (own : w.Own) :
    (w.accounts.toList.filterMap fun e => e.2.balanceChange?).Pairwise BalanceChange.Before := by
  rw [List.pairwise_filterMap]
  have named : ∀ e ∈ w.accounts.toList, ∀ c, e.2.balanceChange? = some c → c.address = e.1 := by
    rintro ⟨a, account⟩ mem c found
    exact (mem_balanceChange?_iff.mp found).2.1.trans
      (own a account (KeyMap.get?_eq_some_iff.mpr mem))
  refine w.accounts.ordered.imp_of_mem ?_
  intro e e' mem mem' lower c found d found'
  rw [← named e mem c found, ← named e' mem' d found'] at lower
  exact lower

theorem balanceChanges_eq (own : w.Own) :
    w.balanceChanges = w.accounts.toList.filterMap fun e => e.2.balanceChange? :=
  BalanceChange.mergeSort_eq (List.Perm.refl _) (foundBalances_pairwise own)

theorem balanceChanges_pairwise (own : w.Own) :
    w.balanceChanges.Pairwise BalanceChange.Before := by
  rw [balanceChanges_eq own]
  exact foundBalances_pairwise own

/-- An account is reported exactly if its delta is not zero. -/
theorem mem_balanceChanges_iff (own : w.Own) {c : BalanceChange} :
    c ∈ w.balanceChanges ↔ ∃ account, w.account? c.address = some account ∧
      account.delta ≠ 0 ∧ c.chainBalance = account.chainBalance ∧ c.delta = account.delta := by
  rw [balanceChanges_eq own, List.mem_filterMap]
  constructor
  · rintro ⟨⟨a, account⟩, mem, found⟩
    have there : w.account? a = some account := KeyMap.get?_eq_some_iff.mpr mem
    obtain ⟨moved, address, same⟩ := mem_balanceChange?_iff.mp found
    refine ⟨account, ?_, moved, same⟩
    rw [address, own a account there, there]
  · rintro ⟨account, there, moved, same⟩
    exact ⟨(c.address, account), KeyMap.get?_eq_some_iff.mp there,
      mem_balanceChange?_iff.mpr ⟨moved, (own _ account there).symm, same⟩⟩

/-- Whatever is visited first, sorting gives the report. -/
theorem Visits.balanceChanges (own : w.Own) {visited : List Visited} (h : w.Visits visited) :
    (visited.filterMap Visited.balanceChange?).mergeSort BalanceChange.le = w.balanceChanges := by
  rw [balanceChanges_eq own]
  exact BalanceChange.mergeSort_eq h.perm_balanceChanges (foundBalances_pairwise own)

/-- An account whose deltas cancel is not reported. -/
theorem not_reported_of_cancelled (own : w.Own) {a : Address} {amount : Int}
    (cancels : (w.accountD a).delta + amount = 0) :
    ∀ c ∈ (w.write (.addDelta a amount)).balanceChanges, c.address ≠ a := by
  rintro c reported rfl
  obtain ⟨account, there, moved, _, _⟩ :=
    (mem_balanceChanges_iff (own.write (.addDelta c.address amount))).mp reported
  rw [write, account?_touch, if_pos rfl] at there
  cases there
  exact moved cancels

/-! ## The law -/

/-- The changed slots of a world are reported exactly, in order, and whatever is visited first. -/
structure ReportsSlots (w : World) : Prop where
  exact : ∀ c, c ∈ w.storageChanges ↔ ∃ account, w.account? c.address = some account ∧
    account.firstValues.get? c.key = some c.first ∧
    account.storage.get? c.key = some c.current ∧ c.first ≠ some c.current
  ascending : w.storageChanges.Pairwise StorageChange.Before
  once : (w.storageChanges.map fun c => (c.address, c.key)).Nodup
  anyOrder : ∀ visited, w.Visits visited →
    (visited.flatMap Visited.storageChanges).mergeSort StorageChange.le = w.storageChanges
  /-- A slot whose first value is written back, in either way, is not reported. -/
  restored : ∀ a key v, (w.accountD a).firstValues.get? key = some (some v) →
    ∀ change ∈ [Write.setStorage a key v, .upsertStorage a key v],
      ∀ c ∈ (w.write change).storageChanges, ¬ (c.address = a ∧ c.key = key)

/-- The accounts of a world whose balance moved are reported in the same way. -/
structure ReportsBalances (w : World) : Prop where
  exact : ∀ c, c ∈ w.balanceChanges ↔ ∃ account, w.account? c.address = some account ∧
    account.delta ≠ 0 ∧ c.chainBalance = account.chainBalance ∧ c.delta = account.delta
  ascending : w.balanceChanges.Pairwise BalanceChange.Before
  anyOrder : ∀ visited, w.Visits visited →
    (visited.filterMap Visited.balanceChange?).mergeSort BalanceChange.le = w.balanceChanges
  /-- An account whose deltas cancel is not reported. -/
  cancelled : ∀ a amount, (w.accountD a).delta + amount = 0 →
    ∀ c ∈ (w.write (.addDelta a amount)).balanceChanges, c.address ≠ a

theorem Own.reportsSlots (own : w.Own) : w.ReportsSlots where
  exact _ := mem_storageChanges_iff own
  ascending := storageChanges_pairwise own
  once := storageChanges_once own
  anyOrder _ visits := visits.storageChanges own
  restored a key v recorded := by
    refine List.forall_mem_cons.mpr ⟨?_, List.forall_mem_singleton.mpr ?_⟩
    · refine not_reported_of_restored (own.write (.setStorage a key v)) ?_
        (KeyMap.get?_insert_self _ key v)
      rw [Account.firstValues_writeTracked_self, recorded]
      rfl
    · exact not_reported_of_restored (own.write (.upsertStorage a key v)) recorded
        (KeyMap.get?_insert_self _ key v)

theorem Own.reportsBalances (own : w.Own) : w.ReportsBalances where
  exact _ := mem_balanceChanges_iff own
  ascending := balanceChanges_pairwise own
  anyOrder _ visits := visits.balanceChanges own
  cancelled _ _ cancels := not_reported_of_cancelled own cancels

end World

namespace State

/-- In a reachable ledger every account, live or captured, stands under the address that it was
made for, and what is reported of the live world is exact and canonical. -/
theorem reports_exact {l : State} (reach : Reachable l) :
    Throughout World.Own l ∧ l.world.ReportsSlots ∧ l.world.ReportsBalances ∧
      ∃ visited, l.world.Visits visited :=
  ⟨reach.own, reach.own.1.reportsSlots, reach.own.1.reportsBalances, l.world.exists_visits⟩

/-- An account is dropped in a frame and made anew when the frame is taken back. It stands under
its address, and its slot is reported under it. -/
theorem recreated_account_is_reported :
    let source : Source (StateM Unit) := Chain.source {}
    let a := Address.ofNat 2
    let ops := [.write (.setStorage a 7 [1]), .write (.addDelta (Address.ofNat 1) 5), .takeSnapshot,
      .write (.deleteAccount a), .revert 1]
    let l := after source ops .empty ()
    Reachable l ∧ (l.account? a).map Account.address = some a ∧
      ⟨a, 7, none, [1]⟩ ∈ l.world.storageChanges := by
  intro source a ops l
  have reach : Reachable l := ⟨Unit, source, ops, (), rfl⟩
  obtain ⟨own, slots, _⟩ := reports_exact reach
  have there : l.account? a = some ((l.account? a).getD .empty) := by decide
  refine ⟨reach, ?_, (slots.exact ⟨a, 7, none, [1]⟩).mpr ⟨_, there, ?_, ?_, ?_⟩⟩
  · rw [there]
    exact congrArg some (own.1 a _ there)
  · decide
  · decide
  · decide

end State

end EvmInspect.Ledger
