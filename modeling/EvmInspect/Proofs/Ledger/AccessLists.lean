import EvmInspect.Proofs.Ledger.AddressWarmth
import EvmInspect.Proofs.Ledger.SlotWarmth

/-!
# Access lists are united

Applying an access list adds what it lists to the warm addresses and slots and does nothing else
(`World.Warms`): an account that is there keeps all that is known of it, and one that is made for a
listed address is empty but for its warm slots. An item may come again, with the same keys or with
others, for an account that is there already is added to.

The effect is described by what is listed, and a world that is as described is the only one
(`World.Warms.unique`). So nothing else about the lists can matter: neither their order, nor how
often something stands in them, nor in how many operations they are applied (`access_lists_unite`).
-/

namespace EvmInspect

/-- The word of a hash is the number that its bytes write. -/
theorem Hash.toNat_toWord (k : Hash) : k.toWord.toNat = BigEndian.value k.bytes := by
  rw [← Word.value_toBytes, toWord, Word.toBytes_ofBytes k.length_eq]

namespace Ledger

/-! ## What is listed -/

/-- An item is for the address. -/
def Lists (items : List AccessItem) (a : Address) : Prop := ∃ item ∈ items, item.address = a

/-- An item for the address has a key that writes the number of the slot. -/
def ListsSlot (items : List AccessItem) (a : Address) (key : Word) : Prop :=
  ∃ item ∈ items, item.address = a ∧ ∃ k ∈ item.storageKeys, k.toWord = key

/-- The same addresses are listed, and the same slots. -/
structure ListsAlike (items items' : List AccessItem) : Prop where
  addresses : ∀ a, Lists items a ↔ Lists items' a
  slots : ∀ a key, ListsSlot items a key ↔ ListsSlot items' a key

section Listed

variable {items items' : List AccessItem} {a : Address} {key : Word}

theorem lists_append : Lists (items ++ items') a ↔ Lists items a ∨ Lists items' a := by
  simp only [Lists, List.mem_append, or_and_right, exists_or]

theorem listsSlot_append :
    ListsSlot (items ++ items') a key ↔ ListsSlot items a key ∨ ListsSlot items' a key := by
  simp only [ListsSlot, List.mem_append, or_and_right, exists_or]

theorem lists_singleton {item : AccessItem} : Lists [item] a ↔ item.address = a := by
  simp only [Lists, List.mem_singleton, exists_eq_left]

theorem listsSlot_singleton {item : AccessItem} :
    ListsSlot [item] a key ↔ item.address = a ∧ ∃ k ∈ item.storageKeys, k.toWord = key := by
  simp only [ListsSlot, List.mem_singleton, exists_eq_left]

/-- Lists of the same items list the same, in any order and as often as they like. -/
theorem ListsAlike.of_mem_iff (same : ∀ item, item ∈ items ↔ item ∈ items') :
    ListsAlike items items' where
  addresses a := by simp only [Lists, same]
  slots a key := by simp only [ListsSlot, same]

end Listed

/-! ## The effect on accounts -/

namespace Account

/-- What is known of an account besides which of its slots are warm. -/
def besidesWarmth (account : Account) : Account := { account with warmKeys := .empty }

variable {account : Account} {key : Word}

theorem besidesWarmth_warmKeys (keys : List Word) (account : Account) :
    ((Touch.warmKeys keys).change account).besidesWarmth = account.besidesWarmth :=
  Touch.warmKeys_same (fun _ _ => rfl) keys account

theorem contains_warmKeys_iff {keys : List Word} :
    ((Touch.warmKeys keys).change account).warmKeys.contains key = true ↔
      account.warmKeys.contains key = true ∨ key ∈ keys := by
  simp only [Touch.change]
  induction keys generalizing account with
  | nil => simp only [List.foldl_nil, List.not_mem_nil, or_false]
  | cons first rest ih =>
    rw [List.foldl_cons, ih, warmKey, KeySet.contains_add, Bool.or_eq_true, decide_eq_true_eq,
      Rank.rank_eq_iff, List.mem_cons, @eq_comm _ first key]
    exact or_assoc.trans or_left_comm

/-- An account is what is known of it and which of its slots are warm. -/
theorem eq_of_besidesWarmth {account' : Account}
    (rest : account.besidesWarmth = account'.besidesWarmth)
    (warm : ∀ key, account.warmKeys.contains key = account'.warmKeys.contains key) :
    account = account' := by
  have keys := KeySet.ext_contains warm
  cases account
  cases account'
  simp only [besidesWarmth, mk.injEq] at rest
  simp only at keys
  simp only [rest, keys]

end Account

/-! ## The effect on worlds -/

namespace World

/-- What a list adds to a world: warm addresses and warm slots, and an account for each address
that has none. All else stays. -/
structure Warms (items : List AccessItem) (w w' : World) : Prop where
  address : ∀ a, w'.isWarm a = true ↔ w.isWarm a = true ∨ Lists items a
  slot : ∀ a key, w'.isSlotWarm a key = true ↔ w.isSlotWarm a key = true ∨ ListsSlot items a key
  entry : ∀ a, (w'.account? a).isSome ↔ (w.account? a).isSome ∨ Lists items a
  rest : ∀ a, (w'.accountD a).besidesWarmth = (w.accountD a).besidesWarmth
  transient : w'.transient = w.transient

variable {w u v : World} {xs ys : List AccessItem}

theorem Warms.refl (w : World) : Warms [] w w where
  address _ := (or_iff_left fun ⟨_, mem, _⟩ => List.not_mem_nil mem).symm
  slot _ _ := (or_iff_left fun ⟨_, mem, _⟩ => List.not_mem_nil mem).symm
  entry _ := (or_iff_left fun ⟨_, mem, _⟩ => List.not_mem_nil mem).symm
  rest _ := rfl
  transient := rfl

/-- One list after the other adds what both together list. -/
theorem Warms.trans (first : Warms xs w u) (second : Warms ys u v) : Warms (xs ++ ys) w v where
  address a := by rw [second.address, first.address, lists_append, or_assoc]
  slot a key := by rw [second.slot, first.slot, listsSlot_append, or_assoc]
  entry a := by rw [second.entry, first.entry, lists_append, or_assoc]
  rest a := (second.rest a).trans (first.rest a)
  transient := second.transient.trans first.transient

theorem warms_warmSlots (w : World) (item : AccessItem) :
    Warms [item] w (w.warmSlots item.address item.storageKeys) := by
  rw [warmSlots_eq_step, step]
  refine ⟨fun a => ?address, fun a key => ?slot, fun a => ?entry, fun a => ?rest, rfl⟩
  case address => rw [isWarm_touch, lists_singleton]
  case slot =>
    rw [isSlotWarm_eq, isSlotWarm_eq, accountD_touch, listsSlot_singleton]
    split
    next same =>
      rw [Account.contains_warmKeys_iff, List.mem_map, same, and_iff_right rfl]
    next other => exact (or_iff_left fun listed => other listed.1).symm
  case entry =>
    rw [account?_touch, lists_singleton]
    split
    next same => exact iff_of_true rfl (.inr same)
    next other => exact (or_iff_left other).symm
  case rest =>
    rw [accountD_touch]
    split
    next same => rw [Account.besidesWarmth_warmKeys, same]
    next => rfl

/-- Applying a list adds what it lists, item by item. -/
theorem warms_applyAccessList (w : World) (items : List AccessItem) :
    Warms items w (w.applyAccessList items) := by
  induction items generalizing w with
  | nil => exact .refl w
  | cons item rest ih => exact (warms_warmSlots w item).trans (ih _)

/-- A world is told by its warm addresses, its accounts with their warm slots, and its transient
values. -/
theorem eq_of_accountD (warm : ∀ a, u.isWarm a = v.isWarm a)
    (entry : ∀ a, (u.account? a).isSome = (v.account? a).isSome)
    (account : ∀ a, u.accountD a = v.accountD a) (transient : u.transient = v.transient) :
    u = v := by
  have addresses := KeySet.ext_contains warm
  have accounts : u.accounts = v.accounts := by
    refine KeyMap.ext_get? fun a => ?_
    have there := entry a
    have known := account a
    unfold accountD at known
    change u.account? a = v.account? a
    cases inU : u.account? a <;> cases inV : v.account? a <;> rw [inU, inV] at there known
    · cases there
    · cases there
    · exact congrArg some known
  cases u
  cases v
  simp only at addresses accounts transient
  rw [addresses, accounts, transient]

/-- What is listed alike leads to one world. -/
theorem Warms.unique (alike : ListsAlike xs ys) (first : Warms xs w u) (second : Warms ys w v) :
    u = v := by
  refine eq_of_accountD (fun a => ?_) (fun a => ?_) (fun a => ?_) ?_
  · rw [Bool.eq_iff_iff, first.address, second.address, alike.addresses]
  · rw [Bool.eq_iff_iff, first.entry, second.entry, alike.addresses]
  · refine Account.eq_of_besidesWarmth ((first.rest a).trans (second.rest a).symm) fun key => ?_
    rw [← isSlotWarm_eq, ← isSlotWarm_eq, Bool.eq_iff_iff, first.slot, second.slot, alike.slots]
  · exact first.transient.trans second.transient.symm

theorem applyAccessList_congr (w : World) (alike : ListsAlike xs ys) :
    w.applyAccessList xs = w.applyAccessList ys :=
  (warms_applyAccessList w xs).unique alike (warms_applyAccessList w ys)

end World

namespace State

/-- Lists applied one after the other. -/
def announcing (calls : List (List AccessItem)) : List Operation :=
  calls.map fun items => .write (.accessList items)

/-- What applying lists does to a ledger: the live world gets what they list, and all else stays
as it is. -/
structure Announced (items : List AccessItem) (l l' : State) : Prop where
  world : World.Warms items l.world l'.world
  snapshots : l'.snapshots = l.snapshots
  nextId : l'.nextId = l.nextId
  blockHashes : l'.blockHashes = l.blockHashes

/-- The ledger with a list applied. -/
def announce (l : State) (items : List AccessItem) : State :=
  { l with world := l.world.applyAccessList items }

theorem announced_announce (l : State) (items : List AccessItem) :
    Announced items l (l.announce items) where
  world := World.warms_applyAccessList l.world items
  snapshots := rfl
  nextId := rfl
  blockHashes := rfl

theorem announce_congr (l : State) {xs ys : List AccessItem} (alike : ListsAlike xs ys) :
    l.announce xs = l.announce ys := by
  rw [announce, announce, World.applyAccessList_congr l.world alike]

theorem announce_append (l : State) (xs ys : List AccessItem) :
    (l.announce xs).announce ys = l.announce (xs ++ ys) := by
  simp only [announce, World.applyAccessList, List.foldl_append]

/-- Lists are applied as one list is, none of them fails, and the source is left alone. -/
theorem run_announcing {σ : Type} (source : Source (StateM σ)) (calls : List (List AccessItem))
    (l : State) (s : σ) :
    (run source (announcing calls) l).run s =
      ((calls.map fun _ => .ok .done, l.announce calls.flatten), s) := by
  induction calls generalizing l with
  | nil => rfl
  | cons items rest ih =>
    have later := ih (l.announce items)
    rw [announce_append] at later
    have applied : (l.perform source (.write (.accessList items))).run s =
        pure ((.ok .done, l.announce items), s) := rfl
    rw [show announcing (items :: rest) = .write (.accessList items) :: announcing rest from rfl]
    simp only [run, StateT.run_bind, applied, pure_bind, later]
    rfl

variable {σ : Type} (source : Source (StateM σ)) (l : State) (s : σ)

theorem after_announcing (calls : List (List AccessItem)) :
    after source (announcing calls) l s = l.announce calls.flatten := by
  rw [after, run_announcing]

theorem after_accessList (items : List AccessItem) :
    after source [.write (.accessList items)] l s = l.announce items := by
  have applied := after_announcing source l s [items]
  rwa [List.flatten_singleton] at applied

/-- Applying a list warms the addresses and the slots that it lists, and no others. It asks the
source nothing, and all that changes besides is that each listed address has an account. Any lists
with the same items lead to the same ledger, in whatever order and however often the items come;
and so do items that are parted in another way but list the same. -/
theorem access_lists_unite (items : List AccessItem) :
    let l' := after source [.write (.accessList items)] l s
    (run source.recording [.write (.accessList items)] l).run (s, []) =
        (([.ok .done], l'), (s, [])) ∧
      Announced items l l' ∧
      (∀ k : Hash, k.toWord.toNat = BigEndian.value k.bytes) ∧
      (∀ k k' : Hash, k.toWord = k'.toWord → k = k') ∧
      (∀ calls : List (List AccessItem), ListsAlike calls.flatten items →
        (run source.recording (announcing calls) l).run (s, []) =
          ((calls.map fun _ => .ok .done, l'), (s, []))) ∧
      (∀ calls : List (List AccessItem), (∀ item, item ∈ calls.flatten ↔ item ∈ items) →
        after source (announcing calls) l s = l') ∧
      after source [.write (.accessList items)] l' s = l' := by
  intro l'
  have applied : l' = l.announce items := after_accessList source l s items
  rw [applied]
  refine ⟨?done, announced_announce l items, Hash.toNat_toWord, fun _ _ => Hash.toWord_inj,
    fun calls alike => ?alike, fun calls same => ?same, ?again⟩
  case done =>
    have done := run_announcing source.recording [items] l (s, [])
    rwa [List.flatten_singleton] at done
  case alike => rw [run_announcing, announce_congr l alike]
  case same => rw [after_announcing, announce_congr l (.of_mem_iff same)]
  case again =>
    rw [after_accessList, announce_append]
    exact announce_congr l (.of_mem_iff fun item => by rw [List.mem_append, or_self])

/-- An address comes twice and a key twice; the other order, in two lists, leads to the same. -/
theorem repeated_items_unite :
    let source : Source (StateM Unit) := Chain.source {}
    let a := Address.ofNat 1
    let b := Address.ofNat 2
    let items : List AccessItem :=
      [⟨a, [.ofWord 7, .ofWord 7]⟩, ⟨b, []⟩, ⟨a, [.ofWord 8]⟩, ⟨b, []⟩]
    let calls : List (List AccessItem) :=
      [[⟨a, [.ofWord 8]⟩, ⟨b, []⟩], [⟨a, [.ofWord 7, .ofWord 7]⟩]]
    let held := after source [.read (.balance a), .write (.setStorage b 7 [1])] .empty ()
    let listed := after source [.write (.accessList items)] held ()
    after source (announcing calls) held () = listed ∧
      listed.world.isSlotWarm a 7 = true ∧ listed.world.isSlotWarm a 8 = true ∧
      listed.world.isSlotWarm b 7 = false ∧ listed.held? (.slot b 7) = some [1] := by
  intro source a b items calls held listed
  obtain ⟨_, _, _, _, _, same, _⟩ := access_lists_unite source held () items
  refine ⟨same calls fun item => ?_, by decide, by decide, by decide, by decide⟩
  simp only [calls, items, List.flatten_cons, List.flatten_nil, List.append_nil, List.cons_append,
    List.nil_append, List.mem_cons, List.not_mem_nil, or_false]
  tauto

end State

end Ledger

end EvmInspect
