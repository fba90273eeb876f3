import EvmInspect.Ledger.State

/-!
# Writes, step by step

Some writes touch one account, some touch several, and some none at all. `Write.steps`
takes each of them apart into steps that touch a single account, drop one, or set transient
values. A property that each step keeps is kept by every write (`World.write_keeps`), so a
law about writes looks at the few kinds of step and never at lists of precompiles or of
access items.
-/

namespace EvmInspect.Ledger

/-- A change of one account. -/
inductive Touch where
  | setStorage (key : Word) (value : Bytes)
  | upsertStorage (key : Word) (value : Bytes)
  | setNonce (nonce : UInt64)
  | setCode (code : Bytes)
  | addDelta (amount : Int)
  | prepare
  /-- Warms slots; without any it is the address alone that is touched. -/
  | warmKeys (keys : List Word)

/-- The account after a change. -/
def Touch.change : Touch → Account → Account
  | setStorage key value, account => account.writeTracked key value
  | upsertStorage key value, account => account.writeUntracked key value
  | setNonce nonce, account => { account with nonce := some nonce }
  | setCode code, account => { account with code := some code }
  | addDelta amount, account => account.addDelta amount
  | prepare, account => { account with nonce := some 1, code := some [] }
  | warmKeys keys, account => keys.foldl Account.warmKey account

/-- One step of a write. -/
inductive Step where
  | touch (a : Address) (t : Touch)
  | erase (a : Address)
  | setTransient (a : Address) (key value : Word)
  | clearTransient

/-- The world after a step. -/
def World.step (w : World) : Step → World
  | .touch a t => w.touch a t.change
  | .erase a => { w with accounts := w.accounts.erase a }
  | .setTransient a key value => w.setTransient a key value
  | .clearTransient => { w with transient := .empty }

/-- The steps of a write. -/
def Write.steps : Write → List Step
  | setStorage a key value => [.touch a (.setStorage key value)]
  | upsertStorage a key value => [.touch a (.upsertStorage key value)]
  | setNonce a nonce => [.touch a (.setNonce nonce)]
  | addDelta a amount => [.touch a (.addDelta amount)]
  | saveCode a code => [.touch a (.setCode code)]
  | transfer sender receiver value =>
    if value = 0 then []
    else [.touch sender (.addDelta (-value.unsigned)), .touch receiver (.addDelta value.unsigned)]
  | prepareContract a => [.touch a .prepare]
  | deleteAccount a => [.erase a]
  | warmAddress a => [.touch a (.warmKeys [])]
  | warmSlot a key => [.touch a (.warmKeys [key])]
  | warmPrecompiles => precompiles.map fun a => .touch a (.warmKeys [])
  | accessList items =>
    items.map fun item => .touch item.address (.warmKeys (item.storageKeys.map Hash.toWord))
  | setTransient a key value => [.setTransient a key value]
  | clearTransient => [.clearTransient]

/-- Only one write has a step that writes a slot without a record. -/
theorem Write.eq_upsertStorage {change : Write} {a : Address} {key : Word} {value : Bytes}
    (h : Step.touch a (.upsertStorage key value) ∈ change.steps) :
    change = .upsertStorage a key value := by
  cases change with
  | upsertStorage b k v =>
    simp only [steps, List.mem_singleton, Step.touch.injEq, Touch.upsertStorage.injEq] at h
    obtain ⟨rfl, rfl, rfl⟩ := h
    rfl
  | transfer sender receiver value =>
    simp only [steps] at h
    split at h <;> simp at h
  | _ => simp [steps] at h

/-- Only one write has a step that drops an account. -/
theorem Write.eq_deleteAccount {change : Write} {a : Address} (h : Step.erase a ∈ change.steps) :
    change = .deleteAccount a := by
  cases change with
  | deleteAccount b =>
    simp only [steps, List.mem_singleton, Step.erase.injEq] at h
    rw [h]
  | transfer sender receiver value =>
    simp only [steps] at h
    split at h <;> simp at h
  | _ => simp [steps] at h

/-- What warming one slot keeps is kept by warming many. -/
theorem Touch.warmKeys_keeps {P : Account → Prop}
    (keeps : ∀ account key, P account → P (account.warmKey key)) (keys : List Word)
    {account : Account} (start : P account) : P ((warmKeys keys).change account) := by
  simp only [change]
  induction keys generalizing account with
  | nil => exact start
  | cons key rest ih => exact ih (keeps account key start)

/-- What warming one slot leaves the same is left the same by warming many. -/
theorem Touch.warmKeys_same {β : Type} {f : Account → β}
    (same : ∀ account key, f (account.warmKey key) = f account) (keys : List Word)
    (account : Account) : f ((warmKeys keys).change account) = f account :=
  warmKeys_keeps (P := fun now => f now = f account) (fun now key h => (same now key).trans h) keys
    rfl

/-- Warming slots leaves what they hold and what is recorded of them alone. -/
theorem Touch.warmKeys_slots (keys : List Word) (account : Account) :
    ((warmKeys keys).change account).storage = account.storage ∧
      ((warmKeys keys).change account).firstValues = account.firstValues :=
  ⟨warmKeys_same (fun _ _ => rfl) keys account, warmKeys_same (fun _ _ => rfl) keys account⟩

namespace World

theorem warmSlots_eq_step (w : World) (a : Address) (keys : List Hash) :
    w.warmSlots a keys = w.step (.touch a (.warmKeys (keys.map Hash.toWord))) := by
  unfold warmSlots step
  congr 1
  funext account
  simp only [Touch.change, List.foldl_map]

/-- A write is its steps, one after the other. -/
theorem write_eq_steps (w : World) (change : Write) :
    w.write change = change.steps.foldl step w := by
  cases change with
  | setStorage a key value => rfl
  | upsertStorage a key value => rfl
  | setNonce a nonce => rfl
  | addDelta a amount => rfl
  | saveCode a code => rfl
  | transfer sender receiver value =>
    simp only [write, transfer, Write.steps]
    split <;> rfl
  | prepareContract a => rfl
  | deleteAccount a => rfl
  | warmAddress a => rfl
  | warmSlot a key => rfl
  | warmPrecompiles =>
    simp only [write, Write.steps, List.foldl_map]
    rfl
  | accessList items =>
    simp only [write, applyAccessList, Write.steps, List.foldl_map, warmSlots_eq_step]
  | setTransient a key value => rfl
  | clearTransient => rfl

/-- What each step of a write keeps is kept by the write. -/
theorem write_keeps {P : World → Prop} {w : World} {change : Write}
    (keeps : ∀ {w} (s), s ∈ change.steps → P w → P (w.step s)) (start : P w) :
    P (w.write change) := by
  rw [write_eq_steps]
  generalize change.steps = steps at keeps
  induction steps generalizing w with
  | nil => exact start
  | cons s rest ih =>
    exact ih (keeps s List.mem_cons_self start) fun s mem => keeps s (List.mem_cons_of_mem _ mem)

end World

end EvmInspect.Ledger
