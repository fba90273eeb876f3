import EvmInspect.Proofs.Ledger.ChangeList
import EvmInspect.Proofs.Ledger.Throughout

/-!
# First values are the chain's

As long as no slot is written without a record, a slot that holds a value has a record, and a
record that has a value has the chain's: a tracked write of a slot that holds nothing records
that, one of a slot that holds something finds a record already there, and all other values
come from the source (`Account.Truthful`). Merging on a revert keeps both halves.

So the list of changes compares each value with the chain's wherever it knows this, and lists
all others (`World.TellsChanges`). What it does not tell is that a slot whose record has no
value holds something else than the chain does: such a slot is always listed.
-/

namespace EvmInspect.Ledger

open State (Operation AccountLaw Throughout)

/-- What is held of a slot is recorded, and what is recorded of a slot is true of the chain. -/
structure Account.Truthful (slots : Word → Bytes) (account : Account) : Prop where
  recorded : ∀ {key value}, account.storage.get? key = some value →
    ∃ first, account.firstValues.get? key = some first
  truth : ∀ {key v}, account.firstValues.get? key = some (some v) → v = slots key

namespace Account.Truthful

variable {slots : Word → Bytes} {account : Account} {key : Word}

/-- A slot without a record holds nothing, so that is what its record will say. -/
theorem writeTracked (h : account.Truthful slots) (key : Word) (value : Bytes) :
    (account.writeTracked key value).Truthful slots where
  recorded {k v} held := by
    by_cases hk : key = k
    · subst hk
      rw [firstValues_writeTracked_self]
      split
      next recorded => exact Option.isSome_iff_exists.mp recorded
      next => exact ⟨_, rfl⟩
    · rw [firstValues_writeTracked_of_ne _ _ hk]
      simp only [Account.writeTracked, KeyMap.get?_insert_of_ne _ _ hk] at held
      exact h.recorded held
  truth {k v} first := by
    by_cases hk : key = k
    · subst hk
      rw [firstValues_writeTracked_self] at first
      split at first
      next => exact h.truth first
      next unrecorded =>
        obtain ⟨_, there⟩ := h.recorded (Option.some.inj first)
        rw [there] at unrecorded
        exact absurd rfl unrecorded
    · rw [firstValues_writeTracked_of_ne _ _ hk] at first
      exact h.truth first

/-- A fetched value is only recorded where no value was. -/
theorem recordFetched (h : account.Truthful slots) (key : Word) :
    (account.recordFetched key (slots key)).Truthful slots where
  recorded {k v} held := by
    unfold Account.recordFetched at held ⊢
    by_cases hk : key = k
    · subst hk
      exact ⟨_, KeyMap.get?_insert_self _ _ _⟩
    · simp only [KeyMap.get?_insert_of_ne _ _ hk] at held ⊢
      exact h.recorded held
  truth {k v} first := by
    unfold Account.recordFetched at first
    by_cases hk : key = k
    · subst hk
      simp only [KeyMap.get?_insert_self, Option.some.injEq] at first
      cases before : account.firstValues.get? key with
      | none =>
        rw [before] at first
        exact (Option.some.inj first).symm
      | some old =>
        rw [before] at first
        cases old with
        | none => exact (Option.some.inj first).symm
        | some u =>
          obtain rfl := Option.some.inj first
          exact h.truth before
    · simp only [KeyMap.get?_insert_of_ne _ _ hk] at first
      exact h.truth first

theorem warmKeys (h : account.Truthful slots) (keys : List Word) :
    ((Touch.warmKeys keys).change account).Truthful slots := by
  obtain ⟨storage, firstValues⟩ := Touch.warmKeys_slots keys account
  constructor
  · rw [storage, firstValues]
    exact h.recorded
  · rw [firstValues]
    exact h.truth

/-- What is held again was recorded when it was captured, and no record is lost. -/
theorem restore {live : Account} (h : account.Truthful slots) (now : live.Truthful slots) :
    (account.restore live).Truthful slots where
  recorded {key value} held := by
    have held : account.storage.get? key = some value := held
    obtain ⟨first, before⟩ := h.recorded held
    rw [firstValues_restore, before]
    cases live.firstValues.get? key <;> exact ⟨_, rfl⟩
  truth {key v} first := by
    rw [firstValues_restore] at first
    cases before : account.firstValues.get? key with
    | none =>
      rw [before] at first
      exact now.truth first
    | some old =>
      cases after : live.firstValues.get? key with
      | none =>
        rw [before, after] at first
        exact h.truth (before.trans first)
      | some new =>
        rw [before, after] at first
        cases new with
        | none => exact h.truth (before.trans first)
        | some u =>
          obtain rfl := Option.some.inj (Option.some.inj first)
          exact now.truth after

end Account.Truthful

/-- The operation writes no slot without a record. -/
def Records (op : Operation) : Prop := ∀ a key value, op ≠ .write (.upsertStorage a key value)

/-- Whatever is answered about a slot is what it holds on the chain. -/
def SlotsServed (slots : Address → Word → Bytes) (replies : Replies) : Prop :=
  ∀ a key v, replies (.slot a key) (.ok v) → v = slots a key

/-- Truthfulness is a law of accounts while every write is recorded. -/
theorem truthful_law {slots : Address → Word → Bytes} {replies : Replies}
    (served : SlotsServed slots replies) :
    AccountLaw replies Records fun a account => account.Truthful (slots a) where
  empty _ := ⟨nofun, nofun⟩
  balance _ h := ⟨h.recorded, h.truth⟩
  code _ h := ⟨h.recorded, h.truth⟩
  nonce _ h := ⟨h.recorded, h.truth⟩
  fetched {a account key v} h _ reply := by
    obtain rfl := served a key v reply
    exact h.recordFetched key
  touch {a account change} t h mem records := by
    cases t with
    | setStorage key value => exact h.writeTracked key value
    | upsertStorage key value =>
      exact absurd (congrArg Operation.write (Write.eq_upsertStorage mem)) (records a key value)
    | warmKeys keys => exact h.warmKeys keys
    | _ => exact ⟨h.recorded, h.truth⟩
  merge h now := h.restore now

/-- What is recorded in a world, and what its list of changes tells of the chain's slots. -/
structure World.TellsChanges (slots : Address → Word → Bytes) (w : World) : Prop where
  recorded : ∀ a account key value, w.account? a = some account →
    account.storage.get? key = some value → ∃ first, account.firstValues.get? key = some first
  truth : ∀ a account key v, w.account? a = some account →
    account.firstValues.get? key = some (some v) → v = slots a key
  /-- A held slot is left out exactly if its first value is known and it holds the chain's. -/
  omitted_iff : ∀ a account key value, w.account? a = some account →
    account.storage.get? key = some value →
    ((∀ c ∈ w.storageChanges, ¬ (c.address = a ∧ c.key = key)) ↔
      (∃ v, account.firstValues.get? key = some (some v)) ∧ value = slots a key)
  /-- A slot that holds something else than the chain does is listed. -/
  listed : ∀ a account key value, w.account? a = some account →
    account.storage.get? key = some value → value ≠ slots a key →
    ∃ c ∈ w.storageChanges, c.address = a ∧ c.key = key ∧ c.current = value
  /-- A first value that is listed is the chain's. -/
  shown : ∀ c ∈ w.storageChanges, ∀ v, c.first = some v → v = slots c.address c.key

section TellsChanges

variable {slots : Address → Word → Bytes} {w : World}

/-- What is listed of a slot that holds a value. -/
theorem World.changeAt?_eq (own : w.Own) {a : Address} {account : Account} {key : Word}
    {value : Bytes} {first : Option Bytes} (there : w.account? a = some account)
    (held : account.storage.get? key = some value)
    (recorded : account.firstValues.get? key = some first) :
    w.changeAt? a key = if first = some value then none else some ⟨a, key, first, value⟩ := by
  simp only [changeAt?, there, Option.bind_some, Account.changeAt?, recorded, held,
    own a account there]

theorem World.Every.truthful (h : w.Every fun a account => account.Truthful (slots a))
    {a : Address} {account : Account} (there : w.account? a = some account) :
    account.Truthful (slots a) := by
  have obeys := h a
  rwa [accountD, there] at obeys

theorem World.Every.tellsChanges (h : w.Every fun a account => account.Truthful (slots a))
    (own : w.Own) : w.TellsChanges slots where
  recorded a account key value there held := (h.truthful there).recorded held
  truth a account key v there first := (h.truthful there).truth first
  omitted_iff a account key value there held := by
    obtain ⟨first, recorded⟩ := (h.truthful there).recorded held
    rw [← changeAt?_eq_none_iff own, changeAt?_eq own there held recorded, recorded]
    constructor
    · intro unlisted
      have clean : first = some value := by
        by_contra changed
        rw [if_neg changed] at unlisted
        cases unlisted
      subst clean
      exact ⟨⟨value, rfl⟩, (h.truthful there).truth recorded⟩
    · rintro ⟨⟨v, known⟩, rfl⟩
      obtain rfl := Option.some.inj known
      rw [(h.truthful there).truth recorded, if_pos rfl]
  listed a account key value there held differs := by
    obtain ⟨first, recorded⟩ := (h.truthful there).recorded held
    have changed : first ≠ some value := by
      rintro rfl
      exact differs ((h.truthful there).truth recorded)
    refine ⟨⟨a, key, first, value⟩, (mem_storageChanges own).mpr ?_, rfl, rfl, rfl⟩
    rw [changeAt?_eq own there held recorded, if_neg changed]
  shown c listed v known := by
    obtain ⟨account, there, shown⟩ :=
      Option.bind_eq_some_iff.mp ((mem_storageChanges own).mp listed)
    have recorded := Account.changeAt?_first shown
    rw [known] at recorded
    exact (h.truthful there).truth recorded

end TellsChanges

/-- After every run over a source that answers with the chain's slots, and in which no slot is
written without a record, the live world and each snapshot tell the changes from the chain. -/
theorem run_tells_changes (slots : Address → Word → Bytes) {σ : Type} (source : Source (StateM σ))
    (served : SlotsServed slots source.replies) (ops : List Operation)
    (records : ∀ op ∈ ops, Records op) (s : σ) :
    Throughout (World.TellsChanges slots) (State.after source ops .empty s) := by
  have law := truthful_law served
  have running := State.runs_run source.gives_replies ops .empty s
  obtain ⟨live, captured⟩ := running.keeps law.invariant records law.throughout_empty
  obtain ⟨own, capturedOwn⟩ := State.Reachable.own ⟨σ, source, ops, s, rfl⟩
  exact ⟨live.tellsChanges own,
    fun snapshot mem => (captured snapshot mem).tellsChanges (capturedOwn snapshot mem)⟩

/-- A slot written blindly, taken back and fetched, and written again after its account was
dropped; another one written blindly and kept. -/
theorem blind_writes_tell_changes :
    let source : Source (StateM Unit) := Chain.source {}
    let slots := fun (_ : Address) (_ : Word) => (0 : Word).toBytes
    let a := Address.ofNat 1
    let ops := [.write (.setStorage a 1 [5]), .takeSnapshot, .write (.setStorage a 0 [1]),
      .revert 1, .read (.slot a 0), .takeSnapshot, .write (.deleteAccount a),
      .write (.setStorage a 0 [2])]
    SlotsServed slots source.replies ∧ (∀ op ∈ ops, Records op) ∧
      Throughout (World.TellsChanges slots) (State.after source ops .empty ()) := by
  intro source slots a ops
  have served : SlotsServed slots source.replies := by
    rintro b key v ⟨_, reply⟩
    exact (Except.ok.inj reply).symm
  have records : ∀ op ∈ ops, Records op := by
    intro op mem b key value upsert
    subst upsert
    simp [ops] at mem
  exact ⟨served, records, run_tells_changes slots source served ops records ()⟩

end EvmInspect.Ledger
