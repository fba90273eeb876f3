import EvmInspect.Proofs.Ledger.History
import EvmInspect.Proofs.Ledger.Numbering
import EvmInspect.Proofs.Ledger.Steps

/-!
# How often the source is asked

An item of the chain is asked for only while the ledger does not hold it, and is held once it
is answered. Nothing else than dropping its account, or going back to a snapshot without it,
makes the ledger let go of it (`Forgets`, `Performs.stays_held`). So between two answers about one
item there is such an operation, and a block hash is answered once in a run (`FetchesOnce`).

A balance is held for longer than the rest of an account: going back keeps it as long as the
snapshot has the account at all (`World.Lacks`).
-/

namespace EvmInspect.Ledger

/-- The address that a question is about. -/
def Query.address? : Query → Option Address
  | balance a | code a | nonce a | slot a _ => some a
  | blockHash _ => none

/-- The answer that an account holds itself, of a question about its address. -/
def Account.held? (account : Account) : (q : Query) → Option q.Answer
  | .balance _ => account.chainBalance
  | .code _ => account.code
  | .nonce _ => account.nonce
  | .slot _ key => account.storage.get? key
  | .blockHash _ => none

/-- Going back to the world lets go of an item. A balance that is held is lost only with its
account. -/
def World.Lacks (w : World) : Query → Prop
  | .balance a => w.account? a = none
  | .code a => (w.account? a).bind Account.code = none
  | .nonce a => (w.account? a).bind Account.nonce = none
  | .slot a key => ((w.account? a).bind fun account => account.storage.get? key) = none
  | .blockHash _ => False

/-! ## What an account holds -/

section Account

variable {account : Account} {q : Query}

theorem Touch.stays_held (t : Touch) (h : account.held? q ≠ none) :
    (t.change account).held? q ≠ none := by
  cases t with
  | setStorage key value =>
    cases q with
    | slot a k => exact KeyMap.get?_insert_ne_none h
    | _ => exact h
  | upsertStorage key value =>
    cases q with
    | slot a k => exact KeyMap.get?_insert_ne_none h
    | _ => exact h
  | setNonce nonce =>
    cases q with
    | nonce a => exact Option.some_ne_none nonce
    | _ => exact h
  | setCode code =>
    cases q with
    | code a => exact Option.some_ne_none code
    | _ => exact h
  | addDelta amount => cases q <;> exact h
  | prepare =>
    cases q with
    | nonce a => exact Option.some_ne_none _
    | code a => exact Option.some_ne_none _
    | _ => exact h
  | warmKeys keys =>
    refine warmKeys_keeps (P := fun account => account.held? q ≠ none) (fun _ _ h => ?_) keys h
    cases q <;> exact h

end Account

namespace State

variable {replies : Replies} {l l' : State} {q : Query}

theorem held?_eq {a : Address} (about : q.address? = some a) :
    l.held? q = (l.world.accountD a).held? q := by
  cases q with
  | balance b =>
    cases about
    exact l.held?_balance a
  | code b =>
    cases about
    exact l.held?_code a
  | nonce b =>
    cases about
    exact l.held?_nonce a
  | slot b key =>
    cases about
    exact l.held?_slot a key
  | blockHash number => cases about

/-- What the accounts hold is held by the ledger, and that is all but the block hashes. -/
theorem held_of_accounts (h : l.held? q ≠ none)
    (accounts : ∀ a, q.address? = some a → (l.world.accountD a).held? q ≠ none →
      (l'.world.accountD a).held? q ≠ none)
    (hashes : ∀ number, l.blockHashes.get? number ≠ none → l'.blockHashes.get? number ≠ none) :
    l'.held? q ≠ none := by
  cases about : q.address? with
  | some a =>
    rw [held?_eq about] at h ⊢
    exact accounts a about h
  | none =>
    cases q with
    | blockHash number => exact hashes number h
    | _ => cases about

/-- An account that is changed so that it lets go of nothing. -/
theorem held_touch {w : World} {a b : Address} {f : Account → Account}
    (keeps : (w.accountD b).held? q ≠ none → (f (w.accountD b)).held? q ≠ none)
    (h : (w.accountD a).held? q ≠ none) : ((w.touch b f).accountD a).held? q ≠ none := by
  rw [World.accountD_touch]
  split
  next same =>
    subst same
    exact keeps h
  next => exact h

/-- Keeping an answer lets go of nothing. -/
theorem held_keep (p : Query) (v : p.Answer) (h : l.held? q ≠ none) :
    (l.keep p v).held? q ≠ none := by
  cases p with
  | balance b =>
    refine held_of_accounts h (fun a _ => held_touch fun held => ?_) fun _ held => held
    cases q with
    | balance _ => exact Option.some_ne_none v
    | _ => exact held
  | code b =>
    refine held_of_accounts h (fun a _ => held_touch fun held => ?_) fun _ held => held
    exact Touch.stays_held (.setCode v) held
  | nonce b =>
    refine held_of_accounts h (fun a _ => held_touch fun held => ?_) fun _ held => held
    exact Touch.stays_held (.setNonce v) held
  | slot b key =>
    refine held_of_accounts h (fun a _ => held_touch fun held => ?_) fun _ held => held
    cases q with
    | slot _ k => exact KeyMap.get?_insert_ne_none held
    | _ => exact held
  | blockHash number =>
    exact held_of_accounts h (fun _ _ held => held) fun _ => KeyMap.get?_insert_ne_none

/-! ## What is asked -/

theorem Asks.stays_held {fs : List Fetch} (asks : Asks l fs l') (h : l.held? q ≠ none) :
    l'.held? q ≠ none := by
  induction asks with
  | nil => exact h
  | failed _ _ ih => exact ih h
  | answered _ _ ih => exact ih (held_keep _ _ h)

/-- What is asked for is not held at first either: nothing is let go of while asking. -/
theorem Asks.unheld {fs : List Fetch} (asks : Asks l fs l') :
    ∀ f ∈ fs, l.held? f.query = none := by
  induction asks with
  | nil => exact List.forall_mem_nil _
  | failed absent _ ih => exact List.forall_mem_cons.mpr ⟨absent, ih⟩
  | answered absent _ ih =>
    refine List.forall_mem_cons.mpr ⟨absent, fun f mem => ?_⟩
    by_contra held
    exact held_keep _ _ held (ih f mem)

/-- What is answered is held. -/
theorem Asks.held_of_answered {fs : List Fetch} (asks : Asks l fs l') (mem : ⟨q, true⟩ ∈ fs) :
    l'.held? q ≠ none := by
  induction asks with
  | nil => cases mem
  | failed _ _ ih =>
    rcases List.mem_cons.mp mem with same | later
    · cases same
    · exact ih later
  | @answered l p v fs l' absent asks ih =>
    rcases List.mem_cons.mp mem with same | later
    · cases same
      refine asks.stays_held ?_
      rw [held?_keep]
      exact Option.some_ne_none v
    · exact ih later

/-! ## Letting go -/

/-- The operation lets go of an item: it drops the account, or it goes back to a snapshot that
does not hold the item. -/
inductive Forgets (q : Query) (l : State) : Operation → Prop
  | drops {a} : q.address? = some a → Forgets q l (.write (.deleteAccount a))
  | goesBack {snapshot} : snapshot ∈ l.snapshots → snapshot.world.Lacks q →
      Forgets q l (.revert snapshot.id)

theorem Reads.stays_held {p : Query} {r : Except LedgerError p.Answer} (h : Reads replies p l r l')
    (held : l.held? q ≠ none) : l'.held? q ≠ none :=
  h.keeps (P := fun l => l.held? q ≠ none) (fun held _ _ => held_keep _ _ held) held

theorem ReadsAll.stays_held {ps : List Query} {r : Except LedgerError Unit}
    (h : ReadsAll replies ps l r l') (held : l.held? q ≠ none) : l'.held? q ≠ none :=
  h.keeps (P := fun l => l.held? q ≠ none) (fun held _ _ => held_keep _ _ held) held

/-- A write lets go of nothing but what it drops. -/
theorem held_write {change : Write} (spared : ¬ Forgets q l (.write change))
    (held : l.held? q ≠ none) :
    ({ l with world := l.world.write change } : State).held? q ≠ none := by
  refine held_of_accounts held (fun a about held => ?_) fun _ held => held
  refine World.write_keeps (P := fun w => (w.accountD a).held? q ≠ none) (fun s mem held => ?_) held
  cases s with
  | touch b t => exact held_touch t.stays_held held
  | erase b =>
    have other : b ≠ a := by
      rintro rfl
      obtain rfl := Write.eq_deleteAccount mem
      exact spared (.drops about)
    rw [World.step, World.accountD_erase, if_neg other]
    exact held
  | setTransient b key value => exact held
  | clearTransient => exact held

/-- What merging takes from the captured account is in a world that is brought back what it was. -/
theorem bind_account?_restore {α : Type} {f : Account → Option α}
    (same : ∀ captured live : Account, f (captured.restore live) = f captured)
    (captured live : World) (a : Address) :
    ((captured.restore live).account? a).bind f = (captured.account? a).bind f := by
  rw [World.account?_restore]
  cases captured.account? a with
  | none => rfl
  | some account => exact same account (live.accountD a)

/-- Going back to a snapshot with an item keeps the item. -/
theorem held_restore {captured : World} {older : List Snapshot} (there : ¬ captured.Lacks q)
    (held : l.held? q ≠ none) :
    ({ l with world := captured.restore l.world, snapshots := older } : State).held? q ≠ none := by
  cases q with
  | blockHash number => exact held
  | balance a =>
    -- the only item that may come from the live account
    simp only [World.Lacks] at there
    rw [State.held?_balance] at held
    simp only [State.held?, account?, World.account?_restore]
    cases hc : captured.account? a with
    | none => exact absurd hc there
    | some account =>
      simp only [Option.map_some, Option.bind_some, Account.restore]
      cases account.chainBalance with
      | none => exact held
      | some v => exact Option.some_ne_none v
  | code a =>
    simp only [State.held?, account?]
    rw [bind_account?_restore fun _ _ => rfl]
    exact there
  | nonce a =>
    simp only [State.held?, account?]
    rw [bind_account?_restore fun _ _ => rfl]
    exact there
  | slot a key =>
    simp only [State.held?, account?]
    rw [bind_account?_restore fun _ _ => rfl]
    exact there

/-- What is held is held after an operation, unless the operation lets go of it. -/
theorem Performs.stays_held {op : Operation} {r : Except LedgerError Outcome}
    (h : Performs replies op l r l') (spared : ¬ Forgets q l op) (held : l.held? q ≠ none) :
    l'.held? q ≠ none := by
  cases h with
  | read h => exact h.stays_held held
  | readFails h => exact h.stays_held held
  | load h => exact h.stays_held held
  | loadFails h => exact h.stays_held held
  | write change => exact held_write spared held
  | takeSnapshot => exact held
  | revert back =>
    obtain ⟨snapshot, older, found, rfl⟩ := revert_eq_ok back
    obtain ⟨rfl, _⟩ := findSnapshot?_eq_some found
    exact held_restore (fun lacks => spared (.goesBack (mem_of_findSnapshot? found) lacks)) held
  | revertFails _ => exact held
  | commit id =>
    obtain ⟨older, _, same⟩ := l.dropSnapshot_eq id
    rw [same]
    exact held
  | discard id =>
    obtain ⟨older, _, same⟩ := l.dropSnapshot_eq id
    rw [same]
    exact held

theorem Course.stays_held {xs : List Moment} (h : Course replies l xs l')
    (spared : ∀ x ∈ xs, ¬ Forgets q x.before x.operation) (held : l.held? q ≠ none) :
    l'.held? q ≠ none := by
  induction h with
  | nil => exact held
  | cons obeys _ ih =>
    obtain ⟨now, later⟩ := List.forall_mem_cons.mp spared
    exact ih later (obeys.performs.stays_held now held)

/-! ## Along a run -/

/-- What is asked for along a run, and how often. -/
structure FetchesOnce (xs : List Moment) : Prop where
  /-- A read asks for nothing but its own items, and any other operation for nothing. -/
  own : ∀ x ∈ xs, (x.fetches.map Fetch.query).Sublist (Eager.questions x.operation)
  /-- Nothing is asked for that the ledger holds: neither at the time, nor before the operation. -/
  asked : ∀ x ∈ xs, x.fetches = [] ∨ Asks x.before x.fetches x.after
  unheld : ∀ x ∈ xs, ∀ f ∈ x.fetches, x.before.held? f.query = none
  /-- No operation asks twice for an item. -/
  once : ∀ x ∈ xs, (x.fetches.map Fetch.query).Nodup
  /-- Between two operations that are answered about one item, another one lets go of it. -/
  again : ∀ first x between y last q, xs = first ++ x :: (between ++ y :: last) →
    ⟨q, true⟩ ∈ x.fetches → ⟨q, true⟩ ∈ y.fetches →
    ∃ z ∈ between, Forgets q z.before z.operation
  blockHash : ∀ first x between y last number, xs = first ++ x :: (between ++ y :: last) →
    ⟨.blockHash number, true⟩ ∈ x.fetches → ⟨.blockHash number, true⟩ ∉ y.fetches

/-- No operation lets go of a block hash. -/
theorem not_forgets_blockHash {number : UInt64} {op : Operation} :
    ¬ Forgets (.blockHash number) l op := by
  intro forgets
  cases forgets with
  | drops about => cases about
  | goesBack _ lacks => exact lacks

theorem nodup_questions (op : Operation) : (Eager.questions op).Nodup := by
  cases op <;> simp [Eager.questions]

theorem Moment.Obeys.unheld {x : Moment} (obeys : x.Obeys replies) :
    ∀ f ∈ x.fetches, x.before.held? f.query = none := by
  rcases obeys.asked with none | asks
  · rw [none]
    exact List.forall_mem_nil _
  · exact asks.unheld

theorem Moment.Obeys.held_of_answered {x : Moment} (obeys : x.Obeys replies)
    (answered : ⟨q, true⟩ ∈ x.fetches) : x.after.held? q ≠ none := by
  rcases obeys.asked with none | asks
  · rw [none] at answered
    cases answered
  · exact asks.held_of_answered answered

/-- An item that was answered is asked for again only after it was let go of. -/
theorem Course.forgets {first between last : List Moment} {x y : Moment}
    (h : Course replies l (first ++ x :: (between ++ y :: last)) l')
    (before : ⟨q, true⟩ ∈ x.fetches) (again : ⟨q, true⟩ ∈ y.fetches) :
    ∃ z ∈ between, Forgets q z.before z.operation := by
  obtain ⟨m, _, rest⟩ := h.of_append
  cases rest with
  | cons obeys rest =>
    obtain ⟨m', middle, rest⟩ := rest.of_append
    cases rest with
    | cons obeys' _ =>
      by_contra spared
      have kept : ∀ z ∈ between, ¬ Forgets q z.before z.operation :=
        fun z mem forgets => spared ⟨z, mem, forgets⟩
      exact middle.stays_held kept (obeys.held_of_answered before) (obeys'.unheld _ again)

theorem Course.fetchesOnce {xs : List Moment} (h : Course replies l xs l') : FetchesOnce xs where
  own x mem := (h.obeys x mem).own
  asked x mem := (h.obeys x mem).asked
  unheld x mem := (h.obeys x mem).unheld
  once x mem := (h.obeys x mem).own.nodup (nodup_questions x.operation)
  again first x between y last q split before again := by
    subst split
    exact h.forgets before again
  blockHash first x between y last number split before again := by
    subst split
    obtain ⟨_, _, forgets⟩ := h.forgets before again
    exact not_forgets_blockHash forgets

/-- The questions of a history are all that its run puts to the source. An item is asked for
only while it is not held, and answered again only after it was let go of. -/
theorem run_fetches_once {σ : Type} (source : Source (StateM σ)) (ops : List Operation) (l : State)
    (s : σ) :
    ((run source.recording ops l).run (s, [])).2.2 =
        (history source ops l s).flatMap Moment.fetches ∧
      FetchesOnce (history source ops l s) := by
  constructor
  · rw [run_recording, List.nil_append]
  · exact (course_history source source.gives_any ops l s).fetchesOnce

end State

end EvmInspect.Ledger
