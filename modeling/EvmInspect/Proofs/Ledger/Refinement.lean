import EvmInspect.Proofs.Ledger.Overlay
import EvmInspect.Proofs.Ledger.Steps
import Mathlib.Data.List.Forall2

/-!
# The ledger refines the overlay

A held value is of one of two sorts, and the ledger does not tell them apart: execution
wrote it, or it was fetched and is the chain's. `Known` is the relation between what is held
and what was written that makes this harmless: what is held is what was written over the
chain, and nothing is missing that was written. It is all that a revert needs as well: going
back may forget a fetched value, keep a balance that was fetched later, or bring an account
back, and neither is seen by a read.

`Simulates` is this relation for whole ledgers, snapshots included. Every rule keeps it
(`Simulates.performs`), so every run gives what the eager ledger gives.
-/

namespace EvmInspect.Ledger

open State (Operation Outcome Performs Reads ReadsAll Runs)

/-! ## Held values -/

/-- What is held of a value is what was written over the chain's; what was written is held. -/
def Known {α : Type} (held written : Option α) (truth : α) : Prop :=
  held = none ∧ written = none ∨ held = some (written.getD truth)

section Known

variable {α : Type} {held written : Option α} {truth v : α}

theorem Known.absent : Known none none truth := .inl ⟨rfl, rfl⟩

theorem Known.of_write : Known (some v) (some v) truth := .inr rfl

theorem Known.eq_of_some (h : Known held written truth) (hv : held = some v) :
    v = written.getD truth := by
  rcases h with ⟨absent, _⟩ | present
  · rw [absent] at hv
    cases hv
  · rw [present] at hv
    exact (Option.some.inj hv).symm

/-- A fetched value may be kept where nothing was held. -/
theorem Known.fetch (h : Known held written truth) (absent : held = none) :
    Known (some truth) written truth := by
  rcases h with ⟨_, unwritten⟩ | present
  · exact .inr (by rw [unwritten]; rfl)
  · rw [absent] at present
    cases present

end Known

variable {chain : ChainView} {a : Address}

/-- What is held of an account is known of what was written to it. -/
structure Covers (chain : ChainView) (a : Address) (account : Account) (p : Patch) : Prop where
  nonce : Known account.nonce p.nonce (chain (.nonce a))
  code : Known account.code p.code (chain (.code a))
  slot : ∀ key, Known (account.storage.get? key) (p.slots key) (chain (.slot a key))
  delta : account.delta = p.delta
  balance : ∀ v, account.chainBalance = some v → v = chain (.balance a)

theorem Covers.empty {b : Address} : Covers chain a (.empty b) {} where
  nonce := .absent
  code := .absent
  slot _ := .absent
  delta := rfl
  balance _ h := nomatch h

section Covers

variable {account : Account} {p : Patch}

theorem Covers.setNonce (h : Covers chain a account p) (nonce : UInt64) :
    Covers chain a { account with nonce := some nonce } (p.setNonce nonce) :=
  { h with nonce := .of_write }

theorem Covers.setCode (h : Covers chain a account p) (code : Bytes) :
    Covers chain a { account with code := some code } (p.setCode code) :=
  { h with code := .of_write }

theorem Covers.addDelta (h : Covers chain a account p) (amount : Int) :
    Covers chain a (account.addDelta amount) (p.addDelta amount) :=
  { h with delta := congrArg (· + amount) h.delta }

/-- Slots are covered again after one of them is set, whatever is recorded of it. -/
theorem Covers.slot_insert (h : Covers chain a account p) (key : Word) (value : Bytes) (k : Word) :
    Known ((account.storage.insert key value).get? k) ((p.setSlot key value).slots k)
      (chain (.slot a k)) := by
  by_cases hk : key = k
  · subst hk
    simp only [KeyMap.get?_insert_self, Patch.setSlot, Function.update_self]
    exact .of_write
  · simp only [KeyMap.get?_insert_of_ne _ _ hk, Patch.setSlot, Function.update_of_ne (Ne.symm hk)]
    exact h.slot k

theorem Covers.writeTracked (h : Covers chain a account p) (key : Word) (value : Bytes) :
    Covers chain a (account.writeTracked key value) (p.setSlot key value) :=
  { h with slot := h.slot_insert key value }

theorem Covers.writeUntracked (h : Covers chain a account p) (key : Word) (value : Bytes) :
    Covers chain a (account.writeUntracked key value) (p.setSlot key value) :=
  { h with slot := h.slot_insert key value }

theorem Covers.warmKeys (h : Covers chain a account p) (keys : List Word) :
    Covers chain a ((Touch.warmKeys keys).change account) p :=
  Touch.warmKeys_keeps (P := fun account => Covers chain a account p)
    (fun _ _ covers => { covers with }) keys h

theorem Covers.recordFetched (h : Covers chain a account p) {key : Word}
    (absent : account.storage.get? key = none) :
    Covers chain a (account.recordFetched key (chain (.slot a key))) p := by
  refine { h with slot := fun k => ?_ }
  simp only [Account.recordFetched]
  by_cases hk : key = k
  · subst hk
    rw [KeyMap.get?_insert_self]
    exact (h.slot key).fetch absent
  · rw [KeyMap.get?_insert_of_ne _ _ hk]
    exact h.slot k

/-- What a revert brings back is covered by what was written when it was captured. -/
theorem Covers.restore {now : Account} {q : Patch} (h : Covers chain a account p)
    (live : Covers chain a now q) : Covers chain a (account.restore now) p := by
  refine { h with balance := fun v hv => ?_ }
  simp only [Account.restore] at hv
  cases hb : account.chainBalance with
  | some w => exact h.balance v (by rw [hb]; rwa [hb, Option.some_or] at hv)
  | none => exact live.balance v (by rwa [hb, Option.none_or] at hv)

end Covers

/-! ## Worlds -/

/-- A world is known of an overlay. -/
structure Over (chain : ChainView) (w : World) (o : Overlay) : Prop where
  account : ∀ a, Covers chain a (w.accountD a) (o.patches a)
  transient : ∀ a key, w.transient.get? (a, key) = o.transient a key

section Over

variable {w : World} {o : Overlay}

theorem Over.empty : Over chain .empty {} := ⟨fun _ => .empty, fun _ _ => rfl⟩

/-- Touching an address writes to the overlay what the change of its account amounts to. -/
theorem Over.touch (h : Over chain w o) {a : Address} {f : Account → Account} {g : Patch → Patch}
    (step : ∀ {account p}, Covers chain a account p → Covers chain a (f account) (g p)) :
    Over chain (w.touch a f) (o.change a g) := by
  refine ⟨fun b => ?_, h.transient⟩
  rw [World.accountD_touch]
  by_cases hb : a = b
  · subst hb
    simp only [Overlay.change, Function.update_self]
    exact step (h.account a)
  · simp only [if_neg hb, Overlay.change, Function.update_of_ne (Ne.symm hb)]
    exact h.account b

/-- Touching an address writes nothing if the change of its account amounts to nothing there. -/
theorem Over.touch_unwritten (h : Over chain w o) {a : Address} {f : Account → Account}
    (step : Covers chain a (w.accountD a) (o.patches a) →
      Covers chain a (f (w.accountD a)) (o.patches a)) :
    Over chain (w.touch a f) o := by
  refine ⟨fun b => ?_, h.transient⟩
  rw [World.accountD_touch]
  split
  next hb => exact hb ▸ step (h.account a)
  next => exact h.account b

/-- A write that only warms is no part of the overlay. -/
theorem Over.warming (h : Over chain w o) {change : Write}
    (warms : ∀ s ∈ change.steps, ∃ a keys, s = .touch a (.warmKeys keys)) :
    Over chain (w.write change) o := by
  refine World.write_keeps (P := fun w => Over chain w o) (fun s mem held => ?_) h
  obtain ⟨a, keys, rfl⟩ := warms s mem
  exact held.touch_unwritten fun covers => covers.warmKeys keys

theorem Over.transfer (h : Over chain w o) (sender receiver : Address) (value : Word) :
    Over chain (w.transfer sender receiver value) (o.write (.transfer sender receiver value)) := by
  unfold World.transfer
  split
  next zero =>
    subst zero
    rwa [Overlay.write_transfer_zero]
  next =>
    have paid : Over chain (w.touch sender fun a => a.addDelta (-value.unsigned))
        (o.change sender (·.addDelta (-value.unsigned))) :=
      h.touch fun covers => covers.addDelta _
    exact paid.touch fun covers => covers.addDelta _

theorem Over.erase (h : Over chain w o) (a : Address) :
    Over chain { w with accounts := w.accounts.erase a } (o.change a fun _ => {}) := by
  refine ⟨fun b => ?_, h.transient⟩
  rw [World.accountD_erase]
  split
  next same =>
    subst same
    simp only [Overlay.change, Function.update_self]
    exact .empty
  next other =>
    simp only [Overlay.change, Function.update_of_ne (Ne.symm other)]
    exact h.account b

theorem Over.setTransient (h : Over chain w o) (a : Address) (key value : Word) :
    Over chain (w.setTransient a key value) (o.setTransient a key value) := by
  refine ⟨h.account, fun b k => ?_⟩
  by_cases hb : a = b
  · subst hb
    by_cases hk : key = k
    · subst hk
      simp only [World.setTransient, Overlay.setTransient, KeyMap.get?_insert_self,
        Function.update_self]
    · have other : (a, key) ≠ (a, k) := fun h => hk (Prod.mk.inj h).2
      simp only [World.setTransient, Overlay.setTransient, KeyMap.get?_insert_of_ne _ _ other,
        Function.update_self, Function.update_of_ne (Ne.symm hk), h.transient]
  · have other : (a, key) ≠ (b, k) := fun h => hb (Prod.mk.inj h).1
    simp only [World.setTransient, Overlay.setTransient, KeyMap.get?_insert_of_ne _ _ other,
      Function.update_of_ne (Ne.symm hb), h.transient]

theorem Over.write (h : Over chain w o) (change : Write) :
    Over chain (w.write change) (o.write change) := by
  cases change with
  | setStorage a key value => exact h.touch fun covers => covers.writeTracked key value
  | upsertStorage a key value => exact h.touch fun covers => covers.writeUntracked key value
  | setNonce a nonce => exact h.touch fun covers => covers.setNonce nonce
  | addDelta a amount => exact h.touch fun covers => covers.addDelta amount
  | saveCode a code => exact h.touch fun covers => covers.setCode code
  | transfer sender receiver value => exact h.transfer sender receiver value
  | prepareContract a => exact h.touch fun covers => (covers.setNonce 1).setCode []
  | deleteAccount a => exact h.erase a
  | warmAddress a => exact h.warming fun s mem => ⟨a, [], List.mem_singleton.mp mem⟩
  | warmSlot a key => exact h.warming fun s mem => ⟨a, [key], List.mem_singleton.mp mem⟩
  | warmPrecompiles =>
    apply h.warming
    intro s mem
    obtain ⟨a, _, rfl⟩ := List.mem_map.mp mem
    exact ⟨a, [], rfl⟩
  | accessList items =>
    apply h.warming
    intro s mem
    obtain ⟨item, _, rfl⟩ := List.mem_map.mp mem
    exact ⟨item.address, _, rfl⟩
  | setTransient a key value => exact h.setTransient a key value
  | clearTransient => exact ⟨h.account, fun _ _ => rfl⟩

/-- Going back to a captured world leaves it known of what was written when it was captured. -/
theorem Over.restore {live : World} {later : Overlay} (h : Over chain w o)
    (now : Over chain live later) : Over chain (w.restore live) o := by
  refine ⟨fun a => ?_, h.transient⟩
  have captured := h.account a
  rw [World.accountD] at captured
  rw [World.accountD, World.account?_restore]
  cases hw : w.account? a with
  | none =>
    rw [hw] at captured
    exact captured
  | some account =>
    rw [hw] at captured
    exact captured.restore (now.account a)

end Over

/-! ## Ledgers -/

/-- A snapshot is known of the copy under its number. -/
def Copied (chain : ChainView) (s : Snapshot) (copy : Nat × Overlay) : Prop :=
  s.id = copy.1 ∧ Over chain s.world copy.2

/-- A ledger is known of an eager one. -/
structure Simulates (chain : ChainView) (l : State) (e : Eager) : Prop where
  world : Over chain l.world e.overlay
  copies : List.Forall₂ (Copied chain) l.snapshots e.copies
  nextId : l.nextId = e.nextId
  blockHash : ∀ number v, l.blockHashes.get? number = some v → v = chain (.blockHash number)

/-- Whatever is answered is the chain's answer. Any question may be failed at any time. -/
def ChainView.Serves (chain : ChainView) (replies : Replies) : Prop :=
  ∀ q v, replies q (.ok v) → v = chain q

theorem Simulates.empty : Simulates chain .empty {} where
  world := .empty
  copies := .nil
  nextId := rfl
  blockHash _ _ h := nomatch h

section Simulates

variable {l l' : State} {e : Eager} {q : Query} {replies : Replies}

/-- What is read from the ledger is what the overlay shows. -/
theorem Simulates.outcomeOf (h : Simulates chain l e) {v : q.Answer} (held : l.held? q = some v) :
    l.outcomeOf q v = e.overlay.view chain q := by
  cases q with
  | balance a =>
    have covers := h.world.account a
    rw [State.held?_balance] at held
    simp only [State.outcomeOf, Overlay.view, Account.total, held, covers.delta,
      covers.balance v held, Option.map_some, Option.getD_some]
  | code a =>
    rw [State.held?_code] at held
    exact congrArg Outcome.bytes ((h.world.account a).code.eq_of_some held)
  | nonce a =>
    rw [State.held?_nonce] at held
    exact congrArg Outcome.nonce ((h.world.account a).nonce.eq_of_some held)
  | slot a key =>
    rw [State.held?_slot] at held
    exact congrArg Outcome.bytes (((h.world.account a).slot key).eq_of_some held)
  | blockHash number => exact congrArg Outcome.hash (h.blockHash number v held)

/-- Keeping the chain's answer where none is held changes nothing that a read shows. -/
theorem Simulates.keep (h : Simulates chain l e) (absent : l.held? q = none) :
    Simulates chain (l.keep q (chain q)) e := by
  cases q with
  | balance a =>
    refine { h with world := h.world.touch_unwritten fun covers => ?_ }
    exact { covers with balance := fun v hv => (Option.some.inj hv).symm }
  | code a =>
    rw [State.held?_code] at absent
    refine { h with world := h.world.touch_unwritten fun covers => ?_ }
    exact { covers with code := covers.code.fetch absent }
  | nonce a =>
    rw [State.held?_nonce] at absent
    refine { h with world := h.world.touch_unwritten fun covers => ?_ }
    exact { covers with nonce := covers.nonce.fetch absent }
  | slot a key =>
    rw [State.held?_slot] at absent
    exact { h with world := h.world.touch_unwritten fun covers => covers.recordFetched absent }
  | blockHash number =>
    refine { h with blockHash := fun n v hv => ?_ }
    by_cases hn : number = n
    · subst hn
      rw [State.keep, KeyMap.get?_insert_self] at hv
      exact (Option.some.inj hv).symm
    · rw [State.keep, KeyMap.get?_insert_of_ne _ _ hn] at hv
      exact h.blockHash n v hv

theorem Simulates.reads (honest : chain.Serves replies) (h : Simulates chain l e)
    {r : Except LedgerError q.Answer} (reading : Reads replies q l r l') :
    Simulates chain l' e ∧ ∀ v, r = .ok v → l'.outcomeOf q v = e.overlay.view chain q := by
  cases reading with
  | held hq => exact ⟨h, fun v hv => h.outcomeOf (Except.ok.inj hv ▸ hq)⟩
  | fetched absent reply =>
    obtain rfl := honest q _ reply
    have kept := h.keep absent
    exact ⟨kept, fun v hv => kept.outcomeOf (Except.ok.inj hv ▸ State.held?_keep l q (chain q))⟩
  | failed absent _ => exact ⟨h, fun v hv => nomatch hv⟩

theorem Simulates.readsAll (honest : chain.Serves replies) (h : Simulates chain l e)
    {qs : List Query} {r : Except LedgerError Unit} (reading : ReadsAll replies qs l r l') :
    Simulates chain l' e := by
  induction reading with
  | nil => exact h
  | cons first _ ih => exact ih (h.reads honest first).1
  | stop first => exact (h.reads honest first).1

/-- Looking for a number finds a snapshot and the copy of it, or neither. -/
theorem copied_downTo {snapshots : List Snapshot} {copies : List (Nat × Overlay)}
    (h : List.Forall₂ (Copied chain) snapshots copies) (id : Nat) :
    match State.findSnapshot? id snapshots, Eager.downTo id copies with
    | some (s, older), copy :: below => Copied chain s copy ∧ List.Forall₂ (Copied chain) older below
    | none, [] => True
    | _, _ => False := by
  induction h with
  | nil => trivial
  | @cons s copy older below first rest ih =>
    rw [State.findSnapshot?, Eager.downTo_cons, ← first.1]
    by_cases hid : s.id = id
    · rw [if_pos hid, if_pos hid]
      exact ⟨first, rest⟩
    · rw [if_neg hid, if_neg hid]
      exact ih

theorem Simulates.take (h : Simulates chain l e) :
    Simulates chain l.takeSnapshot.2 (e.next .takeSnapshot) :=
  { h with
    copies := .cons ⟨h.nextId, h.world⟩ h.copies
    nextId := congrArg (· + 1) h.nextId }

theorem Simulates.drop (h : Simulates chain l e) (id : Nat) :
    Simulates chain (l.dropSnapshot id) (e.next (.commit id)) := by
  have found := copied_downTo h.copies id
  unfold State.dropSnapshot Eager.next
  split at found
  next s older copy below hs hc =>
    rw [hs]
    simp only [hc]
    exact { h with copies := found.2 }
  next hs hc =>
    rw [hs]
    simp only [hc]
    exact h
  next => exact found.elim

/-- Going back succeeds for both ledgers or for neither. -/
theorem Simulates.revert (h : Simulates chain l e) (id : Nat) :
    match l.revert id with
    | .ok l' => e.outcome chain (.revert id) = .ok .done ∧ Simulates chain l' (e.next (.revert id))
    | .error cause =>
      e.outcome chain (.revert id) = .error cause ∧ Simulates chain l (e.next (.revert id)) := by
  have found := copied_downTo h.copies id
  unfold State.revert Eager.next Eager.outcome
  split at found
  next s older copy below hs hc =>
    simp only [hs, hc, List.isEmpty_cons]
    exact ⟨rfl, { h with
      world := found.1.2.restore h.world
      copies := found.2 }⟩
  next hs hc =>
    simp only [hs, hc, List.isEmpty_nil, if_true]
    exact ⟨trivial, h⟩
  next => exact found.elim

/-- An operation gives what the eager ledger gives, or the source failed it; either way it
stays known. -/
theorem Simulates.performs (honest : chain.Serves replies) (h : Simulates chain l e)
    {op : Operation} {r : Except LedgerError Outcome} (performing : Performs replies op l r l') :
    (r = e.outcome chain op ∨ ∃ q ∈ Eager.questions op, ∃ cause,
        replies q (.error cause) ∧ r = .error (.source cause)) ∧
      Simulates chain l' (e.next op) := by
  cases performing with
  | read reading =>
    obtain ⟨kept, shown⟩ := h.reads honest reading
    exact ⟨.inl (congrArg Except.ok (shown _ rfl)), kept⟩
  | readFails reading =>
    cases reading with
    | failed absent reply => exact ⟨.inr ⟨_, List.mem_singleton_self _, _, reply, rfl⟩, h⟩
  | load reading => exact ⟨.inl rfl, h.readsAll honest reading⟩
  | loadFails reading =>
    obtain ⟨q, hq, cause, reply, rfl⟩ := reading.failed
    exact ⟨.inr ⟨q, hq, cause, reply, rfl⟩, h.readsAll honest reading⟩
  | write w => exact ⟨.inl rfl, { h with world := h.world.write w }⟩
  | takeSnapshot => exact ⟨.inl (congrArg (Except.ok ∘ Outcome.snapshot) h.nextId), h.take⟩
  | @revert id _ _ reverting =>
    have both := h.revert id
    rw [reverting] at both
    exact ⟨.inl both.1.symm, both.2⟩
  | @revertFails id _ _ reverting =>
    have both := h.revert id
    rw [reverting] at both
    exact ⟨.inl both.1.symm, both.2⟩
  | commit id => exact ⟨.inl rfl, h.drop id⟩
  | discard id => exact ⟨.inl rfl, h.drop id⟩

theorem Simulates.runs (honest : chain.Serves replies) (h : Simulates chain l e)
    {ops : List Operation} {rs : List (Except LedgerError Outcome)}
    (running : Runs replies ops l rs l') :
    Eager.Follows chain replies ops rs e ∧ Simulates chain l' (e.run ops) := by
  induction running generalizing e with
  | nil => exact ⟨trivial, h⟩
  | cons first _ ih =>
    obtain ⟨agrees, next⟩ := h.performs honest first
    obtain ⟨follows, last⟩ := ih next
    exact ⟨⟨agrees, follows⟩, last⟩

theorem Simulates.transientValue (h : Simulates chain l e) (a : Address) (key : Word) :
    l.world.transientValue a key = e.overlay.transientValue a key :=
  congrArg (Option.getD · 0) (h.world.transient a key)

end Simulates

/-- Every run of the ledger over a source of the chain's answers gives what the eager ledger
gives, but where the source failed, and its transient values are the eager ledger's. -/
theorem outcomes_follow_overlay (chain : ChainView) {σ : Type} (source : Source (StateM σ))
    (honest : chain.Serves source.replies) (ops : List Operation) (s : σ) :
    Eager.Follows chain source.replies ops (State.outcomes source ops .empty s) {} ∧
      ∀ a key, (State.after source ops .empty s).world.transientValue a key =
        (Eager.run {} ops).overlay.transientValue a key := by
  have running := State.runs_run source.gives_replies ops .empty s
  obtain ⟨follows, last⟩ := Simulates.empty.runs honest running
  exact ⟨follows, last.transientValue⟩

/-- A source of a chain's answers that fails at every other question, beginning with the
first. -/
def ChainView.everyOther (chain : ChainView) : Source (StateM Bool) where
  ask q busy := (if busy then .error (.custom "busy") else .ok (chain q), !busy)

theorem ChainView.serves_everyOther (chain : ChainView) :
    chain.Serves chain.everyOther.replies := by
  rintro q v ⟨busy, reply⟩
  cases busy with
  | true => cases reply
  | false => exact (Except.ok.inj reply).symm

/-- A slot written, then read and deleted in a frame that is taken back. -/
theorem everyOther_follows_overlay :
    let chain : ChainView := fun
      | .balance _ => 100
      | .code _ => []
      | .nonce _ => 7
      | .slot _ _ => [9]
      | .blockHash _ => .zero
    let a := Address.ofNat 1
    chain.Serves chain.everyOther.replies ∧
      Eager.Follows chain chain.everyOther.replies
        [.write (.setStorage a 0 [1]), .takeSnapshot, .read (.slot a 1), .read (.slot a 1),
          .write (.addDelta a 5), .write (.deleteAccount a), .write (.setNonce a 8),
          .revert 1, .read (.slot a 0), .load a, .read (.balance a), .read (.nonce a)]
        [.ok .done, .ok (.snapshot 1), .error (.source (.custom "busy")), .ok (.bytes [9]),
          .ok .done, .ok .done, .ok .done,
          .ok .done, .ok (.bytes [1]), .error (.source (.custom "busy")), .ok (.balance 100),
          .error (.source (.custom "busy"))] {} := by
  intro chain a
  refine ⟨chain.serves_everyOther, ?_⟩
  exact (outcomes_follow_overlay chain chain.everyOther chain.serves_everyOther _ true).1
end EvmInspect.Ledger
