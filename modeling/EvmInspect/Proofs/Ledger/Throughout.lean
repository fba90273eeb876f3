import EvmInspect.Proofs.Ledger.Rollback
import EvmInspect.Proofs.Ledger.Steps

/-!
# Laws of every account in every world

A ledger has a live world and the worlds of its snapshots, and a revert brings an account of
one of these back into the other. A law of accounts that holds `Throughout` is kept along a
run if it is kept by each change of a single account and by merging two accounts of one
address (`AccountLaw`): nothing needs to be said of stacks, of writes that touch many accounts,
or of accounts that are dropped and made anew.
-/

namespace EvmInspect.Ledger

/-- Each account obeys a law; an address without an account counts as a new one. -/
def World.Every (P : Address → Account → Prop) (w : World) : Prop := ∀ a, P a (w.accountD a)

section Every

variable {P : Address → Account → Prop} {w : World} {a : Address}

theorem World.Every.touch (h : w.Every P) {f : Account → Account}
    (step : P a (w.accountD a) → P a (f (w.accountD a))) : (w.touch a f).Every P := by
  intro b
  rw [World.accountD_touch]
  split
  next same =>
    subst same
    exact step (h a)
  next => exact h b

theorem World.Every.erase (h : w.Every P) (empty : P a (.empty a)) :
    (w.step (.erase a)).Every P := by
  intro b
  rw [World.step, World.accountD_erase]
  split
  next same =>
    subst same
    exact empty
  next => exact h b

/-- A law that merging keeps is kept by going back. -/
theorem World.Every.restore {live : World} (h : w.Every P) (now : live.Every P)
    (merge : ∀ {a} {captured live : Account}, P a captured → P a live →
      P a (captured.restore live)) : (w.restore live).Every P := by
  intro a
  have before := h a
  rw [World.accountD, World.account?_restore]
  rw [World.accountD] at before
  cases hw : w.account? a with
  | none =>
    rw [hw] at before
    exact before
  | some account =>
    rw [hw] at before
    exact merge before (now a)

end Every

namespace State

/-- A property of the live world and of the world of each snapshot. -/
def Throughout (Q : World → Prop) (l : State) : Prop :=
  Q l.world ∧ ∀ snapshot ∈ l.snapshots, Q snapshot.world

variable {replies : Replies} {permitted : Operation → Prop}

/-- What changes of the live world and going back keep of one world holds of them all. -/
theorem Invariant.throughout {Q : World → Prop}
    (fetch : ∀ {l : State} {q v}, Q l.world → l.held? q = none → replies q (.ok v) →
      Q (l.keep q v).world)
    (write : ∀ {w change}, Q w → permitted (.write change) → Q (w.write change))
    (restore : ∀ {captured live}, Q captured → Q live → Q (captured.restore live)) :
    Invariant replies permitted (Throughout Q) where
  fetch h absent reply := by
    refine ⟨fetch h.1 absent reply, ?_⟩
    rw [snapshots_keep]
    exact h.2
  write h allowed := ⟨write h.1 allowed, h.2⟩
  take h := ⟨h.1, List.forall_mem_cons.mpr h⟩
  revert h back := by
    obtain ⟨snapshot, older, found, rfl⟩ := revert_eq_ok back
    have part := suffix_of_findSnapshot? found
    have captured := h.2 snapshot (mem_of_findSnapshot? found)
    exact ⟨restore captured h.1, fun s mem => h.2 s (part.subset mem)⟩
  drop {l} id h := by
    obtain ⟨older, part, same⟩ := l.dropSnapshot_eq id
    rw [same]
    exact ⟨h.1, fun s mem => h.2 s (part.subset mem)⟩

/-- A law of accounts that each step keeps, as far as it concerns one account. -/
structure AccountLaw (replies : Replies) (permitted : Operation → Prop)
    (P : Address → Account → Prop) : Prop where
  empty : ∀ a, P a (.empty a)
  balance : ∀ {a account} (v : Word), P a account → P a { account with chainBalance := some v }
  code : ∀ {a account} (v : Bytes), P a account → P a { account with code := some v }
  nonce : ∀ {a account} (v : UInt64), P a account → P a { account with nonce := some v }
  fetched : ∀ {a account key v}, P a account → account.storage.get? key = none →
    replies (.slot a key) (.ok v) → P a (account.recordFetched key v)
  touch : ∀ {a account} {change : Write} (t : Touch), P a account → .touch a t ∈ change.steps →
    permitted (.write change) → P a (t.change account)
  merge : ∀ {a} {captured live : Account}, P a captured → P a live → P a (captured.restore live)

variable {P : Address → Account → Prop}

theorem AccountLaw.write (law : AccountLaw replies permitted P) {w : World} {change : Write}
    (h : w.Every P) (allowed : permitted (.write change)) : (w.write change).Every P := by
  refine World.write_keeps (P := World.Every P) (fun s mem h => ?_) h
  cases s with
  | touch a t => exact h.touch fun obeys => law.touch t obeys mem allowed
  | erase a => exact h.erase (law.empty a)
  | setTransient a key value => exact h
  | clearTransient => exact h

theorem AccountLaw.keep (law : AccountLaw replies permitted P) {l : State} {q : Query}
    {v : q.Answer} (h : l.world.Every P) (absent : l.held? q = none) (reply : replies q (.ok v)) :
    (l.keep q v).world.Every P := by
  cases q with
  | balance a => exact h.touch (law.balance v)
  | code a => exact h.touch (law.code v)
  | nonce a => exact h.touch (law.nonce v)
  | slot a key =>
    rw [held?_slot] at absent
    exact h.touch fun obeys => law.fetched obeys absent reply
  | blockHash number => exact h

/-- A law of accounts holds of every account, in the live world and in each snapshot. -/
theorem AccountLaw.invariant (law : AccountLaw replies permitted P) :
    Invariant replies permitted (Throughout (World.Every P)) :=
  .throughout law.keep law.write fun before now => before.restore now law.merge

theorem AccountLaw.throughout_empty (law : AccountLaw replies permitted P) :
    Throughout (World.Every P) .empty :=
  ⟨law.empty, fun _ mem => nomatch mem⟩

end State

end EvmInspect.Ledger
