import EvmInspect.Proofs.Ledger.ChangeList
import EvmInspect.Proofs.Ledger.Rollback
import EvmInspect.Proofs.Ledger.Steps

/-!
# What a frame that was taken back leaves in the list of changes

Going back brings the values of slots back, but what was recorded of them in the meantime is
kept. So a record that was made in the frame is compared with a value from before it. This
goes unseen while the record agrees with that value (`Unseen`), which is exactly when the
list of changes is what it was (`storageChanges_restore_iff`). A record that disagrees comes
from a slot that was overwritten without a record, or from an account that was dropped and
made anew: without these (`Tracks`) the list is always what it was.
-/

namespace EvmInspect.Ledger

open State (Operation)

/-! ## Merged records -/

/-- A record `now` leaves the change of a slot as it was when `recorded` was recorded of it
and it held `value`. -/
def Unseen (value : Bytes) : (recorded now : Option (Option Bytes)) → Prop
  | _, none => True
  | none, some first => first = some value
  | some old, some first => first = none ∨ first = old

/-- Two records of a slot are listed the same only if they are the same. -/
theorem StorageChange.listed_iff {a : Address} {key : Word} {value : Bytes}
    {first old : Option Bytes} :
    ((if first = some value then none else some (⟨a, key, first, value⟩ : StorageChange)) =
      if old = some value then none else some ⟨a, key, old, value⟩) ↔ first = old := by
  constructor
  · intro same
    by_cases clean : first = some value
    · by_cases clean' : old = some value
      · exact clean.trans clean'.symm
      · rw [if_pos clean, if_neg clean'] at same
        cases same
    · by_cases clean' : old = some value
      · rw [if_neg clean, if_pos clean'] at same
        cases same
      · rw [if_neg clean, if_neg clean'] at same
        exact congrArg StorageChange.first (Option.some.inj same)
  · rintro rfl
    rfl

/-- A slot that is brought back is listed as before exactly if its live record is unseen. -/
theorem Account.changeAt?_restore_iff {captured live : Account}
    (address : live.address = captured.address) {key : Word} {value : Bytes}
    (held : captured.storage.get? key = some value) :
    (captured.restore live).changeAt? key = captured.changeAt? key ↔
      Unseen value (captured.firstValues.get? key) (live.firstValues.get? key) := by
  have same : (captured.restore live).storage.get? key = some value := held
  have named : (captured.restore live).address = captured.address := address
  unfold changeAt?
  rw [firstValues_restore, same, held, named]
  cases captured.firstValues.get? key with
  | none =>
    cases live.firstValues.get? key with
    | none => exact iff_of_true rfl trivial
    | some first =>
      simp only [Unseen, mergedRecord]
      split
      next unchanged => exact iff_of_true rfl unchanged
      next changed => exact iff_of_false (fun h => nomatch h) changed
  | some old =>
    cases live.firstValues.get? key with
    | none => exact iff_of_true rfl trivial
    | some first =>
      simp only [Unseen, mergedRecord, StorageChange.listed_iff]
      cases first with
      | none => exact iff_of_true rfl (.inl rfl)
      | some first => simp only [Option.some_or, reduceCtorEq, false_or]

/-- A slot that holds nothing is not listed. -/
theorem Account.changeAt?_of_absent {account : Account} {key : Word}
    (absent : account.storage.get? key = none) : account.changeAt? key = none := by
  unfold changeAt?
  rw [absent]
  cases account.firstValues.get? key <;> rfl

/-- A world that is brought back lists the same changes exactly if no slot that it holds has
a live record that is seen. -/
theorem storageChanges_restore_iff {captured live : State} (own : captured.world.Own)
    (now : live.world.Own) :
    (captured.world.restore live.world).storageChanges = captured.world.storageChanges ↔
      ∀ a key value, captured.held? (.slot a key) = some value →
        Unseen value (captured.firstValue? a key) (live.firstValue? a key) := by
  rw [World.storageChanges_eq_iff (own.restore now) own]
  refine forall_congr' fun a => forall_congr' fun key => ?_
  rw [live.firstValue?_eq]
  simp only [World.changeAt?, World.account?_restore, State.held?, State.firstValue?,
    World.firstValue?, State.account?]
  cases there : captured.world.account? a with
  | none =>
    refine iff_of_true rfl ?_
    intro value held
    cases held
  | some account =>
    simp only [Option.map_some, Option.bind_some]
    cases held : account.storage.get? key with
    | none =>
      refine iff_of_true ?_ ?_
      · have gone : (account.restore (live.world.accountD a)).changeAt? key = none :=
          Account.changeAt?_of_absent held
        exact gone.trans (Account.changeAt?_of_absent held).symm
      · intro value held
        cases held
    | some value =>
      simp only [Option.some.injEq, forall_eq']
      have address : (live.world.accountD a).address = account.address :=
        (World.own_iff_every.mp now a).trans (own a account there).symm
      exact Account.changeAt?_restore_iff address held

/-! ## Frames that leave nothing -/

/-- How a slot that held `value` may have fared in a frame: a record of it stays and it is not
forgotten, or it still holds the value, or the value was recorded when it was written. -/
inductive Kept (value : Bytes) :
    (recorded first : Option (Option Bytes)) → (current : Option Bytes) → Prop
  | recorded {old current} : Kept value (some old) (some old) (some current)
  | untouched : Kept value none none (some value)
  | written {current} : Kept value none (some (some value)) (some current)

namespace Kept

variable {value : Bytes} {recorded first live : Option (Option Bytes)} {current now : Option Bytes}

theorem unseen (h : Kept value recorded first current) : Unseen value recorded first := by
  cases h with
  | recorded => exact .inr rfl
  | untouched => trivial
  | written => rfl

theorem held (h : Kept value recorded first current) : ∃ v, current = some v := by
  cases h with
  | recorded => exact ⟨_, rfl⟩
  | untouched => exact ⟨_, rfl⟩
  | written => exact ⟨_, rfl⟩

/-- A record is made of the present value where there is none. -/
theorem setStorage (h : Kept value recorded first current) (v : Bytes) :
    Kept value recorded (if first.isSome then first else some current) (some v) := by
  cases h with
  | recorded => exact .recorded
  | untouched => exact .written
  | written => exact .written

/-- Merging two slots that fared well leaves one that did. -/
theorem restore (h : Kept value recorded first current) (h' : Kept value recorded live now) :
    Kept value recorded (Account.mergedRecord first live) current := by
  cases h with
  | @recorded old _ =>
    cases h' with
    | recorded =>
      rw [Account.mergedRecord, Option.or_self]
      exact .recorded
  | untouched =>
    cases h' with
    | untouched => exact .untouched
    | written => exact .written
  | written =>
    cases h' with
    | untouched => exact .written
    | written => exact .written

end Kept

/-- Each slot that `l` holds fared well in an account. -/
def Account.Keeps (l : State) (a : Address) (account : Account) : Prop :=
  ∀ key value, l.held? (.slot a key) = some value →
    Kept value (l.firstValue? a key) (account.firstValues.get? key) (account.storage.get? key)

/-- Each slot that `l` holds fared well in a world. -/
def World.Keeps (l : State) (w : World) : Prop := ∀ a, (w.accountD a).Keeps l a

/-- The operation drops no account that `l` has, and overwrites no slot that `l` holds
without a record unless it has one. -/
def Tracks (l : State) : Operation → Prop
  | .write (.upsertStorage a key _) => l.held? (.slot a key) = none ∨ l.firstValue? a key ≠ none
  | .write (.deleteAccount a) => l.account? a = none
  | _ => True

section Keeps

variable {l live : State} {w : World} {a : Address} {account : Account}

theorem World.keeps_self (l : State) : l.world.Keeps l := by
  intro a key value held
  rw [State.held?_slot] at held
  rw [State.firstValue?_eq, held]
  cases (l.world.accountD a).firstValues.get? key with
  | none => exact .untouched
  | some old => exact .recorded

theorem Account.Keeps.writeTracked (h : account.Keeps l a) (key : Word) (v : Bytes) :
    (account.writeTracked key v).Keeps l a := by
  intro k value held
  have before := h k value held
  by_cases hk : key = k
  · subst hk
    rw [Account.firstValues_writeTracked_self]
    have after := before.setStorage v
    simp only [Account.writeTracked, KeyMap.get?_insert_self]
    exact after
  · rw [Account.firstValues_writeTracked_of_ne _ _ hk]
    simp only [Account.writeTracked, KeyMap.get?_insert_of_ne _ _ hk]
    exact before

theorem Account.Keeps.writeUntracked (h : account.Keeps l a) {key : Word}
    (tracks : l.held? (.slot a key) = none ∨ l.firstValue? a key ≠ none) (v : Bytes) :
    (account.writeUntracked key v).Keeps l a := by
  intro k value held
  have before := h k value held
  unfold Account.writeUntracked
  by_cases hk : key = k
  · subst hk
    simp only [KeyMap.get?_insert_self]
    rcases tracks with absent | recorded
    · rw [absent] at held
      cases held
    · cases hr : l.firstValue? a key with
      | none => exact absurd hr recorded
      | some old =>
        rw [hr] at before
        generalize account.firstValues.get? key = first at before ⊢
        generalize account.storage.get? key = current at before
        cases before with
        | recorded => exact .recorded
  · simp only [KeyMap.get?_insert_of_ne _ _ hk]
    exact before

/-- A slot is fetched only where none is held, so this is no slot of `l`. -/
theorem Account.Keeps.recordFetched (h : account.Keeps l a) {key : Word}
    (absent : account.storage.get? key = none) (v : Bytes) :
    (account.recordFetched key v).Keeps l a := by
  intro k value held
  have before := h k value held
  by_cases hk : key = k
  · subst hk
    obtain ⟨v, present⟩ := before.held
    rw [absent] at present
    cases present
  · simp only [Account.recordFetched, KeyMap.get?_insert_of_ne _ _ hk]
    exact before

theorem World.Keeps.touch (h : w.Keeps l) {f : Account → Account}
    (step : (w.accountD a).Keeps l a → (f (w.accountD a)).Keeps l a) : (w.touch a f).Keeps l := by
  intro b
  rw [World.accountD_touch]
  split
  next same =>
    subst same
    exact step (h a)
  next => exact h b

theorem World.Keeps.step (h : w.Keeps l) {change : Write} (tracks : Tracks l (.write change))
    (s : Step) (mem : s ∈ change.steps) : (w.step s).Keeps l := by
  cases s with
  | touch a t =>
    refine h.touch fun keeps => ?_
    cases t with
    | setStorage key v => exact keeps.writeTracked key v
    | upsertStorage key v =>
      have upsert := Write.eq_upsertStorage mem
      subst upsert
      exact keeps.writeUntracked tracks v
    | warmKeys keys =>
      obtain ⟨storage, firstValues⟩ := Touch.warmKeys_slots keys (w.accountD a)
      intro key value held
      rw [storage, firstValues]
      exact keeps key value held
    | _ => exact keeps
  | erase a =>
    have deletion := Write.eq_deleteAccount mem
    subst deletion
    intro b
    by_cases hb : a = b
    · subst hb
      intro key value held
      have gone : l.account? a = none := tracks
      simp only [State.held?, gone, Option.bind_none, reduceCtorEq] at held
    · rw [World.step, World.accountD_erase, if_neg hb]
      exact h b
  | setTransient a key value => exact h
  | clearTransient => exact h

theorem World.Keeps.write (h : w.Keeps l) {change : Write} (tracks : Tracks l (.write change)) :
    (w.write change).Keeps l :=
  World.write_keeps (fun s mem keeps => keeps.step tracks s mem) h

theorem World.Keeps.keep {q : Query} {v : q.Answer} (h : live.world.Keeps l)
    (absent : live.held? q = none) : (live.keep q v).world.Keeps l := by
  cases q with
  | balance a => exact h.touch fun keeps => keeps
  | code a => exact h.touch fun keeps => keeps
  | nonce a => exact h.touch fun keeps => keeps
  | slot a key =>
    rw [State.held?_slot] at absent
    exact h.touch fun keeps => keeps.recordFetched absent v
  | blockHash number => exact h

theorem World.Keeps.restore {captured : World} (h : captured.Keeps l) (now : w.Keeps l) :
    (captured.restore w).Keeps l := by
  intro a
  have before := h a
  have after := now a
  rw [World.accountD, World.account?_restore]
  rw [World.accountD] at before
  cases hc : captured.account? a with
  | none =>
    rw [hc] at before
    exact before
  | some account =>
    rw [hc] at before
    intro key value held
    have merged := (before key value held).restore (after key value held)
    rw [← Account.firstValues_restore] at merged
    exact merged

end Keeps

namespace State

/-- While the snapshot taken of `l` is on the stack, the slots of `l` fare well in the live
world and in every world that was captured later. -/
structure Guards (l live : State) : Prop where
  numbered : Numbered live.nextId live.snapshots
  used : l.nextId < live.nextId
  world : l.nextId ∈ live.snapshots.map Snapshot.id → live.world.Keeps l
  captured : l.nextId ∈ live.snapshots.map Snapshot.id →
    ∀ s ∈ live.snapshots, l.nextId ≤ s.id → s.world.Keeps l

section Guards

variable {l live : State}

/-- Using up newer snapshots guards as before; what is guarded of the live world has to be said. -/
theorem Guards.suffix (h : Guards l live) {older : List Snapshot} (part : older <:+ live.snapshots)
    {w : World} (keeps : l.nextId ∈ older.map Snapshot.id → w.Keeps l) :
    Guards l { live with world := w, snapshots := older } where
  numbered := h.numbered.suffix part
  used := h.used
  world := keeps
  captured there s mem newer :=
    h.captured ((part.sublist.map Snapshot.id).subset there) s (part.subset mem) newer

theorem Guards.revert (h : Guards l live) {id : Nat} {live' : State}
    (back : live.revert id = .ok live') : Guards l live' := by
  obtain ⟨snapshot, older, found, rfl⟩ := revert_eq_ok back
  have part := suffix_of_findSnapshot? found
  refine h.suffix part fun there => ?_
  have still := (part.sublist.map Snapshot.id).subset there
  -- the snapshot lies above the one of `l`, so it was captured later
  obtain ⟨_, newer, stack⟩ := findSnapshot?_eq_some found
  have descending := h.numbered.descending
  rw [stack, List.pairwise_append, List.pairwise_cons] at descending
  obtain ⟨below, mem, same⟩ := List.mem_map.mp there
  have later : below.id < snapshot.id := descending.2.1.1 below mem
  have on := mem_of_findSnapshot? found
  exact (h.captured still snapshot on (by omega)).restore (h.world still)

theorem Guards.takeSnapshot (h : Guards l live) : Guards l live.takeSnapshot.2 := by
  have before : l.nextId ∈ live.takeSnapshot.2.snapshots.map Snapshot.id →
      l.nextId ∈ live.snapshots.map Snapshot.id := by
    intro there
    rcases List.mem_cons.mp there with same | deeper
    · exact absurd same (Nat.ne_of_lt h.used)
    · exact deeper
  refine ⟨h.numbered.push live.world, Nat.lt_succ_of_lt h.used, fun there => h.world (before there),
    fun there s mem newer => ?_⟩
  rcases List.mem_cons.mp mem with rfl | deeper
  · exact h.world (before there)
  · exact h.captured (before there) s deeper newer

theorem guards_invariant (l : State) : Invariant .any (Tracks l) (Guards l) where
  fetch {live q v} h absent _ := by
    obtain ⟨numbered, used, world, captured⟩ := h
    refine ⟨?_, ?_, ?_, ?_⟩
    · rwa [nextId_keep, snapshots_keep]
    · rwa [nextId_keep]
    · intro there
      rw [snapshots_keep] at there
      exact (world there).keep absent
    · rwa [snapshots_keep]
  write h tracks :=
    ⟨h.numbered, h.used, fun there => (h.world there).write tracks, h.captured⟩
  take h := h.takeSnapshot
  revert h back := h.revert back
  drop {live} id h := by
    obtain ⟨older, part, same⟩ := live.dropSnapshot_eq id
    rw [same]
    exact h.suffix part fun there => h.world ((part.sublist.map Snapshot.id).subset there)

theorem Numbered.guards (h : Numbered l.nextId l.snapshots) : Guards l l.takeSnapshot.2 where
  numbered := h.push l.world
  used := Nat.lt_succ_self _
  world _ := World.keeps_self l
  captured _ s mem newer := by
    rcases List.mem_cons.mp mem with rfl | deeper
    · exact World.keeps_self l
    · have := h.used s deeper
      omega

end Guards

/-- In a frame, too, accounts stand under their own address. -/
theorem Reachable.own_in_frame {l live : State} (reach : Reachable l) {ops : List Operation}
    {rs : List (Except LedgerError Outcome)} (running : Runs .any ops l.takeSnapshot.2 rs live) :
    live.world.Own :=
  (running.keeps own_invariant (fun _ _ => trivial)
    ⟨reach.own.1, List.forall_mem_cons.mpr reach.own⟩).1

/-- Going back to a snapshot brings the list of changes back exactly if no slot that was held
has a record by then that is seen. That is so after every frame that tracks what it writes. -/
theorem revert_changes_iff {l : State} (reach : Reachable l) {σ : Type}
    (source : Source (StateM σ)) (ops : List Operation) (s : σ)
    (there : l.takeSnapshot.1 ∈ (after source ops l.takeSnapshot.2 s).snapshots.map Snapshot.id) :
    ∃ now, (after source ops l.takeSnapshot.2 s).revert l.takeSnapshot.1 = .ok now ∧
      (now.world.storageChanges = l.world.storageChanges ↔
        ∀ a key value, l.held? (.slot a key) = some value →
          Unseen value (l.firstValue? a key)
            ((after source ops l.takeSnapshot.2 s).firstValue? a key)) ∧
      ((∀ op ∈ ops, Tracks l op) → now.world.storageChanges = l.world.storageChanges) := by
  have running := runs_run source.gives_any ops l.takeSnapshot.2 s
  have exactly := storageChanges_restore_iff reach.own.1 (reach.own_in_frame running)
  refine ⟨_, revert_taken reach running there, exactly, fun tracks => exactly.mpr ?_⟩
  have guards := running.keeps (guards_invariant l) tracks reach.numbered.guards
  intro a key value held
  have kept := guards.world there a key value held
  rw [← firstValue?_eq] at kept
  exact kept.unseen

/-- A frame that drops an account which was read, and makes it anew by an untracked write and
a tracked one: the fetched record of the slot is lost, the new one is of a value that only the
frame wrote, and the slot is listed once the frame is taken back. -/
theorem dropped_account_leaves_change :
    let source : Source (StateM Unit) := Chain.source {}
    let a := Address.ofNat 1
    let zeros := (0 : Word).toBytes
    let before := after source [.read (.slot a 0)] .empty ()
    let frame := [.write (.deleteAccount a), .write (.upsertStorage a 0 [2]),
      .write (.setStorage a 0 [3])]
    let live := after source frame before.takeSnapshot.2 ()
    Reachable before ∧ before.takeSnapshot.1 ∈ live.snapshots.map Snapshot.id ∧
      before.world.storageChanges = [] ∧
      (live.revert before.takeSnapshot.1).toOption.map (·.world.storageChanges) =
        some [⟨a, 0, some [2], zeros⟩] := by
  intro source a zeros before frame live
  have reach : Reachable before := ⟨Unit, source, _, (), rfl⟩
  have there : before.takeSnapshot.1 ∈ live.snapshots.map Snapshot.id := by decide
  have running := runs_run source.gives_any frame before.takeSnapshot.2 ()
  have own := reach.own.1.restore (reach.own_in_frame running)
  refine ⟨reach, there, ?_, ?_⟩
  · rw [World.storageChanges_eq reach.own.1]
    decide
  · rw [show before.takeSnapshot.1 = before.nextId from rfl, revert_taken reach running there]
    show some (before.world.restore live.world).storageChanges = _
    rw [World.storageChanges_eq own]
    decide

/-- A frame that blindly writes a slot which was fetched, and another one which was not. -/
theorem tracked_frame_leaves_nothing :
    let source : Source (StateM Unit) := Chain.source {}
    let a := Address.ofNat 1
    let before := after source [.read (.slot a 0)] .empty ()
    let frame := [.write (.setStorage a 0 [2]), .write (.setStorage a 1 [3])]
    let live := after source frame before.takeSnapshot.2 ()
    Reachable before ∧ before.takeSnapshot.1 ∈ live.snapshots.map Snapshot.id ∧
      ∃ now, live.revert before.takeSnapshot.1 = .ok now ∧
        now.world.storageChanges = before.world.storageChanges := by
  intro source a before frame live
  have reach : Reachable before := ⟨Unit, source, _, (), rfl⟩
  have there : before.takeSnapshot.1 ∈ live.snapshots.map Snapshot.id := by decide
  obtain ⟨now, back, _, same⟩ := revert_changes_iff reach source frame () there
  refine ⟨reach, there, now, back, same ?_⟩
  intro op mem
  rcases List.mem_cons.mp mem with rfl | mem
  · trivial
  · rw [List.mem_singleton.mp mem]
    trivial

end State

end EvmInspect.Ledger
