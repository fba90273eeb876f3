import EvmInspect.Proofs.Ledger.Numbering
import EvmInspect.Proofs.Ledger.History
import EvmInspect.Proofs.Ledger.Steps

/-!
# First values are written once

What is recorded as the first value of a slot stays for as long as its account does. Tracked
writes, fetched answers and going back all change records, each under a condition of its own;
none of them changes a value that is there. A record without a value may get one in two ways
only (`Moment.Becomes`): the slot is read and the source is asked for it in this very read, or a
snapshot is gone back to that had a value recorded.

Each operation is looked at by itself (`Moment.Obeys.becomes`), and along a run a value that is
recorded stays to the end (`Course.value_stays`).
-/

namespace EvmInspect.Ledger

open State (Moment Operation)

/-! ## Accounts and worlds -/

section World

variable {a b : Address} {key : Word} {first : Option Bytes}

/-- Changing an account takes no record away and fills none in. -/
theorem Touch.firstValues_change (t : Touch) {account : Account}
    (recorded : account.firstValues.get? key = some first) :
    (t.change account).firstValues.get? key = some first := by
  cases t with
  | setStorage k value =>
    simp only [change]
    by_cases same : k = key
    · subst same
      rw [Account.firstValues_writeTracked_self, recorded]
      rfl
    · rw [Account.firstValues_writeTracked_of_ne _ _ same, recorded]
  | warmKeys keys => rw [(warmKeys_slots keys account).2, recorded]
  | _ => exact recorded

namespace World

variable {w : World}

theorem firstValue?_touch {f : Account → Account} (recorded : w.firstValue? a key = some first)
    (keeps : b = a → (w.accountD b).firstValues.get? key = some first →
      (f (w.accountD b)).firstValues.get? key = some first) :
    (w.touch b f).firstValue? a key = some first := by
  rw [firstValue?_eq] at recorded ⊢
  rw [accountD_touch]
  split
  next same =>
    subst same
    exact keeps rfl recorded
  next => exact recorded

/-- A write leaves the records of each account that it does not drop. -/
theorem firstValue?_write {change : Write} (recorded : w.firstValue? a key = some first)
    (kept : change ≠ .deleteAccount a) : (w.write change).firstValue? a key = some first := by
  refine write_keeps (P := fun w => w.firstValue? a key = some first) (fun s mem recorded => ?_)
    recorded
  cases s with
  | touch b t => exact firstValue?_touch recorded fun _ => t.firstValues_change
  | erase b =>
    have other : b ≠ a := by
      rintro rfl
      exact kept (Write.eq_deleteAccount mem)
    unfold firstValue? at recorded ⊢
    rw [step, account?_erase, if_neg other]
    exact recorded
  | setTransient b key value => exact recorded
  | clearTransient => exact recorded

/-- Over a live record, what is brought back is a value of it, or else what was captured. -/
theorem firstValue?_restore {captured live : World} (recorded : live.firstValue? a key = some first)
    (there : ((captured.restore live).account? a).isSome) :
    (captured.restore live).firstValue? a key =
      some (first.or ((captured.firstValue? a key).getD none)) := by
  rw [firstValue?_eq] at recorded
  unfold firstValue?
  rw [account?_restore] at there ⊢
  cases before : captured.account? a with
  | none =>
    rw [before] at there
    cases there
  | some old =>
    simp only [Option.map_some, Option.bind_some]
    rw [Account.firstValues_restore, recorded]
    cases old.firstValues.get? key with
    | none => cases first <;> rfl
    | some captured => rfl

end World

end World

namespace State

variable {a : Address} {key : Word} {first : Option Bytes}

/-! ## Reading -/

section Reading

variable {replies : Replies} {l l' : State}

/-- An answer about anything but the slot leaves its record alone. -/
theorem firstValue?_keep {q : Query} (v : q.Answer) (other : q ≠ .slot a key)
    (recorded : l.firstValue? a key = some first) :
    (l.keep q v).firstValue? a key = some first := by
  cases q with
  | slot b k =>
    refine World.firstValue?_touch recorded fun same before => ?_
    have apart : k ≠ key := fun same' => other (by rw [same, same'])
    rw [Account.recordFetched, KeyMap.get?_insert_of_ne _ _ apart, before]
  | blockHash number => exact recorded
  | _ => exact World.firstValue?_touch recorded fun _ before => before

/-- An answer about the slot is recorded where no value was. -/
theorem firstValue?_keep_slot (v : Bytes) (recorded : l.firstValue? a key = some first) :
    (l.keep (.slot a key) v).firstValue? a key = some (first.or (some v)) := by
  rw [firstValue?_eq] at recorded ⊢
  simp only [keep, World.accountD_touch, if_true, Account.recordFetched,
    KeyMap.get?_insert_self, recorded, Option.getD_some]

theorem Reads.firstValue? {q : Query} {r : Except LedgerError q.Answer}
    (h : Reads replies q l r l') (other : q ≠ .slot a key)
    (recorded : l.firstValue? a key = some first) : l'.firstValue? a key = some first := by
  cases h with
  | held _ => exact recorded
  | fetched _ _ => exact firstValue?_keep _ other recorded
  | failed _ _ => exact recorded

theorem ReadsAll.firstValue? {qs : List Query} {r : Except LedgerError Unit}
    (h : ReadsAll replies qs l r l') (others : ∀ q ∈ qs, q ≠ .slot a key)
    (recorded : l.firstValue? a key = some first) : l'.firstValue? a key = some first := by
  induction h with
  | nil => exact recorded
  | cons now _ ih =>
    obtain ⟨other, later⟩ := List.forall_mem_cons.mp others
    exact ih later (now.firstValue? other recorded)
  | stop now => exact now.firstValue? (others _ List.mem_cons_self) recorded

/-- Loading an account asks for none of its slots. -/
theorem ne_slot_of_loaded {b : Address} :
    ∀ q ∈ [Query.balance b, .nonce b, .code b], q ≠ .slot a key := by
  simp

theorem firstValue?_dropSnapshot (l : State) (id : Nat) :
    (l.dropSnapshot id).firstValue? a key = l.firstValue? a key := by
  rw [State.firstValue?, world_dropSnapshot, State.firstValue?]

end Reading

/-! ## One operation -/

/-- What may become of the record of a slot in an operation: it stays, or it gets its value, as
the answer to the one question that this read of the slot puts, or from the snapshot that is gone
back to. -/
inductive Moment.Becomes (replies : Replies) (a : Address) (key : Word) (x : Moment) :
    (before after : Option Bytes) → Prop
  | stays (record) : Becomes replies a key x record record
  | fetched {v} : x.operation = .read (.slot a key) → x.fetches = [⟨.slot a key, true⟩] →
      replies (.slot a key) (.ok v) → x.outcome = .ok (.bytes v) →
      Becomes replies a key x none (some v)
  | broughtBack {snapshot v} : snapshot ∈ x.before.snapshots → x.operation = .revert snapshot.id →
      snapshot.world.firstValue? a key = some (some v) → Becomes replies a key x none (some v)

section Step

variable {replies : Replies} {x : Moment}

/-- A value that is recorded becomes nothing else. -/
theorem Moment.Becomes.value {v : Bytes} {now : Option Bytes}
    (h : x.Becomes replies a key (some v) now) : now = some v := by
  cases h with
  | stays => rfl

/-- A read that changes its ledger has put its question and got an answer. -/
theorem Asks.eq_of_changed {l l' : State} {fs : List Fetch} {q : Query} (h : Asks l fs l')
    (own : (fs.map Fetch.query).Sublist [q]) (changed : l' ≠ l) : fs = [⟨q, true⟩] := by
  have few : fs.length ≤ 1 := by simpa using own.length_le
  cases fs with
  | nil =>
    cases h
    exact absurd rfl changed
  | cons fetch others =>
    have alone : others = [] :=
      List.eq_nil_of_length_eq_zero (Nat.le_zero.mp (Nat.le_of_succ_le_succ few))
    subst alone
    cases h with
    | failed _ rest =>
      cases rest
      exact absurd rfl changed
    | @answered _ p _ _ _ _ _ =>
      have same : p = q := by simpa using own
      rw [same]

/-- The record of a slot whose account is still there after an operation is there too, and is
what it was or what the operation may make of it. -/
theorem Moment.Obeys.becomes (obeys : x.Obeys replies)
    (asks : ∀ q, x.operation = .read q → Asks x.before x.fetches x.after)
    (recorded : x.before.firstValue? a key = some first) (there : (x.after.account? a).isSome) :
    ∃ now, x.after.firstValue? a key = some now ∧ x.Becomes replies a key first now := by
  obtain ⟨op, before, fetches, outcome, after⟩ := x
  have own := obeys.own
  have performs := obeys.performs
  dsimp only at asks recorded there own performs
  cases performs with
  | @read q _ v _ reads =>
    by_cases asked : q = .slot a key
    · subst asked
      cases reads with
      | held _ => exact ⟨first, recorded, .stays _⟩
      | fetched absent reply =>
        refine ⟨_, firstValue?_keep_slot v recorded, ?_⟩
        cases first with
        | some old => exact .stays _
        | none =>
          refine .fetched rfl ?_ reply rfl
          refine (asks _ rfl).eq_of_changed own fun same => ?_
          have filled := firstValue?_keep_slot v recorded
          rw [same, recorded] at filled
          cases filled
    · exact ⟨first, reads.firstValue? asked recorded, .stays _⟩
  | readFails reads =>
    cases reads with
    | failed _ _ => exact ⟨first, recorded, .stays _⟩
  | load reads => exact ⟨first, reads.firstValue? ne_slot_of_loaded recorded, .stays _⟩
  | loadFails reads => exact ⟨first, reads.firstValue? ne_slot_of_loaded recorded, .stays _⟩
  | write change =>
    have kept : change ≠ .deleteAccount a := by
      rintro rfl
      have gone : (before.world.write (.deleteAccount a)).account? a = none := by
        rw [World.write, World.account?_erase, if_pos rfl]
      have there : ((before.world.write (.deleteAccount a)).account? a).isSome := there
      rw [gone] at there
      cases there
    exact ⟨first, World.firstValue?_write recorded kept, .stays _⟩
  | takeSnapshot => exact ⟨first, recorded, .stays _⟩
  | @revert id _ _ back =>
    obtain ⟨snapshot, older, found, rfl⟩ := revert_eq_ok back
    obtain ⟨same, _⟩ := findSnapshot?_eq_some found
    refine ⟨_, World.firstValue?_restore recorded there, ?_⟩
    cases first with
    | some old => exact .stays _
    | none =>
      rw [Option.none_or]
      cases captured : snapshot.world.firstValue? a key with
      | none => exact .stays _
      | some record =>
        cases record with
        | none => exact .stays _
        | some v =>
          exact .broughtBack (mem_of_findSnapshot? found) (congrArg Operation.revert same.symm)
            captured
  | revertFails _ => exact ⟨first, recorded, .stays _⟩
  | commit id => exact ⟨first, (firstValue?_dropSnapshot before id).trans recorded, .stays _⟩
  | discard id => exact ⟨first, (firstValue?_dropSnapshot before id).trans recorded, .stays _⟩

end Step

/-! ## Along a run -/

section Run

variable {σ : Type} (source : Source (StateM σ))

/-- What is asked in a read leads from the ledger before it to the one after it. -/
theorem asks_perform_read (q : Query) (l : State) (s : σ) {fetches : List Fetch}
    (took : ((l.perform source.recording (.read q)).run (s, [])).2.2 = fetches) :
    Asks l fetches ((l.perform source (.read q)).run s).1.2 := by
  obtain ⟨new, same, asks, _⟩ := read_recording source l s q
  subst took
  simp only [perform, StateT.run_bind, same]
  cases hs : (l.read source q).run s with
  | mk p s' =>
    obtain ⟨r, m⟩ := p
    rw [hs] at asks
    cases r with
    | ok v => exact asks
    | error e => exact asks

theorem asks_of_read {q : Query} (ops : List Operation) (l : State) (s : σ) :
    ∀ x ∈ history source ops l s, x.operation = .read q → Asks x.before x.fetches x.after := by
  induction ops generalizing l s with
  | nil => exact fun _ mem => nomatch mem
  | cons op ops ih =>
    obtain ⟨fetches, split, same, _⟩ := history_cons source op ops l s
    rw [split]
    refine List.forall_mem_cons.mpr ⟨fun reads => ?_, ih _ _⟩
    have reads : op = .read q := reads
    subst reads
    exact asks_perform_read source q l s (by rw [same, List.nil_append])

/-- A recorded value is there at the end of a course along which its account stays. -/
theorem Course.value_stays {replies : Replies} {l l' : State} {xs : List Moment} {v : Bytes}
    (h : Course replies l xs l')
    (asks : ∀ x ∈ xs, ∀ q, x.operation = .read q → Asks x.before x.fetches x.after)
    (there : ∀ x ∈ xs, (x.after.account? a).isSome)
    (recorded : l.firstValue? a key = some (some v)) : l'.firstValue? a key = some (some v) := by
  induction h with
  | nil => exact recorded
  | cons obeys _ ih =>
    obtain ⟨asksNow, asksLater⟩ := List.forall_mem_cons.mp asks
    obtain ⟨thereNow, thereLater⟩ := List.forall_mem_cons.mp there
    obtain ⟨now, record, becomes⟩ := obeys.becomes asksNow recorded thereNow
    rw [becomes.value] at record
    exact ih asksLater thereLater record

/-- In every operation of a run, whatever ledger it starts from, the record of a slot is still
there if its account is: a value that is recorded stays, and a record without one either stays or
gets the value that this very read was answered with, or the one that the snapshot had which is
gone back to. So a recorded value is there at the end of a run along which its account stays. -/
theorem first_values_write_once (ops : List Operation) (l : State) (s : σ) (a : Address)
    (key : Word) :
    (∀ x ∈ history source ops l s, ∀ first, x.before.firstValue? a key = some first →
      (x.after.account? a).isSome →
        ∃ now, x.after.firstValue? a key = some now ∧
          x.Becomes source.replies a key first now) ∧
      ∀ v, l.firstValue? a key = some (some v) →
        (∀ x ∈ history source ops l s, (x.after.account? a).isSome) →
          (State.after source ops l s).firstValue? a key = some (some v) := by
  have course := course_history source source.gives_replies ops l s
  have asks : ∀ x ∈ history source ops l s, ∀ q, x.operation = .read q →
      Asks x.before x.fetches x.after := fun x mem _ => asks_of_read source ops l s x mem
  constructor
  · intro x mem first recorded there
    exact (course.obeys x mem).becomes (asks x mem) recorded there
  · intro v recorded there
    exact course.value_stays asks there recorded

end Run

/-- A slot is written before anything is known of it, the write is taken back, and only then is
the slot read: its record gets the chain's value, and keeps it through another frame. -/
theorem blind_write_is_filled_once :
    let a := Address.ofNat 1
    let account : ChainAccount := { storage := .insert .empty 0 9 }
    let source : Source (StateM Unit) := Chain.source { accounts := .insert .empty a account }
    let blind := State.after source [.write (.setNonce a 1), .takeSnapshot,
      .write (.setStorage a 0 [1]), .revert 1] .empty ()
    let fetched := State.after source [.read (.slot a 0)] blind ()
    let frame := [.write (.setStorage a 0 [2]), .takeSnapshot, .write (.upsertStorage a 0 [3]),
      .revert 2]
    Reachable blind ∧ blind.firstValue? a 0 = some none ∧
      (∃ x ∈ history source [.read (.slot a 0)] blind (), x.after = fetched ∧
        x.Becomes source.replies a 0 none (some (Word.toBytes 9))) ∧
      (∀ x ∈ history source frame fetched (), (x.after.account? a).isSome) ∧
      (State.after source frame fetched ()).firstValue? a 0 = some (some (Word.toBytes 9)) := by
  intro a account source blind fetched frame
  have reach : Reachable blind := ⟨Unit, source, _, (), rfl⟩
  have absent : blind.firstValue? a 0 = some none := by decide
  have recorded : fetched.firstValue? a 0 = some (some (Word.toBytes 9)) := by decide
  have filled : ∃ x ∈ history source [.read (.slot a 0)] blind (), x.after = fetched ∧
      x.Becomes source.replies a 0 none (some (Word.toBytes 9)) := by
    let x : Moment := ⟨.read (.slot a 0), blind, [⟨.slot a 0, true⟩],
      .ok (.bytes (Word.toBytes 9)), fetched⟩
    have mem : x ∈ history source [.read (.slot a 0)] blind () := List.mem_cons_self
    obtain ⟨now, record, becomes⟩ :=
      (first_values_write_once source _ blind () a 0).1 x mem none absent (by decide)
    obtain rfl := Option.some.inj (record.symm.trans recorded)
    exact ⟨x, mem, rfl, becomes⟩
  have there : ∀ x ∈ history source frame fetched (), (x.after.account? a).isSome := by decide
  exact ⟨reach, absent, filled, there,
    (first_values_write_once source frame fetched () a 0).2 _ recorded there⟩

end State

end EvmInspect.Ledger
