import EvmInspect.Proofs.Ledger.History
import EvmInspect.Proofs.Ledger.Numbering
import EvmInspect.Proofs.Ledger.Steps

/-!
# How long a slot stays warm

Reading, writing, warming, taking snapshots and dropping them leave a warm slot warm. Two
things cool it (`Moment.Cools`): going back to a snapshot that was taken while it was cold, and
dropping its account, for the warm slots of an account are part of it. Along a run a slot
stays warm exactly as long as neither happens (`stays_warm_iff`).

The address of a dropped account stays warm, its slots do not: `dropped_account_cools_slot` is
a run in which nothing is taken back and a warm slot is cold in the end.
-/

namespace EvmInspect.Ledger

open State (Moment Operation)

namespace World

variable {w : World} {a b : Address} {key : Word}

theorem isSlotWarm_eq (w : World) (a : Address) (key : Word) :
    w.isSlotWarm a key = (w.accountD a).warmKeys.contains key := by
  unfold isSlotWarm accountD
  cases w.account? a <;> rfl

/-- Changing an account cools no slot that the change leaves warm. -/
theorem isSlotWarm_touch {f : Account → Account} (warm : w.isSlotWarm a key = true)
    (keeps : (w.accountD b).warmKeys.contains key = true →
      (f (w.accountD b)).warmKeys.contains key = true) :
    (w.touch b f).isSlotWarm a key = true := by
  rw [isSlotWarm_eq] at warm ⊢
  rw [accountD_touch]
  split
  next same =>
    subst same
    exact keeps warm
  next => exact warm

/-- What is warm once a world is brought back is what was warm when it was captured. -/
theorem isSlotWarm_restore (captured live : World) (a : Address) (key : Word) :
    (captured.restore live).isSlotWarm a key = captured.isSlotWarm a key := by
  unfold isSlotWarm
  rw [account?_restore]
  cases captured.account? a with
  | none => rfl
  | some account => cases live.account? a <;> rfl

theorem isSlotWarm_erase (w : World) (a : Address) (key : Word) :
    (w.step (.erase a)).isSlotWarm a key = false := by
  rw [isSlotWarm, step, account?_erase, if_pos rfl]

end World

/-- Changing an account warms slots and cools none. -/
theorem Touch.contains_warmKeys (t : Touch) {account : Account} {key : Word}
    (warm : account.warmKeys.contains key = true) :
    (t.change account).warmKeys.contains key = true := by
  cases t with
  | warmKeys keys =>
    refine warmKeys_keeps (P := fun account => account.warmKeys.contains key = true)
      (fun _ _ warm => ?_) keys warm
    simp only [Account.warmKey, KeySet.contains_add, warm, Bool.or_true]
  | _ => exact warm

/-- The only write that cools a slot drops its account. -/
theorem World.isSlotWarm_write {w : World} {a : Address} {key : Word} {change : Write}
    (warm : w.isSlotWarm a key = true) (kept : change ≠ .deleteAccount a) :
    (w.write change).isSlotWarm a key = true := by
  refine World.write_keeps (P := fun w => w.isSlotWarm a key = true) (fun s mem warm => ?_) warm
  cases s with
  | touch b t => exact isSlotWarm_touch warm t.contains_warmKeys
  | erase b =>
    have other : b ≠ a := by
      rintro rfl
      exact kept (Write.eq_deleteAccount mem)
    unfold isSlotWarm at warm ⊢
    rw [step, account?_erase, if_neg other]
    exact warm
  | setTransient b key value => exact warm
  | clearTransient => exact warm

namespace State

variable {a : Address} {key : Word}

/-- Keeping a fetched answer neither warms nor cools a slot. -/
theorem isSlotWarm_keep {l : State} (q : Query) (v : q.Answer)
    (warm : l.world.isSlotWarm a key = true) : (l.keep q v).world.isSlotWarm a key = true := by
  cases q with
  | blockHash number => exact warm
  | _ => exact World.isSlotWarm_touch warm fun warm => warm

/-- The operation takes the warmth of a slot away: it drops the account of the slot, or it goes
back to a snapshot that was taken while the slot was cold. -/
inductive Cools (a : Address) (key : Word) (l : State) : Operation → Prop
  | drops : Cools a key l (.write (.deleteAccount a))
  | goesBack {snapshot} : snapshot ∈ l.snapshots → snapshot.world.isSlotWarm a key = false →
      Cools a key l (.revert snapshot.id)

section Step

variable {replies : Replies} {l l' : State}

theorem Reads.isSlotWarm {q : Query} {r : Except LedgerError q.Answer}
    (h : Reads replies q l r l') (warm : l.world.isSlotWarm a key = true) :
    l'.world.isSlotWarm a key = true :=
  h.keeps (P := fun l => l.world.isSlotWarm a key = true)
    (fun warm _ _ => isSlotWarm_keep _ _ warm) warm

theorem ReadsAll.isSlotWarm {qs : List Query} {r : Except LedgerError Unit}
    (h : ReadsAll replies qs l r l') (warm : l.world.isSlotWarm a key = true) :
    l'.world.isSlotWarm a key = true :=
  h.keeps (P := fun l => l.world.isSlotWarm a key = true)
    (fun warm _ _ => isSlotWarm_keep _ _ warm) warm

/-- A slot that was warm before an operation is warm after it exactly if it is not cooled. -/
theorem Performs.isSlotWarm_iff {op : Operation} {r : Except LedgerError Outcome}
    (h : Performs replies op l r l') (numbered : Numbered l.nextId l.snapshots)
    (warm : l.world.isSlotWarm a key = true) :
    l'.world.isSlotWarm a key = true ↔ ¬ Cools a key l op := by
  cases h with
  | read h => exact iff_of_true (h.isSlotWarm warm) nofun
  | readFails h => exact iff_of_true (h.isSlotWarm warm) nofun
  | load h => exact iff_of_true (h.isSlotWarm warm) nofun
  | loadFails h => exact iff_of_true (h.isSlotWarm warm) nofun
  | write change =>
    by_cases drops : change = .deleteAccount a
    · subst drops
      have cold : (l.world.write (.deleteAccount a)).isSlotWarm a key = false :=
        l.world.isSlotWarm_erase a key
      refine iff_of_false ?_ fun spared => spared .drops
      rw [cold]
      exact Bool.false_ne_true
    · refine iff_of_true (World.isSlotWarm_write warm drops) fun cools => ?_
      cases cools
      exact drops rfl
  | takeSnapshot => exact iff_of_true warm nofun
  | @revert id _ _ back =>
    obtain ⟨snapshot, older, found, rfl⟩ := revert_eq_ok back
    simp only [World.isSlotWarm_restore]
    constructor
    · intro warm cools
      cases cools with
      | goesBack mem cold =>
        rw [numbered.eq_of_found mem found, cold] at warm
        cases warm
    · intro spared
      obtain ⟨rfl, _⟩ := findSnapshot?_eq_some found
      by_contra cold
      exact spared (.goesBack (mem_of_findSnapshot? found) (Bool.eq_false_iff.mpr cold))
  | @revertFails id _ _ refused =>
    refine iff_of_true warm fun cools => ?_
    cases cools with
    | goesBack mem _ =>
      obtain ⟨_, _, _, back⟩ := numbered.revert_of_mem (mem_ids.mpr (List.mem_map_of_mem mem))
      rw [back] at refused
      cases refused
  | commit id =>
    rw [world_dropSnapshot]
    exact iff_of_true warm nofun
  | discard id =>
    rw [world_dropSnapshot]
    exact iff_of_true warm nofun

end Step

/-- Along a course, a slot that is warm at first is warm throughout exactly if no operation
cools it. -/
theorem Course.warm_iff {l l' : State} {xs : List Moment} (h : Course .any l xs l')
    (numbered : Numbered l.nextId l.snapshots) (warm : l.world.isSlotWarm a key = true) :
    (∀ x ∈ xs, x.after.world.isSlotWarm a key = true) ↔
      ∀ x ∈ xs, ¬ Cools a key x.before x.operation := by
  induction h with
  | nil => exact iff_of_true (List.forall_mem_nil _) (List.forall_mem_nil _)
  | cons obeys _ ih =>
    have step := obeys.performs.isSlotWarm_iff numbered warm
    rw [List.forall_mem_cons, List.forall_mem_cons, step]
    refine and_congr_right fun spared => ih ?_ (step.mpr spared)
    exact obeys.performs.keeps numbered_invariant trivial numbered

/-- From a reachable ledger on, a warm slot is warm after each operation of a run, and at its
end, exactly if none of the operations drops its account or goes back to a snapshot that was
taken while it was cold. -/
theorem stays_warm_iff {l : State} (reach : Reachable l) (warm : l.world.isSlotWarm a key = true)
    {σ : Type} (source : Source (StateM σ)) (ops : List Operation) (s : σ) :
    ((∀ x ∈ history source ops l s, x.after.world.isSlotWarm a key = true) ↔
        ∀ x ∈ history source ops l s, ¬ Cools a key x.before x.operation) ∧
      ((∀ x ∈ history source ops l s, ¬ Cools a key x.before x.operation) →
        (State.after source ops l s).world.isSlotWarm a key = true) := by
  have course := course_history source source.gives_any ops l s
  have exactly := course.warm_iff reach.numbered warm
  exact ⟨exactly, fun spared =>
    course.ends (P := fun l => l.world.isSlotWarm a key = true) warm (exactly.mpr spared)⟩

/-- A warm slot lasts through a frame that writes it, drops another account and is taken back. -/
theorem warm_slot_outlasts_frame :
    let source : Source (StateM Unit) := Chain.source {}
    let a := Address.ofNat 1
    let warmed := State.after source [.write (.warmSlot a 0), .takeSnapshot] .empty ()
    let frame := [.write (.setStorage a 0 [1]), .takeSnapshot, .read (.slot a 1),
      .write (.deleteAccount (Address.ofNat 2)), .commit 2, .revert 1]
    Reachable warmed ∧ warmed.world.isSlotWarm a 0 = true ∧
      (∀ x ∈ history source frame warmed (), ¬ Cools a 0 x.before x.operation) ∧
      (State.after source frame warmed ()).world.isSlotWarm a 0 = true := by
  intro source a warmed frame
  have reach : Reachable warmed := ⟨Unit, source, _, (), rfl⟩
  have warm : warmed.world.isSlotWarm a 0 = true := by decide
  obtain ⟨exactly, lasts⟩ := stays_warm_iff reach warm source frame ()
  have spared := exactly.mp (by decide)
  exact ⟨reach, warm, spared, lasts spared⟩

/-- Nothing is taken back: an account is dropped, and a warm slot of it is cold, though its
address is still warm. -/
theorem dropped_account_cools_slot :
    let source : Source (StateM Unit) := Chain.source {}
    let a := Address.ofNat 1
    let warmed := State.after source [.write (.warmSlot a 0)] .empty ()
    let dropped := State.after source [.write (.deleteAccount a)] warmed ()
    Reachable warmed ∧ warmed.world.isSlotWarm a 0 = true ∧
      dropped.world.isSlotWarm a 0 = false ∧ dropped.world.isWarm a = true := by
  intro source a warmed dropped
  exact ⟨⟨Unit, source, _, (), rfl⟩, by decide, by decide, by decide⟩

end State

end EvmInspect.Ledger
