import EvmInspect.Ledger.Changes
import EvmInspect.Proofs.Ledger.Steps
import EvmInspect.Proofs.Ledger.Survival
import Mathlib.Algebra.BigOperators.Group.List.Basic
import Mathlib.Algebra.Ring.Int.Defs

/-!
# Value is conserved

The net delta of a world is the sum of the deltas of all its accounts. A transfer adds to one
account what it takes from another, or from the same, so it leaves the net delta alone; going
back brings back the delta of each account that was captured and drops the other accounts, so
it brings back the net delta. What remains are the deltas that were applied and not undone
(`run_conserves`), unless an account is dropped with its delta.
-/

namespace EvmInspect

namespace KeyMap

variable {κ α : Type} [Rank κ]

/-- Putting an entry into an ordered list takes out of a sum what stood there under its key. -/
theorem sum_insertIn (weight : α → Int) (k : κ) (v : α) {es : List (κ × α)}
    (ordered : es.Pairwise fun a b => Rank.rank a.1 < Rank.rank b.1) :
    ((insertIn k v es).map fun e => weight e.2).sum =
      (es.map fun e => weight e.2).sum - ((findIn k es).map weight).getD 0 + weight v := by
  induction es with
  | nil => simp [insertIn, findIn]
  | cons head rest ih =>
    obtain ⟨first, tail⟩ := List.pairwise_cons.mp ordered
    unfold insertIn
    split
    next before =>
      have absent : findIn k (head :: rest) = none := by
        refine findIn_eq_none (List.forall_mem_cons.mpr ⟨Nat.ne_of_gt before, fun e mem => ?_⟩)
        exact Nat.ne_of_gt (Nat.lt_trans before (first e mem))
      simp only [absent, List.map_cons, List.sum_cons, Option.map_none, Option.getD_none]
      omega
    next =>
      split
      next here =>
        simp only [findIn, if_pos here.symm, List.map_cons, List.sum_cons, Option.map_some,
          Option.getD_some]
        omega
      next other =>
        have passed : ¬ Rank.rank head.1 = Rank.rank k := fun same => other same.symm
        simp only [findIn, if_neg passed, List.map_cons, List.sum_cons, ih tail]
        omega

/-- Putting an entry takes out of a sum what stood there under its key. -/
theorem sum_insert (weight : α → Int) (m : KeyMap κ α) (k : κ) (v : α) :
    ((m.insert k v).toList.map fun e => weight e.2).sum =
      (m.toList.map fun e => weight e.2).sum - ((m.get? k).map weight).getD 0 + weight v :=
  sum_insertIn weight k v m.ordered

end KeyMap

namespace Ledger

/-- The sum of the changes of balance. -/
def World.netDelta (w : World) : Int := (w.balanceChanges.map BalanceChange.delta).sum

/-! ## What is applied -/

/-- What a change adds to the delta of its account. -/
def Touch.amount : Touch → Int
  | addDelta amount => amount
  | _ => 0

/-- What a step adds to the net delta. -/
def Step.amount : Step → Int
  | touch _ t => t.amount
  | _ => 0

/-- The delta that a write applies. A transfer applies none: it moves value. -/
def Write.amount : Write → Int
  | addDelta _ amount => amount
  | _ => 0

/-- The delta that an operation applies. -/
def State.Operation.amount : State.Operation → Int
  | write change => change.amount
  | _ => 0

theorem Touch.delta_change (t : Touch) (account : Account) :
    (t.change account).delta = account.delta + t.amount := by
  cases t with
  | addDelta amount => rfl
  | warmKeys keys =>
    rw [warmKeys_same (f := Account.delta) (fun _ _ => rfl)]
    exact (Int.add_zero _).symm
  | _ => exact (Int.add_zero _).symm

/-- What is taken from one account is given to another, or to the same. -/
theorem Step.sum_moved (sender receiver : Address) (moved : Int) :
    ([Step.touch sender (.addDelta (-moved)), .touch receiver (.addDelta moved)].map
      Step.amount).sum = 0 := by
  simp [amount, Touch.amount]

/-- The steps of a write add to the net delta what the write applies. -/
theorem Write.sum_steps (change : Write) : (change.steps.map Step.amount).sum = change.amount := by
  cases change with
  | transfer sender receiver value =>
    simp only [steps]
    split
    next => rfl
    next => exact Step.sum_moved sender receiver value.unsigned
  | warmPrecompiles =>
    simp [steps, Step.amount, Touch.amount, amount, Function.comp_def]
  | accessList items =>
    simp [steps, Step.amount, Touch.amount, amount, Function.comp_def]
  | _ => simp [steps, Step.amount, Touch.amount, amount]

/-! ## The net delta -/

namespace World

/-- Accounts that are not listed have no delta to add. -/
theorem netDelta_eq (w : World) : w.netDelta = (w.accounts.toList.map fun e => e.2.delta).sum := by
  unfold netDelta balanceChanges
  rw [((List.mergeSort_perm _ _).map BalanceChange.delta).sum_eq]
  induction w.accounts.toList with
  | nil => rfl
  | cons entry rest ih =>
    rw [List.filterMap_cons, List.map_cons, List.sum_cons, ← ih, Account.balanceChange?]
    by_cases still : entry.2.delta = 0
    · simp [still]
    · simp [still]

theorem netDelta_empty : World.empty.netDelta = 0 := by
  rw [netDelta_eq]
  rfl

theorem netDelta_touch (w : World) (a : Address) (change : Account → Account) :
    (w.touch a change).netDelta =
      w.netDelta - (w.accountD a).delta + (change (w.accountD a)).delta := by
  have before : ((w.accounts.get? a).map Account.delta).getD 0 = (w.accountD a).delta := by
    unfold accountD account?
    cases w.accounts.get? a <;> rfl
  rw [netDelta_eq, netDelta_eq, ← before]
  exact KeyMap.sum_insert Account.delta w.accounts a _

theorem netDelta_step {s : Step} (w : World) (kept : ∀ a, s ≠ .erase a) :
    (w.step s).netDelta = w.netDelta + s.amount := by
  cases s with
  | touch a t =>
    simp only [step, netDelta_touch, t.delta_change, Step.amount]
    omega
  | erase a => exact absurd rfl (kept a)
  | setTransient a key value => exact (Int.add_zero _).symm
  | clearTransient => exact (Int.add_zero _).symm

/-- What each step adds to a measure is added by the write. -/
theorem write_adds (measure : World → Int) {amount : Step → Int} {change : Write} (w : World)
    (adds : ∀ s ∈ change.steps, ∀ w : World, measure (w.step s) = measure w + amount s) :
    measure (w.write change) = measure w + (change.steps.map amount).sum := by
  rw [write_eq_steps]
  generalize change.steps = steps at adds
  induction steps generalizing w with
  | nil => exact (Int.add_zero _).symm
  | cons s rest ih =>
    obtain ⟨now, later⟩ := List.forall_mem_cons.mp adds
    rw [List.foldl_cons, ih _ later, now, List.map_cons, List.sum_cons, Int.add_assoc]

/-- A write that drops no account adds what it applies. -/
theorem netDelta_write {change : Write} (w : World) (kept : ∀ a, change ≠ .deleteAccount a) :
    (w.write change).netDelta = w.netDelta + change.amount := by
  have spared : ∀ s ∈ change.steps, ∀ a, s ≠ .erase a := by
    rintro s mem a rfl
    exact kept a (Write.eq_deleteAccount mem)
  rw [← change.sum_steps]
  exact write_adds netDelta w fun s mem w => netDelta_step w (spared s mem)

/-- Going back brings the captured deltas back, and no others. -/
theorem netDelta_restore (captured live : World) :
    (captured.restore live).netDelta = captured.netDelta := by
  simp only [netDelta_eq, restore, KeyMap.map, List.map_map]
  exact congrArg List.sum (List.map_congr_left fun _ _ => rfl)

end World

/-- No answer of the chain changes what execution added. -/
theorem State.netDelta_keep (l : State) (q : Query) (v : q.Answer) :
    (l.keep q v).world.netDelta = l.world.netDelta := by
  cases q with
  | blockHash number => rfl
  | _ =>
    simp only [keep, World.netDelta_touch, Account.recordFetched]
    omega

namespace State

/-- The delta that a moment applied. -/
def Moment.amount (x : Moment) : Int := x.operation.amount

/-- An operation that drops no account adds what it applies to the net delta. -/
theorem Performs.moves {replies : Replies} {op : Operation} {l l' : State}
    {r : Except LedgerError Outcome} (h : Performs replies op l r l')
    (kept : ∀ a, op ≠ .write (.deleteAccount a)) (fetches : List Fetch) :
    Moment.Moves World.netDelta (fun net x => net + x.amount) ⟨op, l, fetches, r, l'⟩ := by
  refine h.moves_of_write fetches netDelta_keep (fun change same => ?_) fun reads net => ?_
  · have spared : ∀ a, change ≠ .deleteAccount a :=
      fun a dropped => kept a (same.trans (congrArg _ dropped))
    subst same
    exact l.world.netDelta_write spared
  · cases op with
    | write change => exact absurd rfl (reads change)
    | _ => exact Int.add_zero net

theorem Operation.amount_eq_zero {op : Operation} (none : ∀ a n, op ≠ .write (.addDelta a n)) :
    op.amount = 0 := by
  cases op with
  | write change =>
    cases change with
    | addDelta a n => exact absurd rfl (none a n)
    | _ => rfl
  | _ => rfl

/-- Value is conserved: after a run in which no account is dropped, the changes of balance sum
up to the deltas that were applied by operations that survive. If none was applied, as when
value was only transferred, they sum up to zero. -/
theorem run_conserves {σ : Type} (source : Source (StateM σ)) (ops : List Operation)
    (kept : ∀ a, .write (.deleteAccount a) ∉ ops) (s : σ) :
    (State.after source ops .empty s).world.netDelta =
        ((surviving [] (history source ops .empty s)).map Moment.amount).sum ∧
      ((∀ a amount, .write (.addDelta a amount) ∉ ops) →
        (State.after source ops .empty s).world.netDelta = 0) := by
  have course := course_history source source.gives_any ops .empty s
  have performed : ∀ x ∈ history source ops .empty s, x.operation ∈ ops := by
    intro x mem
    have mapped := List.mem_map_of_mem (f := Moment.operation) mem
    rwa [map_operation_history] at mapped
  generalize history source ops .empty s = xs at course performed
  have total : (State.after source ops .empty s).world.netDelta =
      ((surviving [] xs).map Moment.amount).sum := by
    have moves : ∀ x ∈ xs, x.Moves World.netDelta fun net x => net + x.amount := by
      intro x mem
      have spared : ∀ a, x.operation ≠ .write (.deleteAccount a) :=
        fun a same => kept a (same ▸ performed x mem)
      exact (course.obeys x mem).performs.moves spared x.fetches
    have folded := course.view_eq World.netDelta_restore moves
    rw [World.netDelta_empty] at folded
    exact folded.trans (by simp only [List.sum_eq_foldl, List.foldl_map])
  refine ⟨total, fun none => ?_⟩
  rw [total]
  apply List.sum_eq_zero
  intro amount mem
  obtain ⟨x, survives, rfl⟩ := List.mem_map.mp mem
  have was := performed x ((surviving_sublist [] xs).subset survives)
  exact x.operation.amount_eq_zero fun a n same => none a n (same ▸ was)

/-- A frame with another one in it is taken back, with the delta that the inner one applied and
committed; and among transfers, one of an account to itself, one taken back and one of all that a
word can hold. -/
theorem frames_conserve :
    let source : Source (StateM Unit) := Chain.source {}
    let a := Address.ofNat 1
    let b := Address.ofNat 2
    let c := Address.ofNat 3
    let frames := [.write (.addDelta a 100), .takeSnapshot, .write (.transfer a b 30),
      .takeSnapshot, .write (.addDelta c 7), .commit 2, .write (.addDelta b 5), .revert 1,
      .write (.transfer a c 40), .write (.addDelta c (-20))]
    let transfers := [.write (.transfer a a 9), .takeSnapshot, .write (.transfer a b 30),
      .revert 1, .write (.transfer b c (-1))]
    (∀ d, .write (.deleteAccount d) ∉ frames) ∧
      (State.after source frames .empty ()).world.netDelta = 80 ∧
      (∀ d, .write (.deleteAccount d) ∉ transfers) ∧
      (∀ d amount, .write (.addDelta d amount) ∉ transfers) ∧
      (State.after source transfers .empty ()).world.netDelta = 0 := by
  intro source a b c frames transfers
  have spared : ∀ d, .write (.deleteAccount d) ∉ frames := by simp [frames]
  have spared' : ∀ d, .write (.deleteAccount d) ∉ transfers := by simp [transfers]
  have only : ∀ d amount, .write (.addDelta d amount) ∉ transfers := by simp [transfers]
  refine ⟨spared, ?_, spared', only, (run_conserves source transfers spared' ()).2 only⟩
  rw [(run_conserves source frames spared ()).1]
  decide

end State

end Ledger

end EvmInspect
