import EvmInspect.Proofs.Bytes.Integers
import EvmInspect.Proofs.Ledger.Conservation

/-!
# Totals

The total of an account is an integer: the balance on the chain, or zero while that is not known,
and the sum of the deltas that were applied. Nothing wraps on the way, so a total may be below
zero or beyond all words, and it has a word exactly if it is neither (`Account.Totals`).

Which deltas count is said twice. `Account.Past` is all that can happen to a single account: it is
changed, answers of the chain are kept in it, and it is brought back as it was captured, with the
deltas it had then. In a run of a ledger they are the deltas that surviving operations applied to
the account since it was last dropped (`State.standing`).
-/

namespace EvmInspect.Ledger

/-- The balance on the chain as an integer, zero while it is not known. -/
def onChain (balance : Option Word) : Int := (balance.map fun w => (w.toNat : Int)).getD 0

/-- The total of an account is the balance on the chain and the deltas, and it has a word exactly
if these make one. -/
structure Account.Totals (account : Account) (balance : Option Word) (deltas : List Int) :
    Prop where
  exact : account.total = onChain balance + deltas.sum
  fits : (Word.ofInt? account.total).isSome ↔
    0 ≤ onChain balance + deltas.sum ∧ onChain balance + deltas.sum < (Nat.pow 2 256 : Nat)
  word : ∀ w, Word.ofInt? account.total = some w ↔
    (w.toNat : Int) = onChain balance + deltas.sum

theorem Account.total_eq (account : Account) :
    account.total = onChain account.chainBalance + account.delta := by
  rw [total, onChain, funext Word.unsigned_eq_toNat]

theorem Account.totals {account : Account} {deltas : List Int}
    (sum : account.delta = deltas.sum) : account.Totals account.chainBalance deltas := by
  have exact := account.total_eq
  rw [sum] at exact
  refine ⟨exact, ?_, fun w => ?_⟩
  · rw [exact]
    exact Word.isSome_ofInt?_iff
  · rw [exact, ← Word.unsigned_eq_toNat]
    exact Word.ofInt?_eq_some_iff

/-! ## A single account -/

/-- The deltas that a change applies. -/
def Touch.deltas : Touch → List Int
  | addDelta amount => [amount]
  | _ => []

theorem Touch.sum_deltas (t : Touch) : t.deltas.sum = t.amount := by
  cases t with
  | addDelta amount => exact List.sum_singleton
  | _ => rfl

theorem Touch.chainBalance_change (t : Touch) (account : Account) :
    (t.change account).chainBalance = account.chainBalance := by
  cases t with
  | warmKeys keys => exact warmKeys_same (fun _ _ => rfl) keys account
  | _ => rfl

/-- How an account came to be what it is. -/
inductive Account.Past where
  | new (address : Address)
  /-- It was changed. A nonce or a code of the chain is kept as one that is set. -/
  | touched (before : Past) (t : Touch)
  /-- The balance on the chain was fetched, for the first time or again. -/
  | balanceFetched (before : Past) (balance : Word)
  | slotFetched (before : Past) (key : Word) (value : Bytes)
  /-- It was brought back as captured, in place of what it was at the time. -/
  | broughtBack (captured live : Past)

namespace Account.Past

def account : Past → Account
  | new address => .empty address
  | touched before t => t.change before.account
  | balanceFetched before balance => { before.account with chainBalance := some balance }
  | slotFetched before key value => before.account.recordFetched key value
  | broughtBack captured live => captured.account.restore live.account

/-- The balance that was fetched last; what was fetched since is kept when an account without it
is brought back. -/
def balance : Past → Option Word
  | new _ => none
  | touched before _ => before.balance
  | balanceFetched _ balance => some balance
  | slotFetched before _ _ => before.balance
  | broughtBack captured live => captured.balance.or live.balance

/-- The deltas that were applied, but for those since it was captured if it was brought back. -/
def deltas : Past → List Int
  | new _ => []
  | touched before t => before.deltas ++ t.deltas
  | balanceFetched before _ => before.deltas
  | slotFetched before _ _ => before.deltas
  | broughtBack captured _ => captured.deltas

theorem chainBalance_account (p : Past) : p.account.chainBalance = p.balance := by
  induction p with
  | new address => rfl
  | touched before t ih => rw [account, t.chainBalance_change, ih, balance]
  | balanceFetched before balance _ => rfl
  | slotFetched before key value ih => exact ih
  | broughtBack captured live ihCaptured ihLive =>
    rw [account, restore, balance, ← ihCaptured, ← ihLive]

theorem delta_account (p : Past) : p.account.delta = p.deltas.sum := by
  induction p with
  | new address => rfl
  | touched before t ih =>
    rw [account, t.delta_change, ih, deltas, List.sum_append, t.sum_deltas]
  | balanceFetched before balance ih => exact ih
  | slotFetched before key value ih => exact ih
  | broughtBack captured live ih _ => exact ih

end Account.Past

/-! ## The accounts of a ledger -/

/-- The deltas that a write applies to an account. A transfer takes from one account what it gives
to another. -/
def Write.deltas (a : Address) : Write → List Int
  | addDelta b amount => if b = a then [amount] else []
  | transfer sender receiver value =>
    (if sender = a then [-(value.toNat : Int)] else []) ++
      if receiver = a then [(value.toNat : Int)] else []
  | _ => []

/-- What a step adds to the delta of an account. -/
def Step.amountAt (a : Address) : Step → Int
  | touch b t => if b = a then t.amount else 0
  | _ => 0

theorem Write.sum_amountAt (a : Address) (change : Write) :
    (change.steps.map (Step.amountAt a)).sum = (change.deltas a).sum := by
  cases change with
  | addDelta b amount =>
    simp only [steps, deltas, List.map_cons, List.map_nil, Step.amountAt, Touch.amount]
    split <;> rfl
  | transfer sender receiver value =>
    simp only [steps, deltas, Word.unsigned_eq_toNat]
    -- a transfer of nothing has no steps: its deltas are zeros
    by_cases none : value = 0
    · have zero : value.toNat = 0 := congrArg BitVec.toNat none
      rw [if_pos none, zero]
      split <;> split <;> rfl
    · rw [if_neg none]
      simp only [List.map_cons, List.map_nil, Step.amountAt, Touch.amount, List.sum_append,
        List.sum_cons, List.sum_nil]
      split <;> split <;> simp
  | warmPrecompiles => simp [steps, deltas, Step.amountAt, Touch.amount, Function.comp_def]
  | accessList items => simp [steps, deltas, Step.amountAt, Touch.amount, Function.comp_def]
  | _ => simp [steps, deltas, Step.amountAt, Touch.amount]

namespace World

variable {a : Address}

theorem delta_step {s : Step} (w : World) (kept : s ≠ .erase a) :
    ((w.step s).accountD a).delta = (w.accountD a).delta + s.amountAt a := by
  cases s with
  | touch b t =>
    simp only [step, accountD_touch, Step.amountAt]
    split
    next same =>
      subst same
      exact t.delta_change _
    next => exact (Int.add_zero _).symm
  | erase b =>
    have other : b ≠ a := fun same => kept (congrArg _ same)
    rw [step, accountD_erase, if_neg other]
    exact (Int.add_zero _).symm
  | setTransient b key value => exact (Int.add_zero _).symm
  | clearTransient => exact (Int.add_zero _).symm

theorem delta_write {change : Write} (w : World) (kept : change ≠ .deleteAccount a) :
    ((w.write change).accountD a).delta = (w.accountD a).delta + (change.deltas a).sum := by
  have spared : ∀ s ∈ change.steps, s ≠ .erase a := by
    rintro s mem rfl
    exact kept (Write.eq_deleteAccount mem)
  rw [← change.sum_amountAt a]
  exact write_adds (fun w => (w.accountD a).delta) w fun s mem w => w.delta_step (spared s mem)

/-- Going back brings the captured delta back, and drops an account that was not captured. -/
theorem delta_restore (captured live : World) :
    ((captured.restore live).accountD a).delta = (captured.accountD a).delta := by
  simp only [accountD, account?_restore]
  cases captured.account? a with
  | none => rfl
  | some account => rfl

end World

theorem State.delta_keep (a : Address) (l : State) (q : Query) (v : q.Answer) :
    ((l.keep q v).world.accountD a).delta = (l.world.accountD a).delta := by
  cases q with
  | blockHash number => rfl
  | _ =>
    simp only [keep, World.accountD_touch]
    split
    next same =>
      subst same
      rfl
    next => rfl

namespace State

/-- Whether an operation drops an account. -/
def Operation.drops (a : Address) : Operation → Bool
  | .write (.deleteAccount b) => b = a
  | _ => false

theorem Operation.drops_iff {a : Address} {op : Operation} :
    op.drops a = true ↔ op = .write (.deleteAccount a) := by
  cases op with
  | write change => cases change <;> simp [drops]
  | _ => simp [drops]

/-- The deltas that an operation applies to an account. -/
def Operation.deltas (a : Address) : Operation → List Int
  | .write change => change.deltas a
  | _ => []

/-- The deltas of an account that moments leave standing: an account that is dropped begins again
with none. -/
def standing (a : Address) (xs : List Moment) : List Int :=
  xs.foldl (fun deltas x => if x.operation.drops a then [] else deltas ++ x.operation.deltas a) []

/-- The delta of an account after one more moment. -/
def deltaAfter (a : Address) (delta : Int) (x : Moment) : Int :=
  if x.operation.drops a then 0 else delta + (x.operation.deltas a).sum

theorem sum_standing (a : Address) (xs : List Moment) :
    (standing a xs).sum = xs.foldl (deltaAfter a) 0 := by
  refine (List.foldl_hom List.sum fun deltas x => ?_).symm
  unfold deltaAfter
  split
  next => rfl
  next => rw [List.sum_append]

/-- An operation applies its deltas to the account, which it may also drop. -/
theorem Performs.moves_delta {replies : Replies} {op : Operation} {l l' : State}
    {r : Except LedgerError Outcome} (h : Performs replies op l r l') (a : Address)
    (fetches : List Fetch) :
    Moment.Moves (fun w => (w.accountD a).delta) (deltaAfter a) ⟨op, l, fetches, r, l'⟩ := by
  refine h.moves_of_write fetches (delta_keep a) (fun change same => ?_) fun reads delta => ?_
  · subst same
    by_cases dropped : change = .deleteAccount a
    · subst dropped
      have gone : ((l.world.write (.deleteAccount a)).accountD a).delta = 0 := by
        rw [World.write, World.accountD_erase, if_pos rfl]
        rfl
      rw [gone, deltaAfter, if_pos (Operation.drops_iff.mpr rfl)]
    · have kept : ¬ (Operation.write change).drops a = true :=
        fun drops => dropped (Operation.write.inj (Operation.drops_iff.mp drops))
      rw [l.world.delta_write dropped, deltaAfter, if_neg kept]
      rfl
  · cases op with
    | write change => exact absurd rfl (reads change)
    | _ => exact Int.add_zero delta

/-- After a run the delta of an account is the sum of those that stand. -/
theorem delta_after {σ : Type} (source : Source (StateM σ)) (ops : List Operation) (s : σ)
    (a : Address) :
    ((State.after source ops .empty s).world.accountD a).delta =
      (standing a (surviving [] (history source ops .empty s))).sum := by
  have course := course_history source source.gives_any ops .empty s
  rw [sum_standing]
  exact course.view_eq World.delta_restore
    fun x mem => (course.obeys x mem).performs.moves_delta a x.fetches

end State

/-- Words and integers are turned into each other without loss: the integer of a word is its
number, and an integer has a word exactly if it is neither negative nor 2^256 or more. So totals
never wrap, neither that of an account with any past nor that of an account in a ledger after any
run: it is the balance on the chain and the sum of the deltas, whether that is a word or not. -/
theorem totals_never_wrap :
    (∀ w : Word, w.unsigned = (w.toNat : Int) ∧ Word.ofInt? w.unsigned = some w) ∧
    (∀ n : Int, ((Word.ofInt? n).isSome ↔ 0 ≤ n ∧ n < (Nat.pow 2 256 : Nat)) ∧
      ∀ w, Word.ofInt? n = some w ↔ w.unsigned = n) ∧
    (∀ p : Account.Past, p.account.Totals p.balance p.deltas) ∧
    (∀ {σ : Type} (source : Source (StateM σ)) (ops : List State.Operation) (s : σ) (a : Address),
      let l := State.after source ops .empty s
      (l.world.accountD a).Totals (l.held? (.balance a))
        (State.standing a (State.surviving [] (State.history source ops .empty s)))) := by
  refine ⟨fun w => ⟨w.unsigned_eq_toNat, w.ofInt?_unsigned⟩,
    fun n => ⟨Word.isSome_ofInt?_iff, fun w => Word.ofInt?_eq_some_iff⟩, fun p => ?_, ?_⟩
  · rw [← p.chainBalance_account]
    exact Account.totals p.delta_account
  · intro σ source ops s a l
    rw [l.held?_balance]
    exact Account.totals (State.delta_after source ops s a)

/-- A total may lie beyond all words, and comes back from there. -/
example :
    let full := Account.Past.balanceFetched (.new (Address.ofNat 1)) (BitVec.allOnes 256)
    let beyond := full.touched (.addDelta 1)
    let back := beyond.touched (.addDelta (-1))
    beyond.account.total = (Nat.pow 2 256 : Nat) ∧ Word.ofInt? beyond.account.total = none ∧
      Word.ofInt? back.account.total = some (BitVec.allOnes 256) := by decide

end EvmInspect.Ledger
