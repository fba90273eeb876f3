import EvmInspect.Command.Account
import EvmInspect.Proofs.Ledger.Asking

/-!
# Reading an account

Reading an account is a list of steps over a ledger, some of which read again what was loaded
before. What it looks up is known from these steps alone (`looks_readAccount`), and with it what is
asked of a source: three values of the account and each slot once (`wanted_lookedUp`). What is
reported of the account is what the ledger holds in the end (`Holds`).
-/

namespace EvmInspect.Command

open Ledger (Query Source LedgerError Answered State)
open Ledger.State (Looks)

variable {σ α β : Type} {source : Source (StateM σ)}

/-- Steps over a ledger as a way to read from it. -/
def LedgerReading.steps (x : LedgerReading (StateM σ) α) : State.Reading σ α := fun l => x.run.run l

section Rules

variable {l : State} {ps qs : List Query} {result : α → State → Prop} {final : β → State → Prop}

theorem looks_bind {x : LedgerReading (StateM σ) α} {f : α → LedgerReading (StateM σ) β}
    (first : Looks source x.steps l ps result)
    (rest : ∀ v xs, xs.map Answered.query = l.wanted ps → result v (l.keepAll xs) →
      Looks source (f v).steps (l.keepAll xs) qs final) :
    Looks source (x >>= f).steps l (ps ++ qs) final := by
  have parts : (x >>= f).steps = x.steps.andThen fun v => (f v).steps := by
    funext l
    simp only [LedgerReading.steps, ExceptT.run_bind, StateT.run_bind, State.Reading.andThen]
    refine bind_congr fun read => ?_
    obtain ⟨outcome, l'⟩ := read
    cases outcome <;> rfl
  rw [parts]
  exact first.bind rest

theorem looks_return {v : α} (holds : result v l) :
    Looks source (pure v : LedgerReading (StateM σ) α).steps l [] result :=
  Ledger.State.looks_pure holds

/-- Nothing more is asked for what is made of a result. -/
theorem looks_map {x : LedgerReading (StateM σ) α} {f : α → β}
    (first : Looks source x.steps l qs result) (made : ∀ v l', result v l' → final (f v) l') :
    Looks source (x >>= fun v => pure (f v)).steps l qs final := by
  rw [← List.append_nil qs]
  exact looks_bind first fun v xs _ holds => looks_return (made v _ holds)

theorem looks_get : Looks source (get : LedgerReading (StateM σ) State).steps l []
    fun seen l' => seen = l' where
  answered all := by
    cases all
    exact ⟨l, rfl, rfl⟩
  failed none := nomatch none

theorem looks_readThrough (q : Query) :
    Looks source (readThrough source q).steps l [q] fun v l' => l'.held? q = some v :=
  Ledger.State.looks_read q

theorem looks_load (a : Address) :
    Looks source (load source a).steps l [.balance a, .nonce a, .code a] fun _ _ => True :=
  Ledger.State.looks_readAll _ l

/-- The balance counts alone while execution added nothing to it. -/
theorem looks_readTotal {a : Address} (plain : (l.world.accountD a).delta = 0) :
    Looks source (readTotal source a).steps l [.balance a] fun total l' =>
      ∃ balance : Word, l'.held? (.balance a) = some balance ∧ total = balance.unsigned := by
  refine looks_bind (looks_readThrough (.balance a)) fun balance xs _ held => ?_
  refine looks_bind (looks_get.frame held) fun seen ys _ now => ?_
  obtain ⟨rfl, held⟩ := now
  refine looks_return ⟨balance, held, ?_⟩
  rw [Ledger.State.held?_balance] at held
  rw [Ledger.Account.total, held, Ledger.State.delta_keepAll, Ledger.State.delta_keepAll, plain]
  exact Int.add_zero _

/-- The entry of a slot has what the ledger holds of it. -/
def HoldsSlot (l : State) (a : Address) (key : Word) (entry : Word × Bytes) : Prop :=
  entry.1 = key ∧ l.held? (.slot a key) = some entry.2

section HoldsSlots

variable {l : State} {a : Address} {keys : List Word} {slots : List (Word × Bytes)}

theorem keys_of_holdsSlots (h : List.Forall₂ (HoldsSlot l a) keys slots) :
    slots.map Prod.fst = keys := by
  induction h with
  | nil => rfl
  | cons first _ ih => rw [List.map_cons, first.1, ih]

theorem held_of_holdsSlots (h : List.Forall₂ (HoldsSlot l a) keys slots) :
    ∀ entry ∈ slots, l.held? (.slot a entry.1) = some entry.2 := by
  induction h with
  | nil => exact List.forall_mem_nil _
  | cons first _ ih =>
    obtain ⟨rfl, held⟩ := first
    exact List.forall_mem_cons.mpr ⟨held, ih⟩

end HoldsSlots

/-- Reads a slot and gives it with its key. -/
def readSlot (source : Source (StateM σ)) (a : Address) (key : Word) :
    LedgerReading (StateM σ) (Word × Bytes) := do
  return (key, ← readThrough source (.slot a key))

theorem looks_readSlot (a : Address) (key : Word) :
    Looks source (readSlot source a key).steps l [.slot a key] fun entry l' =>
      HoldsSlot l' a key entry :=
  looks_map (looks_readThrough (.slot a key)) fun _ _ held => ⟨rfl, held⟩

/-- Slots are read in their order, and each of them holds in the end what was read of it. -/
theorem looks_readSlots (a : Address) (keys : List Word) :
    Looks source (keys.mapM (readSlot source a)).steps l (keys.map (.slot a)) fun slots l' =>
      List.Forall₂ (HoldsSlot l' a) keys slots := by
  induction keys generalizing l with
  | nil =>
    rw [List.mapM_nil]
    exact looks_return .nil
  | cons key keys ih =>
    rw [List.mapM_cons]
    refine looks_bind (looks_readSlot a key) fun entry xs _ first => ?_
    exact looks_map (ih.frame first.2) fun slots l' later => .cons ⟨first.1, later.2⟩ later.1

end Rules

/-- What is read of an account, in the order in which it is. -/
def lookedUp (a : Address) (keys : List Word) : List Query :=
  [.balance a, .nonce a, .code a, .balance a, .nonce a, .code a] ++ keys.map (.slot a)

/-- The report tells what the ledger holds of an account. -/
structure Holds (l : State) (a : Address) (block : UInt64) (keys : List Word)
    (view : AccountView) : Prop where
  address : view.address = a
  block : view.block = block
  balance : ∃ balance : Word, l.held? (.balance a) = some balance ∧
    view.balance = balance.unsigned
  nonce : l.held? (.nonce a) = some view.nonce
  code : l.held? (.code a) = some view.code
  slots : List.Forall₂ (HoldsSlot l a) keys view.slots

theorem looks_readAccount {l : State} {a : Address} (plain : (l.world.accountD a).delta = 0)
    (block : UInt64) (keys : List Word) :
    Looks source (readAccount source a block keys).steps l (lookedUp a keys) fun view l' =>
      Holds l' a block keys view := by
  show Looks source _ l ([.balance a, .nonce a, .code a] ++ ([.balance a] ++ ([.nonce a] ++
    ([.code a] ++ keys.map (.slot a))))) _
  refine looks_bind (looks_load a) fun _ xs _ _ => ?_
  have plain' : ((l.keepAll xs).world.accountD a).delta = 0 := by
    rw [Ledger.State.delta_keepAll, plain]
  refine looks_bind (looks_readTotal plain') fun total ys _ ⟨balance, heldBalance, same⟩ => ?_
  refine looks_bind ((looks_readThrough (.nonce a)).frame heldBalance) fun nonce zs _ held => ?_
  obtain ⟨heldNonce, heldBalance⟩ := held
  refine looks_bind (((looks_readThrough (.code a)).frame heldBalance).frame heldNonce)
    fun code ws _ held => ?_
  obtain ⟨⟨heldCode, heldBalance⟩, heldNonce⟩ := held
  refine looks_map ((((looks_readSlots a keys).frame heldBalance).frame heldNonce).frame heldCode)
    fun slots l' held => ?_
  obtain ⟨⟨⟨heldSlots, heldBalance⟩, heldNonce⟩, heldCode⟩ := held
  exact ⟨rfl, rfl, ⟨balance, heldBalance, same⟩, heldNonce, heldCode, heldSlots⟩

/-! ## What is asked -/

/-- Different things are repeated where their images are. -/
theorem eraseDups_map {γ δ : Type} [DecidableEq γ] [DecidableEq δ] {f : γ → δ}
    (inj : Function.Injective f) (xs : List γ) : (xs.map f).eraseDups = xs.eraseDups.map f := by
  match xs with
  | [] => rfl
  | x :: xs =>
    have others : (xs.map f).filter (fun y => !y == f x) =
        (xs.filter fun y => !y == x).map f := by
      rw [List.filter_map]
      congr 1
      refine List.filter_congr fun y _ => ?_
      simp [inj.eq_iff]
    rw [List.map_cons, List.eraseDups_cons, List.eraseDups_cons, List.map_cons, others,
      eraseDups_map inj (xs.filter fun y => !y == x)]
termination_by xs.length
decreasing_by exact Nat.lt_succ_of_le (List.length_filter_le _ _)

/-- An empty ledger asks for the values of an account once, and then for each slot once, in the
order in which the slots first come up. -/
theorem wanted_lookedUp (a : Address) (keys : List Word) :
    State.empty.wanted (lookedUp a keys) =
      [.balance a, .nonce a, .code a] ++ keys.eraseDups.map (.slot a) := by
  have nothing (q : Query) : State.empty.held? q = none := by cases q <;> rfl
  have inj : Function.Injective (Query.slot a) := fun _ _ same => (Query.slot.inj same).2
  have apart : (keys.map (Query.slot a)).removeAll
      [.balance a, .nonce a, .code a, .balance a, .nonce a, .code a] = keys.map (.slot a) := by
    refine List.filter_eq_self.mpr fun q mem => ?_
    obtain ⟨key, _, rfl⟩ := List.mem_map.mp mem
    simp
  have values : [Query.balance a, .nonce a, .code a, .balance a, .nonce a, .code a].eraseDups =
      [.balance a, .nonce a, .code a] := by
    simp [List.eraseDups_cons]
  rw [Ledger.State.wanted_eq_of_unheld fun q _ => nothing q, lookedUp, List.eraseDups_append,
    apart, values, eraseDups_map inj]

end EvmInspect.Command
