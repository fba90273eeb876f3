import EvmInspect.Proofs.Ledger.Fetching
import EvmInspect.Proofs.Ledger.Survival
import EvmInspect.Proofs.Ledger.Throughout
import Mathlib.Data.List.Nodup
import Mathlib.Data.List.TakeWhile

/-!
# Which addresses are warm

An address is warm exactly if an operation touched it that has not been taken back
(`warmth_follows_history`). Which addresses an operation touches can be told without the ledger's
set of them (`Write.touched`, `Moment.answered`): a write touches what it changes or warms, a read
touches what it is about once it is answered. Going back brings the set back that was captured, so
the law is that of a view which the surviving moments make (`Course.view_eq`).

A read may be answered from the ledger, and then it adds nothing to the set. It need not: every
account that is there is warm (`World.AccountsWarm`), in the live world and in each snapshot, though
accounts and warm addresses are kept apart and only the first are dropped.
-/

namespace EvmInspect.Ledger

/-! ## What touches an address -/

/-- The addresses that a write touches. Dropping an account, moving nothing and writing transient
values touch none. -/
def Write.touched : Write → List Address
  | setStorage a _ _ | upsertStorage a _ _ | setNonce a _ | addDelta a _ | saveCode a _ => [a]
  | transfer sender receiver value => if value = 0 then [] else [sender, receiver]
  | prepareContract a | warmAddress a | warmSlot a _ => [a]
  | warmPrecompiles => precompiles
  | accessList items => items.map AccessItem.address
  | deleteAccount _ | setTransient _ _ _ | clearTransient => []

/-- The address that a step touches. -/
def Step.touched? : Step → Option Address
  | touch a _ => some a
  | _ => none

theorem Write.mem_touched_iff {change : Write} {a : Address} :
    a ∈ change.touched ↔ ∃ s ∈ change.steps, s.touched? = some a := by
  cases change with
  | transfer sender receiver value =>
    simp only [touched, steps]
    split <;> simp [Step.touched?, eq_comm]
  | warmPrecompiles => simp [touched, steps, Step.touched?]
  | accessList items => simp [touched, steps, Step.touched?]
  | _ => simp [touched, steps, Step.touched?, eq_comm]

namespace World

variable {w : World} {a b : Address}

/-- Every account that is there is warm. -/
def AccountsWarm (w : World) : Prop := ∀ a, (w.account? a).isSome → w.isWarm a = true

theorem isWarm_touch {f : Account → Account} :
    (w.touch b f).isWarm a = true ↔ w.isWarm a = true ∨ b = a := by
  simp only [isWarm, touch, KeySet.contains_add, Rank.rank_eq_iff, Bool.or_eq_true,
    decide_eq_true_eq]
  exact or_comm

theorem isWarm_step {s : Step} :
    (w.step s).isWarm a = true ↔ w.isWarm a = true ∨ s.touched? = some a := by
  cases s with
  | touch b t =>
    rw [step, isWarm_touch, Step.touched?, Option.some.injEq]
  | erase b => exact (or_iff_left (Option.some_ne_none a).symm).symm
  | setTransient b key value => exact (or_iff_left (Option.some_ne_none a).symm).symm
  | clearTransient => exact (or_iff_left (Option.some_ne_none a).symm).symm

/-- A write warms what it touches and nothing else, and cools nothing. -/
theorem isWarm_write {change : Write} :
    (w.write change).isWarm a = true ↔ w.isWarm a = true ∨ a ∈ change.touched := by
  rw [write_eq_steps, Write.mem_touched_iff]
  generalize change.steps = steps
  induction steps generalizing w with
  | nil => exact (or_iff_left nofun).symm
  | cons s rest ih => rw [List.foldl_cons, ih, isWarm_step, List.exists_mem_cons_iff, or_assoc]

/-- Warming the precompiled contracts warms the addresses that are told to be such. -/
theorem isWarm_warmPrecompiles :
    (w.write .warmPrecompiles).isWarm a = true ↔ w.isWarm a = true ∨ isPrecompile a = true := by
  rw [isWarm_write, isPrecompile, List.contains_iff_mem, Write.touched]

theorem AccountsWarm.touch {f : Account → Account} (h : w.AccountsWarm) :
    (w.touch b f).AccountsWarm := by
  intro a there
  rw [isWarm_touch]
  rw [account?_touch] at there
  split at there
  next same => exact .inr same
  next => exact .inl (h a there)

theorem AccountsWarm.step (h : w.AccountsWarm) (s : Step) : (w.step s).AccountsWarm := by
  cases s with
  | touch b t => exact h.touch
  | erase b =>
    intro a there
    rw [World.step, account?_erase] at there
    split at there
    next => cases there
    next => exact h a there
  | setTransient b key value => exact h
  | clearTransient => exact h

/-- Going back brings the accounts back together with the warm addresses. -/
theorem AccountsWarm.restore {captured : World} (h : captured.AccountsWarm) (live : World) :
    (captured.restore live).AccountsWarm := by
  intro a there
  rw [account?_restore, Option.isSome_map] at there
  exact h a there

end World

namespace State

variable {replies : Replies} {l l' : State} {a : Address} {q : Query}

theorem accountsWarm_keep (h : l.world.AccountsWarm) (q : Query) (v : q.Answer) :
    (l.keep q v).world.AccountsWarm := by
  cases q with
  | blockHash number => exact h
  | _ => exact h.touch

/-- Every account is warm in all worlds of a ledger. -/
theorem accountsWarm_invariant {permitted : Operation → Prop} :
    Invariant replies permitted (Throughout World.AccountsWarm) :=
  .throughout (fun h _ _ => accountsWarm_keep h _ _)
    (fun h _ => World.write_keeps (P := World.AccountsWarm) (fun s _ h => h.step s) h)
    fun h _ => h.restore _

/-- What is held of an address is held of an account. -/
theorem isSome_account?_of_held (about : q.address? = some a) (held : l.held? q ≠ none) :
    (l.world.account? a).isSome := by
  rw [held?_eq about] at held
  cases there : l.world.account? a with
  | some account => rfl
  | none =>
    rw [World.accountD, there] at held
    cases q <;> exact absurd rfl held

/-! ## Reading -/

/-- A change of one account that leaves an item alone leaves it alone in all of them. -/
theorem held?_touch {w : World} {b : Address} {f : Account → Account}
    (same : a = b → (f (w.accountD b)).held? q = (w.accountD b).held? q) :
    ((w.touch b f).accountD a).held? q = (w.accountD a).held? q := by
  rw [World.accountD_touch]
  split
  next here =>
    subst here
    exact same rfl
  next => rfl

/-- Keeping an answer leaves all other items alone. -/
theorem held?_keep_of_ne {p : Query} (v : p.Answer) (other : q ≠ p) :
    (l.keep p v).held? q = l.held? q := by
  cases about : q.address? with
  | none =>
    cases q with
    | blockHash number =>
      cases p with
      | blockHash n =>
        have apart : n ≠ number := fun same => other (congrArg Query.blockHash same.symm)
        exact KeyMap.get?_insert_of_ne _ _ apart
      | _ => rfl
    | _ => cases about
  | some a =>
    rw [held?_eq about, held?_eq about]
    cases p with
    | blockHash n => rfl
    | slot b key =>
      refine held?_touch fun here => ?_
      cases q with
      | slot c k =>
        cases about
        have apart : key ≠ k := fun same => other (by rw [here, same])
        exact KeyMap.get?_insert_of_ne _ _ apart
      | _ => rfl
    | _ =>
      refine held?_touch fun here => ?_
      cases q <;> first | rfl | exact absurd (by rw [← here, Option.some.inj about]) other

/-- Keeping an answer warms the address that it is about. -/
theorem isWarm_keep (v : q.Answer) :
    (l.keep q v).world.isWarm a = true ↔ l.world.isWarm a = true ∨ q.address? = some a := by
  cases q with
  | blockHash number => exact (or_iff_left (Option.some_ne_none a).symm).symm
  | _ => exact World.isWarm_touch.trans (or_congr_right Option.some_inj.symm)

/-- The questions up to the first that has no answer in the ledger. -/
def answeredIn (l : State) (qs : List Query) : List Query :=
  qs.takeWhile fun q => (l.held? q).isSome

theorem answeredIn_cons_of_held {qs : List Query} (held : l.held? q ≠ none) :
    l.answeredIn (q :: qs) = q :: l.answeredIn qs :=
  List.takeWhile_cons_of_pos (Option.isSome_iff_ne_none.mpr held)

theorem answeredIn_cons_of_unheld {qs : List Query} (absent : l.held? q = none) :
    l.answeredIn (q :: qs) = [] :=
  List.takeWhile_cons_of_neg (by simp [absent])

/-- A single question is answered or it is not. -/
theorem answeredIn_singleton (l : State) (q : Query) :
    l.answeredIn [q] = [] ∨ l.answeredIn [q] = [q] := by
  by_cases absent : l.held? q = none
  · exact .inl (answeredIn_cons_of_unheld absent)
  · exact .inr (answeredIn_cons_of_held absent)

theorem held_of_mem_answeredIn {qs : List Query} (mem : q ∈ l.answeredIn qs) :
    l.held? q ≠ none :=
  Option.isSome_iff_ne_none.mp (List.mem_takeWhile_imp (p := fun q => (l.held? q).isSome) mem)

theorem Reads.leaves_held {v : q.Answer} (h : Reads replies q l (.ok v) l') : l'.held? q ≠ none := by
  cases h with
  | held there =>
    rw [there]
    exact Option.some_ne_none v
  | fetched _ _ =>
    rw [held?_keep]
    exact Option.some_ne_none v

theorem Reads.isWarm_iff {v : q.Answer} (h : Reads replies q l (.ok v) l')
    (warm : l.world.AccountsWarm) :
    l'.world.isWarm a = true ↔ l.world.isWarm a = true ∨ q.address? = some a := by
  cases h with
  | held there =>
    refine (or_iff_left_of_imp fun about => ?_).symm
    refine warm a (isSome_account?_of_held about ?_)
    rw [there]
    exact Option.some_ne_none v
  | fetched _ _ => exact isWarm_keep v

/-- Reading one value after the other warms the addresses of those that are answered. -/
theorem ReadsAll.isWarm_iff {qs : List Query} {r : Except LedgerError Unit}
    (h : ReadsAll replies qs l r l') (warm : l.world.AccountsWarm) :
    l'.world.isWarm a = true ↔
      l.world.isWarm a = true ∨ ∃ q ∈ l'.answeredIn qs, q.address? = some a := by
  induction h with
  | nil => exact (or_iff_left nofun).symm
  | cons first rest ih =>
    have next := first.keeps (P := fun l => l.world.AccountsWarm)
      (fun h _ _ => accountsWarm_keep h _ _) warm
    rw [ih next, first.isWarm_iff warm, answeredIn_cons_of_held (rest.stays_held first.leaves_held),
      List.exists_mem_cons_iff, or_assoc]
  | stop first =>
    cases first with
    | failed absent _ =>
      rw [answeredIn_cons_of_unheld absent]
      exact (or_iff_left nofun).symm

/-- Reading succeeds exactly if everything is answered. -/
theorem ReadsAll.answered_iff {qs : List Query} {r : Except LedgerError Unit}
    (h : ReadsAll replies qs l r l') : l'.answeredIn qs = qs ↔ r = .ok () := by
  induction h with
  | nil => exact iff_of_true rfl rfl
  | cons first rest ih =>
    rw [answeredIn_cons_of_held (rest.stays_held first.leaves_held), List.cons_inj_right, ih]
  | stop first =>
    cases first with
    | failed absent _ =>
      rw [answeredIn_cons_of_unheld absent]
      exact iff_of_false (List.cons_ne_nil _ _).symm nofun

/-- A single read as one of several. -/
theorem Reads.all {r : Except LedgerError q.Answer} (h : Reads replies q l r l') :
    ReadsAll replies [q] l (r.map fun _ => ()) l' := by
  cases r with
  | ok v => exact .cons h .nil
  | error e => exact .stop h

/-- What was asked about and is held in the end has been answered: the others are left alone. -/
theorem ReadsAll.mem_answeredIn {qs : List Query} {r : Except LedgerError Unit}
    (h : ReadsAll replies qs l r l') (asked : q ∈ qs) (absent : l.held? q = none)
    (held : l'.held? q ≠ none) : q ∈ l'.answeredIn qs := by
  induction h with
  | nil => cases asked
  | @cons p qs l v m r l' first rest ih =>
    rw [answeredIn_cons_of_held (rest.stays_held first.leaves_held)]
    by_cases same : q = p
    · exact same ▸ List.mem_cons_self
    · have later : q ∈ qs := (List.mem_cons.mp asked).resolve_left same
      refine List.mem_cons_of_mem _ (ih later ?_ held)
      cases first with
      | held _ => exact absent
      | fetched _ _ => exact (held?_keep_of_ne v same).trans absent
  | stop first =>
    cases first with
    | failed _ _ => exact absurd absent held

/-- What is not answered is not held in the end. -/
theorem Asks.unheld_after {fs : List Fetch} (asks : Asks l fs l') (absent : l.held? q = none)
    (unanswered : ⟨q, true⟩ ∉ fs) : l'.held? q = none := by
  induction asks with
  | nil => exact absent
  | failed _ _ ih => exact ih absent fun mem => unanswered (List.mem_cons_of_mem _ mem)
  | @answered l p v fs l' _ _ ih =>
    refine ih ?_ fun mem => unanswered (List.mem_cons_of_mem _ mem)
    rw [held?_keep_of_ne v fun same => unanswered (same ▸ List.mem_cons_self)]
    exact absent

/-! ## Moments -/

/-- The questions of a moment that were answered. They are put one after the other and the first
failure is the last of them, so it has still no answer afterwards. -/
def Moment.answered (x : Moment) : List Query := x.after.answeredIn (Eager.questions x.operation)

/-- The addresses that a moment touches: those that it writes, or that it reads with success. -/
def Moment.touched (x : Moment) : List Address :=
  match x.operation with
  | .write change => change.touched
  | _ => x.answered.filterMap Query.address?

/-- A moment of one of the kinds that touch no address. -/
inductive Moment.Idle (x : Moment) : Prop
  | deletes {b} : x.operation = .write (.deleteAccount b) → x.Idle
  | movesNothing {sender receiver} : x.operation = .write (.transfer sender receiver 0) → x.Idle
  | setsTransient {b key value} : x.operation = .write (.setTransient b key value) → x.Idle
  | clearsTransient : x.operation = .write .clearTransient → x.Idle
  | readFails {p e} : x.operation = .read p → x.outcome = .error e → x.Idle
  | loadFails {b} : x.operation = .load b → x.answered = [] → x.Idle
  | readsBlockHash {number} : x.operation = .read (.blockHash number) → x.Idle
  | takesSnapshot : x.operation = .takeSnapshot → x.Idle
  | commits {id} : x.operation = .commit id → x.Idle
  | discards {id} : x.operation = .discard id → x.Idle
  | revertFails {id e} : x.operation = .revert id → x.outcome = .error e → x.Idle

/-- What the answered questions of a moment are: all of them exactly if it succeeds, and of those
that were put to the source the ones that it answered. -/
structure Moment.TellsAnswered (x : Moment) : Prop where
  all : Eager.questions x.operation ≠ [] →
    (x.answered = Eager.questions x.operation ↔ ∃ r, x.outcome = .ok r)
  fetched : ∀ f ∈ x.fetches, f.query ∈ x.answered ↔ f.answered = true

/-- An operation that reads puts its questions one after the other. -/
theorem Performs.readsAll {op : Operation} {r : Except LedgerError Outcome}
    (h : Performs replies op l r l') (asking : Eager.questions op ≠ []) :
    ∃ r', ReadsAll replies (Eager.questions op) l r' l' ∧ (r' = .ok () ↔ ∃ o, r = .ok o) := by
  cases h with
  | read h => exact ⟨_, h.all, iff_of_true rfl ⟨_, rfl⟩⟩
  | readFails h => exact ⟨_, h.all, iff_of_false nofun nofun⟩
  | load h => exact ⟨_, h, iff_of_true rfl ⟨_, rfl⟩⟩
  | loadFails h => exact ⟨_, h, iff_of_false nofun nofun⟩
  | _ => exact absurd rfl asking

section Moment

variable {x : Moment}

theorem Moment.Obeys.tellsAnswered (obeys : x.Obeys replies) : x.TellsAnswered where
  all asking := by
    obtain ⟨r, reads, succeeds⟩ := obeys.performs.readsAll asking
    exact reads.answered_iff.trans succeeds
  fetched f mem := by
    have own : f.query ∈ Eager.questions x.operation :=
      obeys.own.subset (List.mem_map_of_mem mem)
    have absent := obeys.unheld f mem
    obtain ⟨r, reads, _⟩ := obeys.performs.readsAll (List.ne_nil_of_mem own)
    constructor
    · intro answered
      -- each question is put once, so one that failed was not answered afterwards
      by_contra failed
      have held := held_of_mem_answeredIn answered
      have once : (x.fetches.map Fetch.query).Nodup := obeys.own.nodup (nodup_questions x.operation)
      rcases obeys.asked with none | asks
      · rw [none] at mem
        cases mem
      · refine held (asks.unheld_after absent fun answered => failed ?_)
        have same := List.inj_on_of_nodup_map once mem answered rfl
        rw [same]
    · intro answered
      refine reads.mem_answeredIn own absent (obeys.held_of_answered ?_)
      rw [← answered]
      exact mem

/-- An operation that goes nowhere back warms what it touches, and nothing else. -/
theorem Moment.Obeys.isWarm_iff (obeys : x.Obeys replies) (warm : x.before.world.AccountsWarm)
    (stays : x.wentBack? = none) :
    x.after.world.isWarm a = true ↔ x.before.world.isWarm a = true ∨ a ∈ x.touched := by
  obtain ⟨op, before, fetches, outcome, after⟩ := x
  have performs := obeys.performs
  dsimp only at warm performs
  have reading : ∀ {qs : List Query} {r : Except LedgerError Unit},
      ReadsAll replies qs before r after → (after.world.isWarm a = true ↔
        before.world.isWarm a = true ∨ a ∈ (after.answeredIn qs).filterMap Query.address?) := by
    intro qs r h
    rw [List.mem_filterMap]
    exact h.isWarm_iff warm
  have still : ∀ {w : World}, (w.isWarm a = true ↔ w.isWarm a = true ∨ a ∈ ([] : List Address)) :=
    (or_iff_left List.not_mem_nil).symm
  cases performs with
  | read h => exact reading h.all
  | readFails h => exact reading h.all
  | load h => exact reading h
  | loadFails h => exact reading h
  | write change => exact World.isWarm_write
  | takeSnapshot => exact still
  | revert _ => cases stays
  | revertFails _ => exact still
  | commit id =>
    rw [world_dropSnapshot]
    exact still
  | discard id =>
    rw [world_dropSnapshot]
    exact still

theorem Moment.touched_of_wentBack (back : x.wentBack? ≠ none) : x.touched = [] := by
  obtain ⟨op, before, fetches, outcome, after⟩ := x
  cases op with
  | revert id => rfl
  | _ => exact absurd rfl back

/-- Each moment adds what it touches to the warm addresses, where going back counts for nothing. -/
theorem Moment.Obeys.moves (obeys : x.Obeys replies) (warm : x.before.world.AccountsWarm) :
    x.Moves (fun w => w.isWarm a) fun warm x => warm || decide (a ∈ x.touched) where
  onward stays := by
    rw [Bool.eq_iff_iff, Bool.or_eq_true, decide_eq_true_eq]
    exact obeys.isWarm_iff warm stays
  back back v := by
    rw [Moment.touched_of_wentBack back]
    exact Bool.or_false v

/-- A moment that is idle touches nothing and goes nowhere back. -/
theorem Moment.Idle.nothing (idle : x.Idle) (obeys : x.Obeys replies) :
    x.touched = [] ∧ x.wentBack? = none := by
  have tells := obeys.tellsAnswered
  obtain ⟨op, before, fetches, outcome, after⟩ := x
  cases idle with
  | movesNothing same =>
    cases same
    refine ⟨?_, rfl⟩
    simp only [Moment.touched, Write.touched, if_true]
  | @readFails q _ same failed =>
    cases same
    cases failed
    refine ⟨?_, rfl⟩
    show (after.answeredIn [q]).filterMap Query.address? = []
    rcases after.answeredIn_singleton q with none | all
    · rw [none, List.filterMap_nil]
    · obtain ⟨_, done⟩ := (tells.all (List.cons_ne_nil _ _)).mp all
      cases done
  | loadFails same unanswered =>
    cases same
    exact ⟨congrArg (List.filterMap Query.address?) unanswered, rfl⟩
  | @readsBlockHash number same =>
    cases same
    refine ⟨?_, rfl⟩
    show (after.answeredIn [.blockHash number]).filterMap Query.address? = []
    rcases after.answeredIn_singleton (.blockHash number) with none | all
    · rw [none, List.filterMap_nil]
    · rw [all]
      rfl
  | revertFails same failed =>
    cases same
    cases failed
    exact ⟨rfl, rfl⟩
  | deletes same =>
    cases same
    exact ⟨rfl, rfl⟩
  | setsTransient same =>
    cases same
    exact ⟨rfl, rfl⟩
  | clearsTransient same =>
    cases same
    exact ⟨rfl, rfl⟩
  | takesSnapshot same =>
    cases same
    exact ⟨rfl, rfl⟩
  | commits same =>
    cases same
    exact ⟨rfl, rfl⟩
  | discards same =>
    cases same
    exact ⟨rfl, rfl⟩

/-- A moment that is idle leaves the warm addresses as they were. -/
theorem Moment.Idle.warm_eq (idle : x.Idle) (obeys : x.Obeys replies)
    (warm : x.before.world.AccountsWarm) : x.after.world.warm = x.before.world.warm := by
  obtain ⟨none, stays⟩ := idle.nothing obeys
  refine KeySet.ext_contains fun a => ?_
  have same := obeys.isWarm_iff (a := a) warm stays
  rw [none, or_iff_left List.not_mem_nil] at same
  exact Bool.eq_iff_iff.mpr same

end Moment

/-! ## Along a run -/

theorem foldl_touched (xs : List Moment) (a : Address) (warm : Bool) :
    xs.foldl (fun warm x => warm || decide (a ∈ x.touched)) warm = true ↔
      warm = true ∨ ∃ x ∈ xs, a ∈ x.touched := by
  induction xs generalizing warm with
  | nil => simp only [List.foldl_nil, List.not_mem_nil, false_and, exists_false, or_false]
  | cons x xs ih =>
    rw [List.foldl_cons, ih, Bool.or_eq_true, decide_eq_true_eq, List.exists_mem_cons_iff, or_assoc]

/-- The warm addresses of a ledger that a history leads to from the empty one. -/
structure WarmBy (xs : List Moment) (l : State) : Prop where
  /-- Every account is warm, in the live world and in that of each snapshot. -/
  accounts : Throughout World.AccountsWarm l
  /-- The warm addresses are those that were touched by what has not been taken back. -/
  warm_iff : ∀ a, l.world.isWarm a = true ↔ ∃ x ∈ surviving [] xs, a ∈ x.touched
  /-- What has touched an address by reading it is what was answered. -/
  answered : ∀ x ∈ xs, x.TellsAnswered
  /-- No idle moment changes the warm addresses. -/
  idle : ∀ x ∈ xs, x.Idle → x.after.world.warm = x.before.world.warm

theorem Course.warmBy {xs : List Moment} (h : Course replies .empty xs l) : WarmBy xs l := by
  have start : Throughout World.AccountsWarm .empty := by
    refine ⟨fun a there => ?_, List.forall_mem_nil _⟩
    cases there
  have invariant : Invariant replies (fun _ => True) (Throughout World.AccountsWarm) :=
    accountsWarm_invariant
  obtain ⟨last, between⟩ := h.keeps invariant (fun _ _ => trivial) start
  have warm : ∀ x ∈ xs, x.before.world.AccountsWarm := fun x mem => (between x mem).1.1
  constructor
  case accounts => exact last
  case warm_iff =>
    intro a
    rw [h.view_eq (fun _ _ => rfl) fun x mem => (h.obeys x mem).moves (a := a) (warm x mem),
      foldl_touched]
    exact or_iff_right Bool.false_ne_true
  case answered => exact fun x mem => (h.obeys x mem).tellsAnswered
  case idle => exact fun x mem idle => idle.warm_eq (h.obeys x mem) (warm x mem)

/-- The warm addresses of every reachable ledger are those that its history has touched and not
taken back. -/
theorem warmth_follows_history {σ : Type} (source : Source (StateM σ)) (ops : List Operation)
    (s : σ) : WarmBy (history source ops .empty s) (State.after source ops .empty s) :=
  (course_history source source.gives_any ops .empty s).warmBy

end State

end EvmInspect.Ledger
