import EvmInspect.Ledger.State

/-!
# Runs of a ledger

A source with a state of its own may answer a question now and fail at it later, so it
stands for any node. `Performs` says what one operation gives and where it leads, one rule
for each way it can go and with no source in sight: only what a source may reply (`Replies`)
is left of it. `performs_perform` and `runs_run` are the only places that look into the
operations; every law about all runs goes through the rules.

A property that each kind of step keeps (`Invariant`) holds throughout a run (`Runs.keeps`)
and so in every reachable ledger (`Reachable.keeps`).
-/

namespace EvmInspect.Ledger

/-- What a source may reply to a question. -/
abbrev Replies := (q : Query) → Except SourceError q.Answer → Prop

/-- Any reply may come. -/
def Replies.any : Replies := fun _ _ => True

variable {σ : Type}

/-- What a source replies, in some state of its own. -/
def Source.replies (source : Source (StateM σ)) : Replies :=
  fun q r => ∃ s, ((source.ask q).run s).1 = r

/-- A source replies in permitted ways only. -/
def Source.Gives (source : Source (StateM σ)) (replies : Replies) : Prop :=
  ∀ q r, source.replies q r → replies q r

theorem Source.gives_replies (source : Source (StateM σ)) : source.Gives source.replies :=
  fun _ _ h => h

theorem Source.gives_any (source : Source (StateM σ)) : source.Gives .any :=
  fun _ _ _ => trivial

namespace State

/-- What a run gives, one outcome for each operation. -/
def outcomes (source : Source (StateM σ)) (ops : List Operation) (l : State) (s : σ) :
    List (Except LedgerError Outcome) :=
  ((run source ops l).run s).1.1

/-- The ledger after a run. -/
def after (source : Source (StateM σ)) (ops : List Operation) (l : State) (s : σ) : State :=
  ((run source ops l).run s).1.2

/-- A ledger that some run over some source leads to from the empty one. -/
def Reachable (l : State) : Prop :=
  ∃ (σ : Type) (source : Source (StateM σ)) (ops : List Operation) (s : σ),
    after source ops empty s = l

/-! ## The rules -/

/-- How a chain value is read. -/
inductive Reads (replies : Replies) (q : Query) (l : State) :
    Except LedgerError q.Answer → State → Prop
  | held {v} : l.held? q = some v → Reads replies q l (.ok v) l
  | fetched {v} : l.held? q = none → replies q (.ok v) → Reads replies q l (.ok v) (l.keep q v)
  | failed {cause} : l.held? q = none → replies q (.error cause) →
      Reads replies q l (.error (.source cause)) l

/-- How chain values are read one after the other, up to the first that fails. -/
inductive ReadsAll (replies : Replies) :
    List Query → State → Except LedgerError Unit → State → Prop
  | nil {l} : ReadsAll replies [] l (.ok ()) l
  | cons {q qs l v m r l'} : Reads replies q l (.ok v) m → ReadsAll replies qs m r l' →
      ReadsAll replies (q :: qs) l r l'
  | stop {q qs l e l'} : Reads replies q l (.error e) l' →
      ReadsAll replies (q :: qs) l (.error e) l'

/-- What one operation gives and where it leads. -/
inductive Performs (replies : Replies) :
    Operation → State → Except LedgerError Outcome → State → Prop
  | read {q l v l'} : Reads replies q l (.ok v) l' →
      Performs replies (.read q) l (.ok (l'.outcomeOf q v)) l'
  | readFails {q l e l'} : Reads replies q l (.error e) l' →
      Performs replies (.read q) l (.error e) l'
  | load {a l l'} : ReadsAll replies [.balance a, .nonce a, .code a] l (.ok ()) l' →
      Performs replies (.load a) l (.ok .done) l'
  | loadFails {a l e l'} : ReadsAll replies [.balance a, .nonce a, .code a] l (.error e) l' →
      Performs replies (.load a) l (.error e) l'
  | write (w l) : Performs replies (.write w) l (.ok .done) { l with world := l.world.write w }
  | takeSnapshot (l) :
      Performs replies .takeSnapshot l (.ok (.snapshot l.nextId)) l.takeSnapshot.2
  | revert {id l l'} : l.revert id = .ok l' → Performs replies (.revert id) l (.ok .done) l'
  | revertFails {id l e} : l.revert id = .error e → Performs replies (.revert id) l (.error e) l
  | commit (id l) : Performs replies (.commit id) l (.ok .done) (l.dropSnapshot id)
  | discard (id l) : Performs replies (.discard id) l (.ok .done) (l.dropSnapshot id)

/-- What operations give one after the other and where they lead. -/
inductive Runs (replies : Replies) :
    List Operation → State → List (Except LedgerError Outcome) → State → Prop
  | nil {l} : Runs replies [] l [] l
  | cons {op ops l r m rs l'} : Performs replies op l r m → Runs replies ops m rs l' →
      Runs replies (op :: ops) l (r :: rs) l'

/-- Reading fails only with a failure of the source. -/
theorem ReadsAll.failed {replies : Replies} {qs : List Query} {l l' : State} {e : LedgerError}
    (h : ReadsAll replies qs l (.error e) l') :
    ∃ q ∈ qs, ∃ cause, replies q (.error cause) ∧ e = .source cause := by
  generalize hr : (.error e : Except LedgerError Unit) = r at h
  induction h with
  | nil => cases hr
  | cons _ _ ih =>
    obtain ⟨q, hq, failure⟩ := ih hr
    exact ⟨q, List.mem_cons_of_mem _ hq, failure⟩
  | stop first =>
    cases first with
    | failed _ failure =>
      cases hr
      exact ⟨_, List.mem_cons_self, _, failure, rfl⟩

/-! ## Every operation follows the rules -/

variable {replies : Replies} {source : Source (StateM σ)}

theorem reads_read (gives : source.Gives replies) (q : Query) (l : State) (s : σ) :
    Reads replies q l ((l.read source q).run s).1.1 ((l.read source q).run s).1.2 := by
  unfold read
  cases hq : l.held? q with
  | some v => exact .held hq
  | none =>
    have reply := gives q _ ⟨s, rfl⟩
    cases hs : (source.ask q).run s with
    | mk r s' =>
      rw [hs] at reply
      simp only [StateT.run_bind, hs]
      cases r with
      | ok v => exact .fetched hq reply
      | error cause => exact .failed hq reply

theorem readsAll_readAll (gives : source.Gives replies) (qs : List Query) (l : State) (s : σ) :
    ReadsAll replies qs l ((l.readAll source qs).run s).1.1 ((l.readAll source qs).run s).1.2 := by
  induction qs generalizing l s with
  | nil => exact .nil
  | cons q qs ih =>
    have first := reads_read gives q l s
    unfold readAll
    cases hs : (l.read source q).run s with
    | mk p s' =>
      obtain ⟨r, m⟩ := p
      rw [hs] at first
      simp only [StateT.run_bind, hs]
      cases r with
      | ok v => exact .cons first (ih m s')
      | error e => exact .stop first

/-- An operation goes one of the ways that the rules give. -/
theorem performs_perform (gives : source.Gives replies) (op : Operation) (l : State) (s : σ) :
    Performs replies op l ((l.perform source op).run s).1.1 ((l.perform source op).run s).1.2 := by
  cases op with
  | read q =>
    have reading := reads_read gives q l s
    cases hs : (l.read source q).run s with
    | mk p s' =>
      obtain ⟨r, m⟩ := p
      rw [hs] at reading
      simp only [perform, StateT.run_bind, hs]
      cases r with
      | ok v => exact .read reading
      | error e => exact .readFails reading
  | load a =>
    have reading := readsAll_readAll gives [.balance a, .nonce a, .code a] l s
    cases hs : (l.readAll source [.balance a, .nonce a, .code a]).run s with
    | mk p s' =>
      obtain ⟨r, m⟩ := p
      rw [hs] at reading
      simp only [perform, StateT.run_bind, hs]
      cases r with
      | ok u => exact .load reading
      | error e => exact .loadFails reading
  | write w => exact .write w l
  | takeSnapshot => exact .takeSnapshot l
  | revert id =>
    cases h : l.revert id with
    | ok m =>
      simp only [perform, h]
      exact .revert h
    | error e =>
      simp only [perform, h]
      exact .revertFails h
  | commit id => exact .commit id l
  | discard id => exact .discard id l

/-- A run follows the rules, one operation after the other. -/
theorem runs_run (gives : source.Gives replies) (ops : List Operation) (l : State) (s : σ) :
    Runs replies ops l (outcomes source ops l s) (after source ops l s) := by
  induction ops generalizing l s with
  | nil => exact .nil
  | cons op ops ih =>
    have first := performs_perform gives op l s
    unfold outcomes after run
    simp only [StateT.run_bind]
    exact .cons first (ih _ _)

theorem Reachable.runs {l : State} (reach : Reachable l) :
    ∃ ops rs, Runs .any ops empty rs l := by
  obtain ⟨σ, source, ops, s, rfl⟩ := reach
  exact ⟨ops, _, runs_run source.gives_any ops empty s⟩

/-! ## Invariants -/

/-- A property of ledgers that every step keeps, if only permitted operations are performed. -/
structure Invariant (replies : Replies) (permitted : Operation → Prop) (P : State → Prop) :
    Prop where
  fetch : ∀ {l q v}, P l → l.held? q = none → replies q (.ok v) → P (l.keep q v)
  write : ∀ {l w}, P l → permitted (.write w) → P { l with world := l.world.write w }
  take : ∀ {l}, P l → P l.takeSnapshot.2
  revert : ∀ {l id l'}, P l → l.revert id = .ok l' → P l'
  drop : ∀ {l} (id), P l → P (l.dropSnapshot id)

variable {permitted : Operation → Prop} {P : State → Prop} {l l' : State}

/-- What each fetched answer keeps is kept by reading. -/
theorem Reads.keeps {q : Query} {r : Except LedgerError q.Answer} (h : Reads replies q l r l')
    (fetch : ∀ {l q v}, P l → l.held? q = none → replies q (.ok v) → P (l.keep q v))
    (start : P l) : P l' := by
  cases h with
  | held _ => exact start
  | fetched absent reply => exact fetch start absent reply
  | failed _ _ => exact start

theorem ReadsAll.keeps {qs : List Query} {r : Except LedgerError Unit}
    (h : ReadsAll replies qs l r l')
    (fetch : ∀ {l q v}, P l → l.held? q = none → replies q (.ok v) → P (l.keep q v))
    (start : P l) : P l' := by
  induction h with
  | nil => exact start
  | cons first _ ih => exact ih (first.keeps fetch start)
  | stop first => exact first.keeps fetch start

/-- What no fetched answer changes is not changed by reading. -/
theorem Reads.same {β : Type} {f : State → β} {q : Query} {r : Except LedgerError q.Answer}
    (h : Reads replies q l r l') (keep : ∀ l q v, f (keep l q v) = f l) : f l' = f l :=
  h.keeps (P := fun m => f m = f l) (fun same _ _ => (keep _ _ _).trans same) rfl

theorem ReadsAll.same {β : Type} {f : State → β} {qs : List Query} {r : Except LedgerError Unit}
    (h : ReadsAll replies qs l r l') (keep : ∀ l q v, f (keep l q v) = f l) : f l' = f l :=
  h.keeps (P := fun m => f m = f l) (fun same _ _ => (keep _ _ _).trans same) rfl

theorem Performs.keeps {op : Operation} {r : Except LedgerError Outcome}
    (inv : Invariant replies permitted P) (h : Performs replies op l r l')
    (allowed : permitted op) (start : P l) : P l' := by
  cases h with
  | read h => exact h.keeps inv.fetch start
  | readFails h => exact h.keeps inv.fetch start
  | load h => exact h.keeps inv.fetch start
  | loadFails h => exact h.keeps inv.fetch start
  | write w => exact inv.write start allowed
  | takeSnapshot => exact inv.take start
  | revert h => exact inv.revert start h
  | revertFails _ => exact start
  | commit id => exact inv.drop id start
  | discard id => exact inv.drop id start

/-- What every step keeps holds after a run. -/
theorem Runs.keeps {ops : List Operation} {rs : List (Except LedgerError Outcome)}
    (inv : Invariant replies permitted P) (h : Runs replies ops l rs l')
    (allowed : ∀ op ∈ ops, permitted op) (start : P l) : P l' := by
  induction h with
  | nil => exact start
  | cons first _ ih =>
    obtain ⟨now, later⟩ := List.forall_mem_cons.mp allowed
    exact ih later (first.keeps inv now start)

/-- What holds of the empty ledger and every step keeps holds of each reachable ledger. -/
theorem Reachable.keeps (inv : Invariant .any (fun _ => True) P) (start : P empty)
    (reach : Reachable l) : P l := by
  obtain ⟨ops, rs, run⟩ := reach.runs
  exact run.keeps inv (fun _ _ => trivial) start

end State

end EvmInspect.Ledger
