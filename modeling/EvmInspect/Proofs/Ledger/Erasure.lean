import EvmInspect.Proofs.Ledger.Determined

/-!
# Failures leave nothing behind

An operation that fails leaves no trace in the ledger, and a load that fails leaves exactly
what its reads before the failing one would have left. So a run over a source that fails now
and then can be told without its failures: what is left of it (`remainder`) is a run over a
source that never fails, with the same outcomes and the same last ledger.

Each operation is compared with what is left of it (`runs_remains`); a run is these
comparisons one after the other (`runs_remainder`), and since a source that never fails leaves
nothing open, the outcomes and the ledger of `remainder` over it are determined.
-/

namespace EvmInspect.Ledger.State

variable {σ : Type}

/-- The first of these reads, up to one that fails, with what they give. -/
def readsBeforeFailure (source : Source (StateM σ)) :
    List Query → State → σ → List (Operation × Except LedgerError Outcome)
  | [], _, _ => []
  | q :: qs, l, s =>
    match (l.perform source (.read q)).run s with
    | ((.ok outcome, l'), s') =>
      (.read q, .ok outcome) :: readsBeforeFailure source qs l' s'
    | ((.error _, _), _) => []

/-- What is left of an operation, with what it gives: itself if it succeeds, the reads that
succeed if it is a load that fails, and otherwise nothing. -/
def remains (source : Source (StateM σ)) (op : Operation) (l : State) (s : σ) :
    List (Operation × Except LedgerError Outcome) :=
  match ((l.perform source op).run s).1.1, op with
  | .ok outcome, op => [(op, .ok outcome)]
  | .error _, .load a => readsBeforeFailure source [.balance a, .nonce a, .code a] l s
  | .error _, _ => []

/-- What is left of a run without its failures. -/
def remainder (source : Source (StateM σ)) :
    List Operation → State → σ → List (Operation × Except LedgerError Outcome)
  | [], _, _ => []
  | op :: ops, l, s =>
    let ((_, l'), s') := (l.perform source op).run s
    remains source op l s ++ remainder source ops l' s'

/-- The operations of a list follow one another with the outcomes beside them. -/
def Tells (replies : Replies) (steps : List (Operation × Except LedgerError Outcome))
    (l l' : State) : Prop :=
  Runs replies (steps.map Prod.fst) l (steps.map Prod.snd) l'

section Tells

variable {replies : Replies} {l m l' : State}
variable {steps steps' : List (Operation × Except LedgerError Outcome)}

theorem Tells.nil : Tells replies [] l l := Runs.nil

theorem Tells.cons {op : Operation} {r : Except LedgerError Outcome}
    (first : Performs replies op l r m) (rest : Tells replies steps m l') :
    Tells replies ((op, r) :: steps) l l' :=
  Runs.cons first rest

theorem Tells.append (first : Tells replies steps l m) (rest : Tells replies steps' m l') :
    Tells replies (steps ++ steps') l l' := by
  unfold Tells
  rw [List.map_append, List.map_append]
  exact Runs.append first rest

end Tells

/-! ## What succeeds was answered -/

section Succeeds

variable {chain : ChainView} {replies : Replies} {l m : State}

theorem Reads.answered (h : chain.Serves replies) {q : Query} {v : q.Answer}
    (reading : Reads replies q l (.ok v) m) : Reads chain.answers q l (.ok v) m := by
  cases reading with
  | held there => exact .held there
  | fetched absent reply => exact .fetched absent (congrArg Except.ok (h q v reply))

theorem ReadsAll.answered (h : chain.Serves replies) {qs : List Query}
    (reading : ReadsAll replies qs l (.ok ()) m) : ReadsAll chain.answers qs l (.ok ()) m := by
  generalize hr : (.ok () : Except LedgerError Unit) = r at reading
  induction reading with
  | nil =>
    cases hr
    exact .nil
  | cons first _ ih =>
    cases hr
    exact .cons (first.answered h) (ih rfl)
  | stop _ => cases hr

/-- An operation that succeeds goes as it does where no question fails. -/
theorem Performs.answered (h : chain.Serves replies) {op : Operation} {outcome : Outcome}
    (performs : Performs replies op l (.ok outcome) m) :
    Performs chain.answers op l (.ok outcome) m := by
  cases performs with
  | read reading => exact .read (reading.answered h)
  | load reading => exact .load (reading.answered h)
  | write w => exact .write w l
  | takeSnapshot => exact .takeSnapshot l
  | revert back => exact .revert back
  | commit id => exact .commit id l
  | discard id => exact .discard id l

/-- A question that fails changes nothing. -/
theorem Reads.unchanged {q : Query} {e : LedgerError} (reading : Reads replies q l (.error e) m) :
    m = l := by
  cases reading
  rfl

/-- An operation that fails, other than a load, changes nothing. -/
theorem Performs.unchanged {op : Operation} {e : LedgerError}
    (performs : Performs replies op l (.error e) m) (other : ∀ a, op ≠ .load a) : m = l := by
  cases performs with
  | readFails reading => exact reading.unchanged
  | loadFails _ => exact absurd rfl (other _)
  | revertFails _ => rfl

end Succeeds

/-! ## What is left of a run -/

section Remainder

variable {chain : ChainView} {source : Source (StateM σ)}

/-- The reads before the one that fails lead to the ledger that the failing load leaves. -/
theorem tells_readsBeforeFailure (honest : chain.Serves source.replies) (qs : List Query)
    (l : State) (s : σ) :
    Tells chain.answers (readsBeforeFailure source qs l s) l
      ((l.readAll source qs).run s).1.2 := by
  induction qs generalizing l s with
  | nil => exact .nil
  | cons q qs ih =>
    have reading := reads_read source.gives_replies q l s
    unfold readsBeforeFailure readAll
    simp only [perform, StateT.run_bind]
    cases hs : (l.read source q).run s with
    | mk p s' =>
      obtain ⟨r, m⟩ := p
      rw [hs] at reading
      cases r with
      | ok v => exact .cons (.read (reading.answered honest)) (ih m s')
      | error e =>
        cases reading
        exact .nil

/-- What is left of an operation leads where the operation does. -/
theorem tells_remains (honest : chain.Serves source.replies) (op : Operation) (l : State) (s : σ) :
    Tells chain.answers (remains source op l s) l ((l.perform source op).run s).1.2 := by
  have performs := performs_perform source.gives_replies op l s
  unfold remains
  cases hr : ((l.perform source op).run s).1.1 with
  | ok outcome =>
    rw [hr] at performs
    exact .cons (performs.answered honest) .nil
  | error e =>
    rw [hr] at performs
    by_cases other : ∀ a, op ≠ .load a
    · rw [performs.unchanged other]
      cases op with
      | load a => exact absurd rfl (other a)
      | _ => exact .nil
    · obtain ⟨a, isLoad⟩ := not_forall_not.mp other
      subst isLoad
      have same : ((l.perform source (.load a)).run s).1.2 =
          ((l.readAll source [.balance a, .nonce a, .code a]).run s).1.2 := by
        simp only [perform, StateT.run_bind]
        cases (l.readAll source [.balance a, .nonce a, .code a]).run s with
        | mk p s' =>
          obtain ⟨r, m⟩ := p
          cases r <;> rfl
      rw [same]
      exact tells_readsBeforeFailure honest _ l s

/-- What is left of a run leads where the run does. -/
theorem tells_remainder (honest : chain.Serves source.replies) (ops : List Operation)
    (l : State) (s : σ) :
    Tells chain.answers (remainder source ops l s) l (State.after source ops l s) := by
  induction ops generalizing l s with
  | nil => exact .nil
  | cons op ops ih =>
    unfold remainder State.after run
    simp only [StateT.run_bind]
    exact (tells_remains honest op l s).append (ih _ _)

/-- Of an operation that succeeds nothing is taken away. -/
theorem kept_sublist_remains (source : Source (StateM σ)) (op : Operation) (l : State) (s : σ) :
    ([(op, ((l.perform source op).run s).1.1)].filter fun step => step.2.isOk).Sublist
      (remains source op l s) := by
  unfold remains
  cases hr : ((l.perform source op).run s).1.1 with
  | ok outcome => exact List.Sublist.refl _
  | error e => exact List.nil_sublist _

/-- All that succeeds in a run is left of it, in order and with its outcomes. -/
theorem kept_sublist_remainder (source : Source (StateM σ)) (ops : List Operation) (l : State)
    (s : σ) :
    ((ops.zip (outcomes source ops l s)).filter fun step => step.2.isOk).Sublist
      (remainder source ops l s) := by
  induction ops generalizing l s with
  | nil => exact List.nil_sublist _
  | cons op ops ih =>
    have first := kept_sublist_remains source op l s
    have rest := ih ((l.perform source op).run s).1.2 ((l.perform source op).run s).2
    have both := first.append rest
    rw [← List.filter_append] at both
    unfold outcomes run
    simp only [StateT.run_bind]
    exact both

end Remainder

/-- A run over a source that may fail at any question, told without its failures: what is left
of it gives the same over any source of the same chain that never fails, and ends in the same
ledger. All that succeeded is left, and a question that failed changed nothing. -/
theorem failures_leave_nothing (chain : ChainView) {σ τ : Type} (source : Source (StateM σ))
    (honest : chain.Serves source.replies) (reliable : Source (StateM τ))
    (steady : reliable.Gives chain.answers) (ops : List Operation) (l : State) (s : σ) (t : τ) :
    let left := remainder source ops l s
    outcomes reliable (left.map Prod.fst) l t = left.map Prod.snd ∧
      State.after reliable (left.map Prod.fst) l t = State.after source ops l s ∧
      ((ops.zip (outcomes source ops l s)).filter fun step => step.2.isOk).Sublist left ∧
      ∀ (q : Query) (m : State) (s : σ) (e : LedgerError),
        ((m.read source q).run s).1.1 = .error e → ((m.read source q).run s).1.2 = m := by
  intro left
  have told : Tells chain.answers left l (State.after source ops l s) :=
    tells_remainder honest ops l s
  have again := runs_run steady (left.map Prod.fst) l t
  obtain ⟨same, last⟩ := again.unique told
  refine ⟨same, last, kept_sublist_remainder source ops l s, ?_⟩
  intro q m s e failed
  have reading := reads_read source.gives_replies q m s
  rw [failed] at reading
  exact reading.unchanged

/-- A load that stops at the nonce and a second one that stops at the code, with a snapshot
that is not there between them. -/
theorem everyOther_leaves_nothing :
    let chain : ChainView := fun
      | .balance _ => 100
      | .code _ => [0x60]
      | .nonce _ => 7
      | .slot _ _ => [9]
      | .blockHash _ => .zero
    let reliable : Source (StateM Unit) := ⟨fun q => pure (.ok (chain q))⟩
    let a := Address.ofNat 1
    let ops : List Operation := [.load a, .takeSnapshot, .revert 5, .load a, .read (.nonce a)]
    let left : List (Operation × Except LedgerError Outcome) :=
      [(.read (.balance a), .ok (.balance 100)), (.takeSnapshot, .ok (.snapshot 1)),
        (.read (.balance a), .ok (.balance 100)), (.read (.nonce a), .ok (.nonce 7)),
        (.read (.nonce a), .ok (.nonce 7))]
    (chain.Serves chain.everyOther.replies ∧ reliable.Gives chain.answers) ∧
      remainder chain.everyOther ops .empty false = left ∧
      outcomes reliable (left.map Prod.fst) .empty () = left.map Prod.snd ∧
      State.after reliable (left.map Prod.fst) .empty () =
        State.after chain.everyOther ops .empty false := by
  intro chain reliable a ops left
  have honest : chain.Serves chain.everyOther.replies := chain.serves_everyOther
  have steady : reliable.Gives chain.answers := by
    rintro q r ⟨_, reply⟩
    exact reply.symm
  have told : remainder chain.everyOther ops .empty false = left := by rfl
  have erased := failures_leave_nothing chain chain.everyOther honest reliable steady ops .empty
    false ()
  rw [told] at erased
  exact ⟨⟨honest, steady⟩, told, erased.1, erased.2.1⟩

end EvmInspect.Ledger.State
