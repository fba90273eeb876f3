import EvmInspect.Proofs.Ledger.Refinement

/-!
# Runs over one chain

A source that answers every question, and each with the answer of one chain, leaves nothing
open: what operations give over it and the ledger they lead to follow from the operations and
the first ledger (`Runs.unique`). Two sources of a chain may therefore be exchanged, whatever
else they do, as long as both answer what the run asks (`Source.AnswersFor.same_run`).
-/

namespace EvmInspect.Ledger

/-- Every question is answered, and as the chain has it. -/
def ChainView.answers (chain : ChainView) : Replies := fun q r => r = .ok (chain q)

namespace State

variable {replies replies' : Replies} {l m : State}

/-! ## Replies that do not come up -/

/-- Reading uses only what is replied to its own question. -/
theorem Reads.weaken {q : Query} {r : Except LedgerError q.Answer} (h : Reads replies q l r m)
    (sub : ∀ v, replies q v → replies' q v) : Reads replies' q l r m := by
  cases h with
  | held there => exact .held there
  | fetched absent reply => exact .fetched absent (sub _ reply)
  | failed absent reply => exact .failed absent (sub _ reply)

theorem ReadsAll.weaken {qs : List Query} {r : Except LedgerError Unit}
    (h : ReadsAll replies qs l r m) (sub : ∀ q ∈ qs, ∀ v, replies q v → replies' q v) :
    ReadsAll replies' qs l r m := by
  induction h with
  | nil => exact .nil
  | cons first _ ih =>
    obtain ⟨now, later⟩ := List.forall_mem_cons.mp sub
    exact .cons (first.weaken now) (ih later)
  | stop first => exact .stop (first.weaken (sub _ List.mem_cons_self))

theorem Performs.weaken {op : Operation} {r : Except LedgerError Outcome}
    (h : Performs replies op l r m)
    (sub : ∀ q ∈ Eager.questions op, ∀ v, replies q v → replies' q v) :
    Performs replies' op l r m := by
  cases h with
  | read h => exact .read (h.weaken (sub _ List.mem_cons_self))
  | readFails h => exact .readFails (h.weaken (sub _ List.mem_cons_self))
  | load h => exact .load (h.weaken sub)
  | loadFails h => exact .loadFails (h.weaken sub)
  | write w => exact .write w l
  | takeSnapshot => exact .takeSnapshot l
  | revert h => exact .revert h
  | revertFails h => exact .revertFails h
  | commit id => exact .commit id l
  | discard id => exact .discard id l

/-- A run uses only what is replied to the questions of its operations. -/
theorem Runs.weaken {ops : List Operation} {rs : List (Except LedgerError Outcome)}
    (h : Runs replies ops l rs m)
    (sub : ∀ op ∈ ops, ∀ q ∈ Eager.questions op, ∀ v, replies q v → replies' q v) :
    Runs replies' ops l rs m := by
  induction h with
  | nil => exact .nil
  | cons first _ ih =>
    obtain ⟨now, later⟩ := List.forall_mem_cons.mp sub
    exact .cons (first.weaken now) (ih later)

/-- Runs are put one after the other. -/
theorem Runs.append {ops ops' : List Operation} {rs rs' : List (Except LedgerError Outcome)}
    {l' : State} (first : Runs replies ops l rs m) (rest : Runs replies ops' m rs' l') :
    Runs replies (ops ++ ops') l (rs ++ rs') l' := by
  induction first with
  | nil => exact rest
  | cons step _ ih => exact .cons step (ih rest)

/-! ## One way to go -/

variable {chain : ChainView} {m' : State}

theorem Reads.unique {q : Query} {r r' : Except LedgerError q.Answer}
    (h : Reads chain.answers q l r m) (h' : Reads chain.answers q l r' m') :
    r = r' ∧ m = m' := by
  cases h with
  | held there =>
    cases h' with
    | held there' =>
      cases there.symm.trans there'
      exact ⟨rfl, rfl⟩
    | fetched absent _ => cases there.symm.trans absent
    | failed absent _ => cases there.symm.trans absent
  | fetched absent reply =>
    cases h' with
    | held there' => cases absent.symm.trans there'
    | fetched _ reply' =>
      cases reply.trans reply'.symm
      exact ⟨rfl, rfl⟩
    | failed _ reply' => cases reply'
  | failed _ reply => cases reply

theorem ReadsAll.unique {qs : List Query} {r r' : Except LedgerError Unit}
    (h : ReadsAll chain.answers qs l r m) (h' : ReadsAll chain.answers qs l r' m') :
    r = r' ∧ m = m' := by
  induction h with
  | nil =>
    cases h'
    exact ⟨rfl, rfl⟩
  | cons first _ ih =>
    cases h' with
    | cons first' rest' =>
      obtain ⟨-, rfl⟩ := first.unique first'
      exact ih rest'
    | stop first' => cases (first.unique first').1
  | stop first =>
    cases h' with
    | cons first' _ => cases (first.unique first').1
    | stop first' =>
      obtain ⟨same, rfl⟩ := first.unique first'
      cases same
      exact ⟨rfl, rfl⟩

theorem Performs.unique {op : Operation} {r r' : Except LedgerError Outcome}
    (h : Performs chain.answers op l r m) (h' : Performs chain.answers op l r' m') :
    r = r' ∧ m = m' := by
  cases h with
  | read h =>
    cases h' with
    | read h' =>
      obtain ⟨same, rfl⟩ := h.unique h'
      cases same
      exact ⟨rfl, rfl⟩
    | readFails h' => cases (h.unique h').1
  | readFails h =>
    cases h' with
    | read h' => cases (h.unique h').1
    | readFails h' =>
      obtain ⟨same, rfl⟩ := h.unique h'
      cases same
      exact ⟨rfl, rfl⟩
  | load h =>
    cases h' with
    | load h' => exact ⟨rfl, (h.unique h').2⟩
    | loadFails h' => cases (h.unique h').1
  | loadFails h =>
    cases h' with
    | load h' => cases (h.unique h').1
    | loadFails h' =>
      obtain ⟨same, rfl⟩ := h.unique h'
      cases same
      exact ⟨rfl, rfl⟩
  | revert h =>
    cases h' with
    | revert h' =>
      cases h.symm.trans h'
      exact ⟨rfl, rfl⟩
    | revertFails h' => cases h.symm.trans h'
  | revertFails h =>
    cases h' with
    | revert h' => cases h.symm.trans h'
    | revertFails h' =>
      cases h.symm.trans h'
      exact ⟨rfl, rfl⟩
  | _ =>
    cases h'
    exact ⟨rfl, rfl⟩

/-- Where every question is answered as the chain has it, operations go one way only. -/
theorem Runs.unique {ops : List Operation} {rs rs' : List (Except LedgerError Outcome)}
    (h : Runs chain.answers ops l rs m) (h' : Runs chain.answers ops l rs' m') :
    rs = rs' ∧ m = m' := by
  induction h generalizing rs' with
  | nil =>
    cases h'
    exact ⟨rfl, rfl⟩
  | cons first _ ih =>
    cases h' with
    | cons first' rest' =>
      obtain ⟨rfl, rfl⟩ := first.unique first'
      obtain ⟨rfl, rfl⟩ := ih rest'
      exact ⟨rfl, rfl⟩

end State

/-! ## Sources that may be exchanged -/

/-- A source answers the questions of these operations as the chain has it. -/
def Source.AnswersFor {σ : Type} (source : Source (StateM σ)) (chain : ChainView)
    (ops : List State.Operation) : Prop :=
  ∀ op ∈ ops, ∀ q ∈ Eager.questions op, ∀ r, source.replies q r → r = .ok (chain q)

section AnswersFor

variable {σ τ : Type} {source : Source (StateM σ)} {source' : Source (StateM τ)}
variable {chain : ChainView} {ops : List State.Operation}

theorem Source.AnswersFor.runs (h : source.AnswersFor chain ops) (l : State) (s : σ) :
    State.Runs chain.answers ops l (State.outcomes source ops l s)
      (State.after source ops l s) :=
  (State.runs_run source.gives_replies ops l s).weaken h

/-- Operations give the same and end in the same ledger over any two sources that answer
their questions as one chain has it. -/
theorem Source.AnswersFor.same_run (h : source.AnswersFor chain ops)
    (h' : source'.AnswersFor chain ops) (l : State) (s : σ) (t : τ) :
    State.outcomes source ops l s = State.outcomes source' ops l t ∧
      State.after source ops l s = State.after source' ops l t :=
  (h.runs l s).unique (h'.runs l t)

end AnswersFor

end EvmInspect.Ledger
