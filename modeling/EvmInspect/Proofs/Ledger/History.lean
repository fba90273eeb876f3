import EvmInspect.Proofs.Ledger.Overlay

/-!
# The history of a run

A run gives its outcomes and its last ledger. Its history tells more: for each operation a
`Moment` with the ledger before and after it and the questions that it put to the source. The
questions are taken down by the source itself (`Source.recording`), which otherwise replies as
before, so a history belongs to the very run that it is the history of (`map_outcome_history`,
`course_history`).

A law about moments is proved along a `Course`: moments that follow one another, each of which
obeys the rules of its operation.
-/

namespace EvmInspect.Ledger

/-- A question put to a source, and whether it was answered. -/
structure Fetch where
  query : Query
  answered : Bool
deriving DecidableEq

variable {σ : Type}

/-- The source, taking down what it is asked. -/
def Source.recording (source : Source (StateM σ)) : Source (StateM (σ × List Fetch)) where
  ask q := fun (s, asked) =>
    let (reply, s') := (source.ask q).run s
    (reply, s', asked ++ [⟨q, reply.isOk⟩])

theorem Source.run_recording (source : Source (StateM σ)) (q : Query) (s : σ)
    (asked : List Fetch) :
    (source.recording.ask q).run (s, asked) =
      (((source.ask q).run s).1, ((source.ask q).run s).2,
        asked ++ [⟨q, ((source.ask q).run s).1.isOk⟩]) := rfl

namespace State

/-- One operation of a run. -/
structure Moment where
  operation : Operation
  before : State
  fetches : List Fetch
  outcome : Except LedgerError Outcome
  after : State

/-- The moments of a run. -/
def history (source : Source (StateM σ)) : List Operation → State → σ → List Moment
  | [], _, _ => []
  | op :: ops, l, s =>
    let ((outcome, l'), s', fetches) := (l.perform source.recording op).run (s, [])
    ⟨op, l, fetches, outcome, l'⟩ :: history source ops l' s'

/-- The way from one ledger to another by questions put to a source one after the other, none
of them about something that is held at the time. What is answered is kept. -/
inductive Asks : State → List Fetch → State → Prop
  | nil {l} : Asks l [] l
  | failed {l q fs l'} : l.held? q = none → Asks l fs l' → Asks l (⟨q, false⟩ :: fs) l'
  | answered {l q v fs l'} : l.held? q = none → Asks (l.keep q v) fs l' →
      Asks l (⟨q, true⟩ :: fs) l'

theorem Asks.append {l m l' : State} {fs gs : List Fetch} (first : Asks l fs m)
    (rest : Asks m gs l') : Asks l (fs ++ gs) l' := by
  induction first with
  | nil => exact rest
  | failed absent _ ih => exact .failed absent (ih rest)
  | answered absent _ ih => exact .answered absent (ih rest)

/-- What holds of a moment by the rules of its operation. -/
structure Moment.Obeys (replies : Replies) (x : Moment) : Prop where
  performs : Performs replies x.operation x.before x.outcome x.after
  asked : x.fetches = [] ∨ Asks x.before x.fetches x.after
  own : (x.fetches.map Fetch.query).Sublist (Eager.questions x.operation)

/-- Moments that follow one another from a ledger to another. -/
inductive Course (replies : Replies) : State → List Moment → State → Prop
  | nil {l} : Course replies l [] l
  | cons {x xs l'} : x.Obeys replies → Course replies x.after xs l' →
      Course replies x.before (x :: xs) l'

/-! ## Taking down changes nothing -/

section Recording

variable (source : Source (StateM σ)) (l : State) (s : σ)

/-- Reading goes as before, and what it asks is taken down. -/
theorem read_recording (q : Query) :
    ∃ new, (∀ asked, (l.read source.recording q).run (s, asked) =
        (((l.read source q).run s).1, ((l.read source q).run s).2, asked ++ new)) ∧
      Asks l new ((l.read source q).run s).1.2 ∧ (new.map Fetch.query).Sublist [q] := by
  unfold read
  cases hq : l.held? q with
  | some v =>
    refine ⟨[], fun asked => ?_, .nil, List.nil_sublist _⟩
    rw [List.append_nil]
    rfl
  | none =>
    simp only [StateT.run_bind, source.run_recording]
    cases hs : (source.ask q).run s with
    | mk reply s' =>
      refine ⟨[⟨q, reply.isOk⟩], ?_⟩
      cases reply with
      | ok v => exact ⟨fun _ => rfl, .answered hq .nil, List.Sublist.refl _⟩
      | error cause => exact ⟨fun _ => rfl, .failed hq .nil, List.Sublist.refl _⟩

theorem readAll_recording (qs : List Query) :
    ∃ new, (∀ asked, (l.readAll source.recording qs).run (s, asked) =
        (((l.readAll source qs).run s).1, ((l.readAll source qs).run s).2, asked ++ new)) ∧
      Asks l new ((l.readAll source qs).run s).1.2 ∧ (new.map Fetch.query).Sublist qs := by
  induction qs generalizing l s with
  | nil =>
    refine ⟨[], fun asked => ?_, .nil, List.nil_sublist _⟩
    rw [List.append_nil]
    rfl
  | cons q qs ih =>
    obtain ⟨new, same, asks, own⟩ := read_recording source l s q
    unfold readAll
    simp only [StateT.run_bind, same]
    cases hs : (l.read source q).run s with
    | mk p s' =>
      obtain ⟨r, m⟩ := p
      rw [hs] at asks
      cases r with
      | ok v =>
        obtain ⟨later, same', asks', own'⟩ := ih m s'
        refine ⟨new ++ later, fun asked => ?_, asks.append asks', ?_⟩
        · rw [← List.append_assoc]
          exact same' (asked ++ new)
        · rw [List.map_append]
          exact own.append own'
      | error e =>
        refine ⟨new, fun _ => rfl, asks, ?_⟩
        exact own.trans (List.singleton_sublist.mpr List.mem_cons_self)

/-- An operation does as before, and only those that read ask anything. -/
theorem perform_recording (op : Operation) :
    ∃ new, (∀ asked, (l.perform source.recording op).run (s, asked) =
        (((l.perform source op).run s).1, ((l.perform source op).run s).2, asked ++ new)) ∧
      (new = [] ∨ Asks l new ((l.perform source op).run s).1.2) ∧
      (new.map Fetch.query).Sublist (Eager.questions op) := by
  cases op with
  | read q =>
    obtain ⟨new, same, asks, own⟩ := read_recording source l s q
    simp only [perform, StateT.run_bind, same]
    cases hs : (l.read source q).run s with
    | mk p s' =>
      obtain ⟨r, m⟩ := p
      rw [hs] at asks
      cases r with
      | ok v => exact ⟨new, fun _ => rfl, .inr asks, own⟩
      | error e => exact ⟨new, fun _ => rfl, .inr asks, own⟩
  | load a =>
    obtain ⟨new, same, asks, own⟩ := readAll_recording source l s [.balance a, .nonce a, .code a]
    simp only [perform, StateT.run_bind, same]
    cases hs : (l.readAll source [.balance a, .nonce a, .code a]).run s with
    | mk p s' =>
      obtain ⟨r, m⟩ := p
      rw [hs] at asks
      cases r with
      | ok u => exact ⟨new, fun _ => rfl, .inr asks, own⟩
      | error e => exact ⟨new, fun _ => rfl, .inr asks, own⟩
  | revert id =>
    refine ⟨[], fun asked => ?_, .inl rfl, List.nil_sublist _⟩
    rw [List.append_nil]
    simp only [perform]
    cases l.revert id <;> rfl
  | _ =>
    refine ⟨[], fun asked => ?_, .inl rfl, List.nil_sublist _⟩
    rw [List.append_nil]
    rfl

end Recording

/-! ## A history is that of its run -/

section History

variable (source : Source (StateM σ))

/-- The first moment of a history is what its operation does. -/
theorem history_cons (op : Operation) (ops : List Operation) (l : State) (s : σ) :
    ∃ fetches, history source (op :: ops) l s =
        ⟨op, l, fetches, ((l.perform source op).run s).1.1, ((l.perform source op).run s).1.2⟩ ::
          history source ops ((l.perform source op).run s).1.2 ((l.perform source op).run s).2 ∧
      (∀ asked, (l.perform source.recording op).run (s, asked) =
        (((l.perform source op).run s).1, ((l.perform source op).run s).2, asked ++ fetches)) ∧
      (fetches = [] ∨ Asks l fetches ((l.perform source op).run s).1.2) ∧
      (fetches.map Fetch.query).Sublist (Eager.questions op) := by
  obtain ⟨new, same, asks, own⟩ := perform_recording source l s op
  refine ⟨new, ?_, same, asks, own⟩
  simp only [history, same, List.nil_append]

theorem map_operation_history (ops : List Operation) (l : State) (s : σ) :
    (history source ops l s).map Moment.operation = ops := by
  induction ops generalizing l s with
  | nil => rfl
  | cons op ops ih =>
    obtain ⟨_, split, _⟩ := history_cons source op ops l s
    rw [split, List.map_cons, ih]

theorem map_outcome_history (ops : List Operation) (l : State) (s : σ) :
    (history source ops l s).map Moment.outcome = outcomes source ops l s := by
  induction ops generalizing l s with
  | nil => rfl
  | cons op ops ih =>
    obtain ⟨_, split, _⟩ := history_cons source op ops l s
    rw [split, List.map_cons, ih]
    simp only [outcomes, run, StateT.run_bind]
    rfl

/-- The questions of a history are all that its run puts to the source, in order. -/
theorem run_recording (ops : List Operation) (l : State) (s : σ) (asked : List Fetch) :
    (run source.recording ops l).run (s, asked) =
      (((run source ops l).run s).1, ((run source ops l).run s).2,
        asked ++ (history source ops l s).flatMap Moment.fetches) := by
  induction ops generalizing l s asked with
  | nil =>
    rw [history, List.flatMap_nil, List.append_nil]
    rfl
  | cons op ops ih =>
    obtain ⟨fetches, split, same, _⟩ := history_cons source op ops l s
    rw [split, List.flatMap_cons, ← List.append_assoc]
    simp only [run, StateT.run_bind, same, ih]
    rfl

/-- A history is a course from the first ledger of its run to the last. -/
theorem course_history {replies : Replies} (gives : source.Gives replies) (ops : List Operation)
    (l : State) (s : σ) :
    Course replies l (history source ops l s) (State.after source ops l s) := by
  induction ops generalizing l s with
  | nil => exact .nil
  | cons op ops ih =>
    obtain ⟨fetches, split, _, asks, own⟩ := history_cons source op ops l s
    have last : State.after source (op :: ops) l s = State.after source ops
        ((l.perform source op).run s).1.2 ((l.perform source op).run s).2 := by
      simp only [State.after, run, StateT.run_bind]
      rfl
    rw [split, last]
    have obeys : Moment.Obeys replies ⟨op, l, fetches, _, _⟩ :=
      ⟨performs_perform gives op l s, asks, own⟩
    exact Course.cons obeys (ih _ _)

end History

/-! ## Along a course -/

section Course

variable {replies : Replies} {l l' : State} {xs ys : List Moment}

/-- What every step keeps holds before and after each moment, and at the end. -/
theorem Course.keeps {permitted : Operation → Prop} {P : State → Prop}
    (inv : Invariant replies permitted P) (h : Course replies l xs l')
    (allowed : ∀ x ∈ xs, permitted x.operation) (start : P l) :
    P l' ∧ ∀ x ∈ xs, P x.before ∧ P x.after := by
  induction h with
  | nil => exact ⟨start, fun _ mem => nomatch mem⟩
  | @cons x xs l' obeys _ ih =>
    obtain ⟨now, later⟩ := List.forall_mem_cons.mp allowed
    have next : P x.after := obeys.performs.keeps inv now start
    obtain ⟨last, between⟩ := ih later next
    exact ⟨last, List.forall_mem_cons.mpr ⟨⟨start, next⟩, between⟩⟩

theorem Course.obeys (h : Course replies l xs l') : ∀ x ∈ xs, x.Obeys replies := by
  induction h with
  | nil => exact fun _ mem => nomatch mem
  | cons obeys _ ih => exact List.forall_mem_cons.mpr ⟨obeys, ih⟩

/-- A course ends where its last moment does. -/
theorem Course.ends {P : State → Prop} (h : Course replies l xs l') (start : P l)
    (after : ∀ x ∈ xs, P x.after) : P l' := by
  induction h with
  | nil => exact start
  | cons _ _ ih =>
    obtain ⟨now, later⟩ := List.forall_mem_cons.mp after
    exact ih now later

/-- A course may be cut between any two moments. -/
theorem Course.of_append (h : Course replies l (xs ++ ys) l') :
    ∃ m, Course replies l xs m ∧ Course replies m ys l' := by
  induction xs generalizing l with
  | nil => exact ⟨l, .nil, h⟩
  | cons x xs ih =>
    cases h with
    | cons obeys rest =>
      obtain ⟨m, first, last⟩ := ih rest
      exact ⟨m, .cons obeys first, last⟩

end Course

end State

end EvmInspect.Ledger
