import EvmInspect.Proofs.Ledger.AddressWarmth

/-!
# Reading is asking once

Whatever is read through a ledger one after the other, the source sees nothing of it but questions
about what the ledger does not hold, each of them once and in the order in which they first come up
(`State.wanted`). What reading gives and where it leads is told by the answers to these questions
alone (`Looks`).

Steps of reading are put together with `Looks.bind`. That a value read early is still the one held
at the end is the frame `Looks.frame`, since what is held is never asked for.
-/

namespace EvmInspect.Ledger

/-- A question with the answer to it. -/
structure Answered where
  query : Query
  answer : query.Answer

/-- Asks questions one after the other, up to the first that is not answered. -/
def Source.askAll {m : Type → Type} [Monad m] (source : Source m) :
    List Query → m (Except SourceError (List Answered))
  | [] => pure (.ok [])
  | q :: qs => do
    match ← source.ask q with
    | .ok v => return (← askAll source qs).map (⟨q, v⟩ :: ·)
    | .error cause => return .error cause

section AskAll

variable {σ : Type} {source : Source (StateM σ)} {ps qs : List Query} {q : Query}
variable {xs ys : List Answered} {cause : SourceError} {s s₁ s₂ : σ}

theorem run_askAll_cons {v : q.Answer} (first : (source.ask q).run s = (.ok v, s₁)) :
    (source.askAll (q :: qs)).run s =
      (((source.askAll qs).run s₁).1.map (⟨q, v⟩ :: ·), ((source.askAll qs).run s₁).2) := by
  simp only [Source.askAll, StateT.run_bind, first]
  rfl

theorem run_askAll_cons_of_error (first : (source.ask q).run s = (.error cause, s₁)) :
    (source.askAll (q :: qs)).run s = (.error cause, s₁) := by
  simp only [Source.askAll, StateT.run_bind, first]
  rfl

theorem query_of_askAll (all : (source.askAll qs).run s = (.ok xs, s₁)) :
    xs.map Answered.query = qs := by
  induction qs generalizing s xs with
  | nil =>
    cases all
    rfl
  | cons q qs ih =>
    cases first : (source.ask q).run s with
    | mk reply s' =>
      cases reply with
      | error cause =>
        rw [run_askAll_cons_of_error first] at all
        cases all
      | ok v =>
        rw [run_askAll_cons first] at all
        cases rest : (source.askAll qs).run s' with
        | mk later s'' =>
          rw [rest] at all
          cases later with
          | error cause => cases all
          | ok ys =>
            cases all
            rw [List.map_cons, ih rest]

/-- Of questions put in two parts, the second part is asked once the first is answered. -/
theorem askAll_append_cases {reply : Except SourceError (List Answered)}
    (all : (source.askAll (ps ++ qs)).run s = (reply, s₂)) :
    (∃ cause, (source.askAll ps).run s = (.error cause, s₂) ∧ reply = .error cause) ∨
      ∃ xs s₁ late, (source.askAll ps).run s = (.ok xs, s₁) ∧
        (source.askAll qs).run s₁ = (late, s₂) ∧ reply = late.map (xs ++ ·) := by
  induction ps generalizing s reply with
  | nil => exact .inr ⟨[], s, reply, rfl, all, by cases reply <;> rfl⟩
  | cons p ps ih =>
    rw [List.cons_append] at all
    cases first : (source.ask p).run s with
    | mk answer s' =>
      cases answer with
      | error cause =>
        rw [run_askAll_cons_of_error first] at all ⊢
        cases all
        exact .inl ⟨cause, rfl, rfl⟩
      | ok v =>
        rw [run_askAll_cons first] at all ⊢
        cases rest : (source.askAll (ps ++ qs)).run s' with
        | mk later s'' =>
          rw [rest] at all
          cases all
          rcases ih rest with ⟨cause, early, rfl⟩ | ⟨xs, s₁, late, early, after, rfl⟩
          · exact .inl ⟨cause, by rw [early]; rfl, rfl⟩
          · exact .inr ⟨⟨p, v⟩ :: xs, s₁, late, by rw [early]; rfl, after, by cases late <;> rfl⟩

end AskAll

namespace State

/-- What a ledger has to ask to read some values: all that it does not hold, each of it once. -/
def wanted (l : State) (qs : List Query) : List Query :=
  (qs.filter fun q => (l.held? q).isNone).eraseDups

/-- Keeps answers one after the other. -/
def keepAll (l : State) (xs : List Answered) : State :=
  xs.foldl (fun l x => l.keep x.query x.answer) l

/-! ## What is held of the answers -/

section KeepAll

variable {l : State} {xs ys : List Answered} {q : Query}

theorem keepAll_append : l.keepAll (xs ++ ys) = (l.keepAll xs).keepAll ys := List.foldl_append

theorem held?_keepAll_of_not_mem (other : q ∉ xs.map Answered.query) :
    (l.keepAll xs).held? q = l.held? q := by
  induction xs generalizing l with
  | nil => rfl
  | cons x xs ih =>
    obtain ⟨here, later⟩ := not_or.mp (mt List.mem_cons.mpr other)
    exact (ih later).trans (held?_keep_of_ne x.answer here)

theorem held?_keepAll_eq_none_iff :
    (l.keepAll xs).held? q = none ↔ l.held? q = none ∧ q ∉ xs.map Answered.query := by
  induction xs generalizing l with
  | nil => exact (and_iff_left List.not_mem_nil).symm
  | cons x xs ih =>
    rw [List.map_cons, List.mem_cons, not_or, ← and_assoc]
    refine ih.trans (and_congr_left fun _ => ?_)
    by_cases same : q = x.query
    · subst same
      rw [held?_keep]
      exact iff_of_false nofun fun both => both.2 rfl
    · rw [held?_keep_of_ne x.answer same]
      exact (and_iff_left same).symm

/-- What is held after answers is one of them, or was held before. -/
theorem of_held?_keepAll {v : q.Answer} (held : (l.keepAll xs).held? q = some v) :
    l.held? q = some v ∨ ⟨q, v⟩ ∈ xs := by
  induction xs generalizing l with
  | nil => exact .inl held
  | cons x xs ih =>
    rcases ih held with before | later
    · by_cases same : q = x.query
      · subst same
        rw [held?_keep] at before
        cases before
        exact .inr List.mem_cons_self
      · exact .inl ((held?_keep_of_ne x.answer same).symm.trans before)
    · exact .inr (List.mem_cons_of_mem x later)

/-- Answers leave alone what execution added to a balance. -/
theorem delta_keepAll (a : Address) :
    ((l.keepAll xs).world.accountD a).delta = (l.world.accountD a).delta := by
  have one (l : State) (x : Answered) :
      ((l.keep x.query x.answer).world.accountD a).delta = (l.world.accountD a).delta := by
    obtain ⟨q, v⟩ := x
    cases q with
    | blockHash number => rfl
    | _ =>
      simp only [keep, World.accountD_touch]
      split
      next same =>
        subst same
        rfl
      next => rfl
  induction xs generalizing l with
  | nil => rfl
  | cons x xs ih => exact ih.trans (one l x)

/-! ## What is wanted -/

theorem mem_wanted {qs : List Query} : q ∈ l.wanted qs ↔ q ∈ qs ∧ l.held? q = none := by
  rw [wanted, List.mem_eraseDups, List.mem_filter, Option.isNone_iff_eq_none]

/-- What is wanted first is asked for first. -/
theorem exists_wanted_append (l : State) (ps qs : List Query) :
    ∃ rest, l.wanted (ps ++ qs) = l.wanted ps ++ rest := by
  rw [wanted, List.filter_append, List.eraseDups_append]
  exact ⟨_, rfl⟩

/-- Of what is read later, nothing is wanted that was answered before. -/
theorem wanted_append {ps qs : List Query} (answers : xs.map Answered.query = l.wanted ps) :
    l.wanted (ps ++ qs) = l.wanted ps ++ (l.keepAll xs).wanted qs := by
  rw [wanted, List.filter_append, List.eraseDups_append, List.removeAll, List.filter_filter]
  congr 2
  refine List.filter_congr fun q _ => ?_
  rw [Bool.eq_iff_iff, Bool.and_eq_true, Option.isNone_iff_eq_none, Option.isNone_iff_eq_none,
    held?_keepAll_eq_none_iff, answers, mem_wanted, Bool.not_eq_true', List.elem_eq_mem,
    decide_eq_false_iff_not, List.mem_filter, Option.isNone_iff_eq_none, and_comm]

theorem wanted_eq_of_unheld {qs : List Query} (absent : ∀ q ∈ qs, l.held? q = none) :
    l.wanted qs = qs.eraseDups := by
  rw [wanted, List.filter_eq_self.mpr fun q mem => Option.isNone_iff_eq_none.mpr (absent q mem)]

theorem wanted_eq_nil {qs : List Query} (held : ∀ q ∈ qs, l.held? q ≠ none) : l.wanted qs = [] := by
  have none : (qs.filter fun q => (l.held? q).isNone) = [] := by
    refine List.filter_eq_nil_iff.mpr fun q mem absent => ?_
    exact held q mem (Option.isNone_iff_eq_none.mp absent)
  rw [wanted, none, List.eraseDups_nil]

end KeepAll

/-! ## Reading -/

section Looks

variable {σ α β : Type} {source : Source (StateM σ)}

/-- A way to read from a ledger: it may ask a source, and it may fail. -/
abbrev Reading (σ α : Type) := State → StateM σ (Except LedgerError α × State)

/-- Goes on reading with what was read, unless that failed. -/
def Reading.andThen (first : Reading σ α) (next : α → Reading σ β) : Reading σ β := fun l => do
  match ← first l with
  | (.ok v, l) => next v l
  | (.error e, l) => return (.error e, l)

/-- From a ledger on, a way to read looks up some values. It asks what is wanted of them. If all of
this is answered the ledger keeps the answers and the result is as described, and the failure to
answer is given otherwise. -/
structure Looks (source : Source (StateM σ)) (reading : Reading σ α) (l : State) (qs : List Query)
    (result : α → State → Prop) : Prop where
  answered : ∀ {s xs s'}, (source.askAll (l.wanted qs)).run s = (.ok xs, s') →
    ∃ v, (reading l).run s = ((.ok v, l.keepAll xs), s') ∧ result v (l.keepAll xs)
  failed : ∀ {s cause s'}, (source.askAll (l.wanted qs)).run s = (.error cause, s') →
    ∃ l', (reading l).run s = ((.error (.source cause), l'), s')

variable {reading : Reading σ α} {l : State} {ps qs : List Query} {q : Query}
variable {result : α → State → Prop}

/-- A value that is held stays the one that is held. -/
theorem Looks.frame (h : Looks source reading l qs result) {v : q.Answer}
    (held : l.held? q = some v) :
    Looks source reading l qs fun x l' => result x l' ∧ l'.held? q = some v where
  answered {s xs s'} all := by
    obtain ⟨x, run, holds⟩ := h.answered all
    have unasked : q ∉ xs.map Answered.query := by
      rw [query_of_askAll all, mem_wanted, held]
      exact fun absent => nomatch absent.2
    exact ⟨x, run, holds, (held?_keepAll_of_not_mem unasked).trans held⟩
  failed := h.failed

/-- Nothing is asked for a result that is there. -/
theorem looks_pure {v : α} (holds : result v l) :
    Looks source (fun l => pure (.ok v, l)) l [] result where
  answered all := by
    cases all
    exact ⟨v, rfl, holds⟩
  failed none := nomatch none

theorem looks_read (q : Query) :
    Looks source (fun l => l.read source q) l [q] fun v l' => l'.held? q = some v := by
  cases held : l.held? q with
  | some v =>
    have nothing : l.wanted [q] = [] :=
      wanted_eq_nil (List.forall_mem_singleton.mpr (Option.ne_none_iff_exists'.mpr ⟨v, held⟩))
    have read : l.read source q = pure (.ok v, l) := by
      unfold read
      rw [held]
    constructor
    · intro s xs s' all
      rw [nothing] at all
      cases all
      exact ⟨v, by rw [read]; rfl, held⟩
    · intro s cause s' all
      rw [nothing] at all
      cases all
  | none =>
    have self : l.wanted [q] = [q] := by
      rw [wanted_eq_of_unheld (List.forall_mem_singleton.mpr held)]
      rfl
    have run (s : σ) : (l.read source q).run s =
        match (source.ask q).run s with
        | (.ok v, s') => ((.ok v, l.keep q v), s')
        | (.error cause, s') => ((.error (.source cause), l), s') := by
      unfold read
      rw [held, StateT.run_bind]
      cases (source.ask q).run s with
      | mk reply s' => cases reply <;> rfl
    constructor
    · intro s xs s' all
      rw [self] at all
      cases asked : (source.ask q).run s with
      | mk reply s₁ =>
        cases reply with
        | error cause =>
          rw [run_askAll_cons_of_error asked] at all
          cases all
        | ok v =>
          rw [run_askAll_cons asked] at all
          cases all
          exact ⟨v, by rw [run, asked]; rfl, held?_keep l q v⟩
    · intro s cause s' all
      rw [self] at all
      cases asked : (source.ask q).run s with
      | mk reply s₁ =>
        cases reply with
        | error cause =>
          rw [run_askAll_cons_of_error asked] at all
          cases all
          exact ⟨l, by rw [run, asked]⟩
        | ok v =>
          rw [run_askAll_cons asked] at all
          cases all

/-- What is read in two steps is wanted in the order of the steps, and nothing of it twice. -/
theorem Looks.bind {next : α → Reading σ β} {final : β → State → Prop}
    (first : Looks source reading l ps result)
    (rest : ∀ v xs, xs.map Answered.query = l.wanted ps → result v (l.keepAll xs) →
      Looks source (next v) (l.keepAll xs) qs final) :
    Looks source (reading.andThen next) l (ps ++ qs) final := by
  have onward {s s₁ : σ} {v : α} {l₁ : State} (run : (reading l).run s = ((.ok v, l₁), s₁)) :
      (reading.andThen next l).run s = (next v l₁).run s₁ := by
    simp only [Reading.andThen, StateT.run_bind, run]
    rfl
  have stopped {s s₁ : σ} {e : LedgerError} {l₁ : State}
      (run : (reading l).run s = ((.error e, l₁), s₁)) :
      (reading.andThen next l).run s = ((.error e, l₁), s₁) := by
    simp only [Reading.andThen, StateT.run_bind, run]
    rfl
  obtain ⟨later, split⟩ := exists_wanted_append l ps qs
  have wanted_later {xs : List Answered} (answers : xs.map Answered.query = l.wanted ps) :
      later = (l.keepAll xs).wanted qs :=
    List.append_cancel_left (split.symm.trans (wanted_append answers))
  constructor
  · intro s zs s' all
    rw [split] at all
    rcases askAll_append_cases all with ⟨cause, _, failed⟩ | ⟨xs, s₁, late, early, after, whole⟩
    · cases failed
    · cases late with
      | error cause => cases whole
      | ok ys =>
        cases whole
        have answers := query_of_askAll early
        obtain ⟨v, run, holds⟩ := first.answered early
        rw [wanted_later answers] at after
        obtain ⟨w, run', holds'⟩ := (rest v xs answers holds).answered after
        rw [keepAll_append]
        exact ⟨w, (onward run).trans run', holds'⟩
  · intro s cause s' all
    rw [split] at all
    rcases askAll_append_cases all with ⟨_, early, failed⟩ | ⟨xs, s₁, late, early, after, whole⟩
    · cases failed
      obtain ⟨l₁, run⟩ := first.failed early
      exact ⟨l₁, stopped run⟩
    · cases late with
      | ok ys => cases whole
      | error cause =>
        cases whole
        have answers := query_of_askAll early
        obtain ⟨v, run, holds⟩ := first.answered early
        rw [wanted_later answers] at after
        obtain ⟨l₂, run'⟩ := (rest v xs answers holds).failed after
        exact ⟨l₂, (onward run).trans run'⟩

/-- Reading several values and giving none of them. -/
theorem looks_readAll (qs : List Query) (l : State) :
    Looks source (fun l => l.readAll source qs) l qs fun _ _ => True := by
  induction qs generalizing l with
  | nil => exact looks_pure trivial
  | cons q qs ih =>
    have steps : (fun l => l.readAll source (q :: qs)) =
        Reading.andThen (fun l => l.read source q) fun _ l => l.readAll source qs := by
      funext l
      simp only [readAll, Reading.andThen]
      refine bind_congr fun read => ?_
      obtain ⟨outcome, l'⟩ := read
      cases outcome <;> rfl
    rw [steps]
    exact (looks_read q).bind fun v xs _ _ => ih (l.keepAll xs)

end Looks

end State

end EvmInspect.Ledger
