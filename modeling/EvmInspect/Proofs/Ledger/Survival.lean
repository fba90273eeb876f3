import EvmInspect.Proofs.Ledger.History
import EvmInspect.Proofs.Ledger.Numbering

/-!
# Which operations survive

Going back to a snapshot undoes what was done since it was taken. An operation of a history
survives (`surviving`) unless a later one goes back to a snapshot that an earlier one took.

A view of the world that going back restores is determined by the operations that survive
(`Course.view_eq`): each of them changes it in turn, and the others might as well not have
been performed. The proof goes along the history. Each snapshot on the stack has its place in
the past (`Taken`), and no operation after this place undoes one before it, for then the
snapshot would be gone as well; so when it is gone back to, what survives is what had survived
when it was taken.
-/

namespace EvmInspect.Ledger.State

/-- The number of the snapshot that was taken, if one was. -/
def Moment.took? (x : Moment) : Option Nat := issued? x.outcome

/-- The number of the snapshot that was gone back to, if one was. -/
def Moment.wentBack? (x : Moment) : Option Nat :=
  match x.operation, x.outcome with
  | .revert id, .ok _ => some id
  | _, _ => none

/-- The moment goes back to a snapshot that one of the earlier moments took. -/
def Moment.Undoes (z : Moment) (earlier : List Moment) : Prop :=
  ∃ y ∈ earlier, y.took? ≠ none ∧ z.wentBack? = y.took?

instance (z : Moment) (earlier : List Moment) : Decidable (z.Undoes earlier) :=
  inferInstanceAs (Decidable (∃ y ∈ earlier, y.took? ≠ none ∧ z.wentBack? = y.took?))

/-- The moments of a history that are not undone, after `earlier` ones. -/
def surviving : (earlier : List Moment) → List Moment → List Moment
  | _, [] => []
  | earlier, x :: later =>
    if ∃ z ∈ later, z.Undoes earlier then surviving (earlier ++ [x]) later
    else x :: surviving (earlier ++ [x]) later

/-! ## What is undone -/

section Undone

variable {x z : Moment} {earlier xs later : List Moment}

theorem Moment.Undoes.of_append_left (h : z.Undoes earlier) : z.Undoes (earlier ++ xs) := by
  obtain ⟨y, mem, took⟩ := h
  exact ⟨y, List.mem_append_left _ mem, took⟩

theorem Moment.not_undoes (h : x.wentBack? = none) : ¬ x.Undoes earlier := by
  rintro ⟨y, _, took, same⟩
  exact took (same.symm.trans h)

theorem surviving_sublist (earlier xs : List Moment) : (surviving earlier xs).Sublist xs := by
  induction xs generalizing earlier with
  | nil => exact List.Sublist.refl _
  | cons x xs ih =>
    unfold surviving
    split
    · exact (ih _).cons x
    · exact (ih _).cons_cons x

/-- The last moment of a history survives. -/
theorem surviving_singleton (earlier : List Moment) (x : Moment) : surviving earlier [x] = [x] := by
  simp [surviving]

/-- Moments that undo nothing of what is past leave it as it is. -/
theorem surviving_append (kept : ∀ z ∈ later, ¬ z.Undoes (earlier ++ xs)) :
    surviving earlier (xs ++ later) = surviving earlier xs ++ surviving (earlier ++ xs) later := by
  induction xs generalizing earlier with
  | nil => rw [List.append_nil, List.nil_append, surviving, List.nil_append]
  | cons x xs ih =>
    have assoc : earlier ++ x :: xs = earlier ++ [x] ++ xs := by
      rw [List.append_assoc, List.singleton_append]
    have same : (∃ z ∈ xs ++ later, z.Undoes earlier) ↔ ∃ z ∈ xs, z.Undoes earlier := by
      constructor
      · rintro ⟨z, mem, undoes⟩
        rcases List.mem_append.mp mem with mem | mem
        · exact ⟨z, mem, undoes⟩
        · exact absurd undoes.of_append_left (kept z mem)
      · rintro ⟨z, mem, undoes⟩
        exact ⟨z, List.mem_append_left _ mem, undoes⟩
    rw [assoc] at kept
    rw [List.cons_append, surviving, surviving, assoc, ih kept]
    simp only [same]
    split <;> rfl

/-- What a moment that goes nowhere back does comes on top of what had survived. -/
theorem surviving_concat (stays : x.wentBack? = none) :
    surviving [] (xs ++ [x]) = surviving [] xs ++ [x] := by
  have kept : ∀ z ∈ [x], ¬ z.Undoes ([] ++ xs) :=
    List.forall_mem_singleton.mpr (Moment.not_undoes stays)
  rw [surviving_append kept, surviving_singleton]

/-- Of the moments up to one that undoes them, it alone survives. -/
theorem surviving_undone (undoes : z.Undoes earlier) : surviving earlier (xs ++ [z]) = [z] := by
  induction xs generalizing earlier with
  | nil => exact surviving_singleton earlier z
  | cons x xs ih =>
    rw [List.cons_append, surviving, if_pos ⟨z, List.mem_append_right _ List.mem_cons_self, undoes⟩]
    exact ih undoes.of_append_left

end Undone

/-! ## What a moment does to the stack -/

/-- How a moment changes the stack of snapshots. -/
inductive Moment.Shifts (x : Moment) : Prop
  | keeps (took : x.took? = none) (stays : x.wentBack? = none)
      (part : x.after.snapshots <:+ x.before.snapshots) (next : x.after.nextId = x.before.nextId)
  | takes (took : x.took? = some x.before.nextId) (stays : x.wentBack? = none)
      (after : x.after = x.before.takeSnapshot.2)
  | goesBack {snapshot : Snapshot} {older : List Snapshot} (took : x.took? = none)
      (back : x.wentBack? = some snapshot.id)
      (part : snapshot :: older <:+ x.before.snapshots)
      (after : x.after = { x.before with
        world := snapshot.world.restore x.before.world, snapshots := older })

section Shifts

variable {replies : Replies} {l l' : State}

theorem Performs.shifts {op : Operation} {r : Except LedgerError Outcome}
    (h : Performs replies op l r l') (fetches : List Fetch) :
    Moment.Shifts ⟨op, l, fetches, r, l'⟩ := by
  cases h with
  | read h =>
    have same := h.same snapshots_keep
    exact .keeps (issued?_outcomeOf _ _ _) rfl (same ▸ List.suffix_refl _) (h.same nextId_keep)
  | readFails h =>
    have same := h.same snapshots_keep
    exact .keeps rfl rfl (same ▸ List.suffix_refl _) (h.same nextId_keep)
  | load h =>
    have same := h.same snapshots_keep
    exact .keeps rfl rfl (same ▸ List.suffix_refl _) (h.same nextId_keep)
  | loadFails h =>
    have same := h.same snapshots_keep
    exact .keeps rfl rfl (same ▸ List.suffix_refl _) (h.same nextId_keep)
  | write w => exact .keeps rfl rfl (List.suffix_refl _) rfl
  | takeSnapshot => exact .takes rfl rfl rfl
  | revert back =>
    obtain ⟨snapshot, older, found, rfl⟩ := revert_eq_ok back
    obtain ⟨rfl, newer, stack⟩ := findSnapshot?_eq_some found
    exact .goesBack rfl rfl ⟨newer, stack.symm⟩ rfl
  | revertFails _ => exact .keeps rfl rfl (List.suffix_refl _) rfl
  | commit id =>
    obtain ⟨older, part, same⟩ := l.dropSnapshot_eq id
    exact .keeps rfl rfl (by rw [same]; exact part) (nextId_dropSnapshot l id)
  | discard id =>
    obtain ⟨older, part, same⟩ := l.dropSnapshot_eq id
    exact .keeps rfl rfl (by rw [same]; exact part) (nextId_dropSnapshot l id)

theorem Moment.Obeys.shifts {x : Moment} (h : x.Obeys replies) : x.Shifts :=
  h.performs.shifts x.fetches

end Shifts

/-! ## What survives makes the world -/

section View

variable {α : Type} {view : World → α} {next : α → Moment → α}

/-- A snapshot has its place in the past: it was taken by `taking`, and nothing since has undone
anything before. -/
structure Taken (view : World → α) (next : α → Moment → α) (past : List Moment) (s : Snapshot)
    (before : List Moment) (taking : Moment) (since : List Moment) : Prop where
  split : past = before ++ taking :: since
  took : taking.took? = some s.id
  older : ∀ y ∈ before, ∀ id ∈ y.took?, id < s.id
  kept : ∀ z ∈ taking :: since, ¬ z.Undoes before
  world : view s.world = (surviving [] before ++ [taking]).foldl next (view .empty)

/-- A snapshot keeps its place as long as nothing before it is undone. -/
theorem Taken.push {past before since : List Moment} {s : Snapshot} {taking x : Moment}
    (h : Taken view next past s before taking since) (kept : ¬ x.Undoes before) :
    Taken view next (past ++ [x]) s before taking (since ++ [x]) where
  split := by rw [h.split, List.append_assoc, List.cons_append]
  took := h.took
  older := h.older
  kept := by
    rw [← List.cons_append, List.forall_mem_append]
    exact ⟨h.kept, List.forall_mem_singleton.mpr kept⟩
  world := h.world

/-- Going back to a snapshot or to a newer one undoes nothing before it was taken. -/
theorem Taken.not_undoes {past before since : List Moment} {s : Snapshot} {taking x : Moment}
    (h : Taken view next past s before taking since) {id : Nat} (back : x.wentBack? = some id)
    (newer : s.id ≤ id) : ¬ x.Undoes before := by
  rintro ⟨y, mem, _, same⟩
  have lower := h.older y mem id (same.symm.trans back)
  omega

/-- After going back to a snapshot, what survives is what had survived when it was taken. -/
theorem Taken.surviving_eq {past before since : List Moment} {s : Snapshot} {taking x : Moment}
    (h : Taken view next past s before taking since) (back : x.wentBack? = some s.id) :
    surviving [] (past ++ [x]) = surviving [] before ++ [taking] ++ [x] := by
  have pushed := h.push (h.not_undoes back (Nat.le_refl _))
  have undoes : x.Undoes (before ++ [taking]) := by
    refine ⟨taking, List.mem_append_right _ List.mem_cons_self, ?_, back.trans h.took.symm⟩
    rw [h.took]
    exact Option.some_ne_none _
  have survives : ¬ ∃ z ∈ since ++ [x], z.Undoes before := by
    rintro ⟨z, mem, undoes⟩
    exact pushed.kept z (List.mem_cons_of_mem _ mem) undoes
  rw [pushed.split, surviving_append pushed.kept, List.nil_append, surviving, if_neg survives,
    surviving_undone undoes, List.append_cons]

/-- What is past accounts for a ledger, in the live world and in each snapshot. -/
structure AccountsFor (view : World → α) (next : α → Moment → α) (past : List Moment)
    (l : State) : Prop where
  live : view l.world = (surviving [] past).foldl next (view .empty)
  used : ∀ y ∈ past, ∀ id ∈ y.took?, id < l.nextId
  stack : ∀ s ∈ l.snapshots, ∃ before taking since, Taken view next past s before taking since
  numbered : Numbered l.nextId l.snapshots

/-- The moment changes a view of the world as `next` says, where going back counts for nothing. -/
structure Moment.Moves (view : World → α) (next : α → Moment → α) (x : Moment) : Prop where
  onward : x.wentBack? = none → view x.after.world = next (view x.before.world) x
  back : x.wentBack? ≠ none → ∀ v, next v x = v

/-- A view that no fetched answer changes is changed by writes alone. -/
theorem Performs.moves_of_write {replies : Replies} {op : Operation} {l l' : State}
    {r : Except LedgerError Outcome} (h : Performs replies op l r l') (fetches : List Fetch)
    (kept : ∀ l q v, view (State.keep l q v).world = view l.world)
    (writes : ∀ change, op = .write change →
      view (l.world.write change) = next (view l.world) ⟨op, l, fetches, r, l'⟩)
    (idle : (∀ change, op ≠ .write change) → ∀ v, next v ⟨op, l, fetches, r, l'⟩ = v) :
    Moment.Moves view next ⟨op, l, fetches, r, l'⟩ := by
  have still : view l'.world = view l.world → (∀ change, op ≠ .write change) →
      Moment.Moves view next ⟨op, l, fetches, r, l'⟩ :=
    fun same reads => ⟨fun _ => same.trans (idle reads _).symm, fun _ => idle reads⟩
  cases h with
  | read h => exact still (h.same (f := fun l => view l.world) kept) nofun
  | readFails h => exact still (h.same (f := fun l => view l.world) kept) nofun
  | load h => exact still (h.same (f := fun l => view l.world) kept) nofun
  | loadFails h => exact still (h.same (f := fun l => view l.world) kept) nofun
  | write change => exact ⟨fun _ => writes change rfl, fun back => absurd rfl back⟩
  | takeSnapshot => exact still rfl nofun
  | revert _ => exact ⟨fun stays => (nomatch stays), fun _ => idle nofun⟩
  | revertFails _ => exact still rfl nofun
  | commit id => exact still (congrArg view (world_dropSnapshot l id)) nofun
  | discard id => exact still (congrArg view (world_dropSnapshot l id)) nofun

variable {past : List Moment} {x : Moment} {l : State}

/-- A moment that goes nowhere back changes what had survived. -/
theorem AccountsFor.onward (h : AccountsFor view next past x.before) (moves : x.Moves view next)
    (stays : x.wentBack? = none) :
    view x.after.world = (surviving [] past ++ [x]).foldl next (view .empty) := by
  rw [List.foldl_append, ← h.live]
  exact moves.onward stays

/-- A moment that takes no snapshot gives no number out. -/
theorem AccountsFor.used_concat (h : AccountsFor view next past l) (took : x.took? = none) :
    ∀ y ∈ past ++ [x], ∀ id ∈ y.took?, id < l.nextId := by
  rw [List.forall_mem_append, List.forall_mem_singleton, took]
  exact ⟨h.used, fun _ mem => nomatch mem⟩

theorem AccountsFor.keeps (h : AccountsFor view next past x.before) (moves : x.Moves view next)
    (took : x.took? = none) (stays : x.wentBack? = none)
    (part : x.after.snapshots <:+ x.before.snapshots) (same : x.after.nextId = x.before.nextId) :
    AccountsFor view next (past ++ [x]) x.after where
  live := by
    rw [surviving_concat stays]
    exact h.onward moves stays
  used := same ▸ h.used_concat took
  stack s mem := by
    obtain ⟨before, taking, since, taken⟩ := h.stack s (part.subset mem)
    exact ⟨before, taking, since ++ [x], taken.push (Moment.not_undoes stays)⟩
  numbered := same ▸ h.numbered.suffix part

theorem AccountsFor.takes (h : AccountsFor view next past x.before) (moves : x.Moves view next)
    (took : x.took? = some x.before.nextId) (stays : x.wentBack? = none)
    (after : x.after = x.before.takeSnapshot.2) :
    AccountsFor view next (past ++ [x]) x.after where
  live := by
    rw [surviving_concat stays]
    exact h.onward moves stays
  used := by
    rw [after, List.forall_mem_append, List.forall_mem_singleton, took]
    refine ⟨fun y mem id given => Nat.lt_succ_of_lt (h.used y mem id given), ?_⟩
    rintro id ⟨⟩
    exact Nat.lt_succ_self _
  stack := by
    have world : x.before.world = x.after.world := by rw [after, takeSnapshot]
    have onTop : Taken view next (past ++ [x]) ⟨x.before.nextId, x.before.world⟩ past x [] := {
      split := rfl
      took := took
      older := h.used
      kept := List.forall_mem_singleton.mpr (Moment.not_undoes stays)
      world := world ▸ h.onward moves stays }
    rw [after]
    refine List.forall_mem_cons.mpr ⟨⟨past, x, [], onTop⟩, fun s mem => ?_⟩
    obtain ⟨before, taking, since, taken⟩ := h.stack s mem
    exact ⟨before, taking, since ++ [x], taken.push (Moment.not_undoes stays)⟩
  numbered := by
    rw [after]
    exact h.numbered.push _

theorem AccountsFor.goesBack {snapshot : Snapshot} {older : List Snapshot}
    (restores : ∀ captured live : World, view (captured.restore live) = view captured)
    (h : AccountsFor view next past x.before) (moves : x.Moves view next)
    (took : x.took? = none) (back : x.wentBack? = some snapshot.id)
    (part : snapshot :: older <:+ x.before.snapshots)
    (after : x.after = { x.before with
      world := snapshot.world.restore x.before.world, snapshots := older }) :
    AccountsFor view next (past ++ [x]) x.after := by
  rw [after]
  constructor
  case live =>
    obtain ⟨before, taking, since, taken⟩ := h.stack snapshot (part.subset List.mem_cons_self)
    have idle := moves.back (by rw [back]; exact Option.some_ne_none _) (view snapshot.world)
    calc view (snapshot.world.restore x.before.world)
      _ = [x].foldl next (view snapshot.world) := (restores _ _).trans idle.symm
      _ = [x].foldl next ((surviving [] before ++ [taking]).foldl next (view .empty)) := by
        rw [taken.world]
      _ = (surviving [] before ++ [taking] ++ [x]).foldl next (view .empty) :=
        List.foldl_append.symm
      _ = (surviving [] (past ++ [x])).foldl next (view .empty) := by rw [taken.surviving_eq back]
  case used => exact h.used_concat took
  case stack =>
    -- what is left of the stack was taken earlier, so its past is not undone
    have descending := (h.numbered.suffix part).descending
    intro s mem
    obtain ⟨before, taking, since, taken⟩ := h.stack s (part.subset (List.mem_cons_of_mem _ mem))
    have lower : s.id < snapshot.id := List.rel_of_pairwise_cons descending mem
    have kept := taken.not_undoes back (Nat.le_of_lt lower)
    exact ⟨before, taking, since ++ [x], taken.push kept⟩
  case numbered => exact h.numbered.suffix ((List.suffix_cons snapshot older).trans part)

/-- What one moment keeps. -/
theorem AccountsFor.step
    (restores : ∀ captured live : World, view (captured.restore live) = view captured)
    (h : AccountsFor view next past x.before) (moves : x.Moves view next) (shifts : x.Shifts) :
    AccountsFor view next (past ++ [x]) x.after := by
  cases shifts with
  | keeps took stays part same => exact h.keeps moves took stays part same
  | takes took stays after => exact h.takes moves took stays after
  | goesBack took back part after => exact h.goesBack restores moves took back part after

/-- What a whole course keeps. -/
theorem Course.accountsFor {replies : Replies} {l l' : State} {xs : List Moment}
    (restores : ∀ captured live : World, view (captured.restore live) = view captured)
    (h : Course replies l xs l') (moves : ∀ x ∈ xs, x.Moves view next)
    (start : AccountsFor view next past l) : AccountsFor view next (past ++ xs) l' := by
  induction h generalizing past with
  | nil =>
    rw [List.append_nil]
    exact start
  | @cons x xs l' obeys _ ih =>
    obtain ⟨now, later⟩ := List.forall_mem_cons.mp moves
    rw [List.append_cons]
    exact ih later (start.step restores now obeys.shifts)

/-- A view of the world that going back restores is what the moments that survive make of it. -/
theorem Course.view_eq {replies : Replies} {l : State} {xs : List Moment}
    (restores : ∀ captured live : World, view (captured.restore live) = view captured)
    (h : Course replies .empty xs l) (moves : ∀ x ∈ xs, x.Moves view next) :
    view l.world = (surviving [] xs).foldl next (view .empty) := by
  have start : AccountsFor view next [] .empty :=
    ⟨rfl, List.forall_mem_nil _, List.forall_mem_nil _, List.forall_mem_nil _, .nil⟩
  exact (h.accountsFor restores moves start).live

end View

end EvmInspect.Ledger.State
