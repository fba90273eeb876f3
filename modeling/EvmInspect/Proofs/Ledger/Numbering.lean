import EvmInspect.Proofs.Ledger.Rollback

/-!
# The numbers of snapshots

Snapshots are used up in the reverse of the order in which they were taken. Along a run the
numbers given out are consecutive (`Runs.issued_eq`), so none is given twice; using a snapshot
up leaves the older ones and nothing else (`Numbered.older_eq_filter`); and a number that is not
on the stack stays off it until a snapshot is taken under it (`Runs.stays_off`), which for a
number once used never happens. `LastInFirstOut` puts this together.
-/

namespace EvmInspect.Ledger

namespace State

/-- The numbers of the snapshots on the stack, the oldest first. -/
def ids (l : State) : List Nat := (l.snapshots.map Snapshot.id).reverse

theorem mem_ids {l : State} {id : Nat} : id ∈ l.ids ↔ id ∈ l.snapshots.map Snapshot.id :=
  List.mem_reverse

/-- The number of the snapshot that an operation took, if it took one. -/
def issued? : Except LedgerError Outcome → Option Nat
  | .ok (.snapshot id) => some id
  | _ => none

/-- The numbers given out along a run. -/
def issued (rs : List (Except LedgerError Outcome)) : List Nat := rs.filterMap issued?

/-- How many snapshots an operation takes. -/
def Operation.taken : Operation → Nat
  | .takeSnapshot => 1
  | _ => 0

/-- How many snapshots are taken along a run. -/
def taken : List Operation → Nat
  | [] => 0
  | op :: ops => op.taken + taken ops

/-! ## Giving numbers out -/

section Issue

variable {replies : Replies} {l l' : State}

/-- Reading a chain value gives no number to a snapshot. -/
theorem issued?_outcomeOf (l : State) (q : Query) (v : q.Answer) :
    issued? (.ok (l.outcomeOf q v)) = none := by
  cases q <;> rfl

/-- Dropping a snapshot gives no number back. -/
theorem nextId_dropSnapshot (l : State) (id : Nat) : (l.dropSnapshot id).nextId = l.nextId := by
  obtain ⟨older, _, same⟩ := l.dropSnapshot_eq id
  rw [same]

/-- Dropping a snapshot leaves the world alone. -/
theorem world_dropSnapshot (l : State) (id : Nat) : (l.dropSnapshot id).world = l.world := by
  obtain ⟨older, _, same⟩ := l.dropSnapshot_eq id
  rw [same]

/-- An operation gives out the next number if it takes a snapshot, and none otherwise. -/
theorem Performs.issued_eq {op : Operation} {r : Except LedgerError Outcome}
    (h : Performs replies op l r l') :
    (issued? r).toList = List.range' l.nextId op.taken ∧ l'.nextId = l.nextId + op.taken := by
  cases h with
  | read h =>
    rw [issued?_outcomeOf]
    exact ⟨rfl, h.same nextId_keep⟩
  | readFails h => exact ⟨rfl, h.same nextId_keep⟩
  | load h => exact ⟨rfl, h.same nextId_keep⟩
  | loadFails h => exact ⟨rfl, h.same nextId_keep⟩
  | write w => exact ⟨rfl, rfl⟩
  | takeSnapshot => exact ⟨rfl, rfl⟩
  | revert h =>
    obtain ⟨_, _, _, rfl⟩ := revert_eq_ok h
    exact ⟨rfl, rfl⟩
  | revertFails _ => exact ⟨rfl, rfl⟩
  | commit id => exact ⟨rfl, nextId_dropSnapshot l id⟩
  | discard id => exact ⟨rfl, nextId_dropSnapshot l id⟩

/-- The numbers given out along a run follow one another without a gap. -/
theorem Runs.issued_eq {ops : List Operation} {rs : List (Except LedgerError Outcome)}
    (h : Runs replies ops l rs l') :
    issued rs = List.range' l.nextId (taken ops) ∧ l'.nextId = l.nextId + taken ops := by
  induction h with
  | nil => exact ⟨rfl, rfl⟩
  | @cons op ops l r m rs l' first _ ih =>
    obtain ⟨now, next⟩ := first.issued_eq
    obtain ⟨later, last⟩ := ih
    have split : issued (r :: rs) = (issued? r).toList ++ issued rs := by
      simp only [issued, List.filterMap_cons]
      cases issued? r <;> rfl
    have total : taken (op :: ops) = op.taken + taken ops := rfl
    constructor
    · rw [split, now, later, next, total, List.range'_append_1]
    · rw [last, next, total, Nat.add_assoc]

/-- A number that was given out before a run is not given out in it. -/
theorem Runs.le_of_mem_issued {ops : List Operation} {rs : List (Except LedgerError Outcome)}
    (h : Runs replies ops l rs l') {id : Nat} (mem : id ∈ issued rs) : l.nextId ≤ id := by
  rw [h.issued_eq.1] at mem
  exact (List.mem_range'_1.mp mem).1

end Issue

/-! ## Using numbers up -/

section Use

variable {l : State} {id next : Nat} {stack older : List Snapshot} {snapshot : Snapshot}

theorem findSnapshot?_eq_none (absent : id ∉ stack.map Snapshot.id) :
    findSnapshot? id stack = none := by
  cases h : findSnapshot? id stack with
  | none => rfl
  | some found =>
    obtain ⟨rfl, _⟩ := findSnapshot?_eq_some h
    exact absurd (List.mem_map_of_mem (mem_of_findSnapshot? h)) absent

/-- The snapshots behind the one of a number are those with smaller numbers. -/
theorem Numbered.older_eq_filter (h : Numbered next stack)
    (found : findSnapshot? id stack = some (snapshot, older)) :
    older = stack.filter (·.id < id) := by
  obtain ⟨same, newer, split⟩ := findSnapshot?_eq_some found
  have descending := h.descending
  rw [split, List.pairwise_append, List.pairwise_cons] at descending
  have smaller : older.filter (·.id < id) = older := by
    apply List.filter_eq_self.mpr
    intro s mem
    exact decide_eq_true (same ▸ descending.2.1.1 s mem)
  calc older = (snapshot :: older).filter (·.id < id) := by
        rw [List.filter_cons_of_neg (by simp [same]), smaller]
    _ = (downFrom id stack).filter (·.id < id) := by rw [h.downFrom_eq found]
    _ = stack.filter (·.id < id) := by
        rw [downFrom, List.filter_filter]
        apply List.filter_congr
        intro s _
        simp only [Bool.and_eq_left_iff_imp, decide_eq_true_eq]
        exact Nat.le_of_lt

/-- A number finds no other snapshot than the one that has it. -/
theorem Numbered.eq_of_found (h : Numbered next stack) {s : Snapshot} (mem : s ∈ stack)
    (found : findSnapshot? s.id stack = some (snapshot, older)) : snapshot = s := by
  obtain ⟨same, newer, rfl⟩ := findSnapshot?_eq_some found
  have descending := h.descending
  rw [List.pairwise_append, List.pairwise_cons] at descending
  obtain ⟨_, ⟨below, _⟩, above⟩ := descending
  rcases List.mem_append.mp mem with newer | mem
  · have := above s newer snapshot List.mem_cons_self
    omega
  · rcases List.mem_cons.mp mem with here | older
    · exact here.symm
    · have := below s older
      omega

/-- Going back to a snapshot of the stack succeeds and leaves the older ones. -/
theorem Numbered.revert_of_mem (h : Numbered l.nextId l.snapshots) (there : id ∈ l.ids) :
    ∃ snapshot ∈ l.snapshots, snapshot.id = id ∧ l.revert id = .ok { l with
      world := snapshot.world.restore l.world
      snapshots := l.snapshots.filter (·.id < id) } := by
  obtain ⟨⟨snapshot, older⟩, found⟩ := exists_findSnapshot? (mem_ids.mp there)
  obtain ⟨same, _⟩ := findSnapshot?_eq_some found
  refine ⟨snapshot, mem_of_findSnapshot? found, same, ?_⟩
  rw [← h.older_eq_filter found]
  simp only [revert, found]

/-- Dropping a snapshot of the stack leaves the older ones, and all else as it is. -/
theorem Numbered.dropSnapshot_of_mem (h : Numbered l.nextId l.snapshots) (there : id ∈ l.ids) :
    l.dropSnapshot id = { l with snapshots := l.snapshots.filter (·.id < id) } := by
  obtain ⟨⟨snapshot, older⟩, found⟩ := exists_findSnapshot? (mem_ids.mp there)
  rw [← h.older_eq_filter found]
  simp only [dropSnapshot, found]

theorem revert_of_not_mem (gone : id ∉ l.ids) : l.revert id = .error (.snapshotNotFound id) := by
  rw [mem_ids] at gone
  simp only [revert, findSnapshot?_eq_none gone]

theorem dropSnapshot_of_not_mem (gone : id ∉ l.ids) : l.dropSnapshot id = l := by
  rw [mem_ids] at gone
  simp only [dropSnapshot, findSnapshot?_eq_none gone]

end Use

/-! ## Staying off the stack -/

/-- The number is used up, and no snapshot of the stack has it. -/
structure OffStack (id next : Nat) (stack : List Snapshot) : Prop where
  used : id < next
  off : id ∉ stack.map Snapshot.id

theorem OffStack.push {id next : Nat} {stack : List Snapshot} (h : OffStack id next stack)
    (w : World) : OffStack id (next + 1) (⟨next, w⟩ :: stack) where
  used := Nat.lt_succ_of_lt h.used
  off := by
    rw [List.map_cons, List.mem_cons, not_or]
    exact ⟨Nat.ne_of_lt h.used, h.off⟩

theorem OffStack.suffix {id next : Nat} {stack older : List Snapshot} (h : OffStack id next stack)
    (part : older <:+ stack) : OffStack id next older :=
  ⟨h.used, fun mem => h.off ((part.map _).subset mem)⟩

/-- A number that was used up never comes back. -/
theorem offStack_invariant (id : Nat) :
    Invariant .any (fun _ => True) fun l => OffStack id l.nextId l.snapshots :=
  .of_stack (fun w h => h.push w) .suffix

/-- A number that is not on the stack comes there only by a snapshot taken under it. -/
theorem Runs.stays_off {l l' : State} (numbered : Numbered l.nextId l.snapshots)
    {ops : List Operation} {rs : List (Except LedgerError Outcome)} (h : Runs .any ops l rs l')
    {id : Nat} (off : id ∉ l.ids) (unissued : id ∉ issued rs) : id ∉ l'.ids := by
  rw [mem_ids] at off ⊢
  rcases Nat.lt_or_ge id l.nextId with used | fresh
  · have still : OffStack id l'.nextId l'.snapshots :=
      h.keeps (offStack_invariant id) (fun _ _ => trivial) ⟨used, off⟩
    exact still.off
  · -- the number lies above all that were given out, also after the run
    obtain ⟨range, next⟩ := h.issued_eq
    have numbered' : Numbered l'.nextId l'.snapshots :=
      h.keeps numbered_invariant (fun _ _ => trivial) numbered
    rw [range, List.mem_range'_1] at unissued
    intro mem
    obtain ⟨s, on, rfl⟩ := List.mem_map.mp mem
    have used := numbered'.used s on
    omega

/-! ## Along a run -/

variable {σ : Type}

/-- What holds of the numbers of snapshots at the end of a run from the empty ledger.

As many numbers are given out as snapshots are taken, so the next one fits into 64 bits if
fewer than `2^64 - 1` are. -/
structure LastInFirstOut (source : Source (StateM σ)) (ops : List Operation)
    (rs : List (Except LedgerError Outcome)) (l : State) : Prop where
  ascending : l.ids.Pairwise (· < ·)
  used : ∀ id ∈ l.ids, id < l.nextId
  counted : l.nextId = taken ops + 1
  /-- A later snapshot has a greater number. -/
  issued_ascending : (issued rs).Pairwise (· < ·)
  /-- No run that follows gives a number again. -/
  never_again : ∀ id < l.nextId, ∀ ops s, id ∉ issued (outcomes source ops l s)
  revert : ∀ id ∈ l.ids, ∃ snapshot ∈ l.snapshots, snapshot.id = id ∧
    ∀ s, (l.perform source (.revert id)).run s = ((.ok .done, { l with
      world := snapshot.world.restore l.world
      snapshots := l.snapshots.filter (·.id < id) }), s)
  commit : ∀ id ∈ l.ids, ∀ s, (l.perform source (.commit id)).run s =
    ((.ok .done, { l with snapshots := l.snapshots.filter (·.id < id) }), s)
  discard : ∀ id ∈ l.ids, ∀ s, (l.perform source (.discard id)).run s =
    ((.ok .done, { l with snapshots := l.snapshots.filter (·.id < id) }), s)
  commit_gone : ∀ id ∉ l.ids, ∀ s, (l.perform source (.commit id)).run s = ((.ok .done, l), s)
  discard_gone : ∀ id ∉ l.ids, ∀ s, (l.perform source (.discard id)).run s = ((.ok .done, l), s)
  /-- A number off the stack is refused, now and after each run that follows and does not give
  it out. -/
  revert_gone : ∀ id ∉ l.ids, ∀ ops s, id ∉ issued (outcomes source ops l s) →
    id ∉ (after source ops l s).ids ∧
    ∀ s', ((after source ops l s).perform source (.revert id)).run s' =
      ((.error (.snapshotNotFound id), after source ops l s), s')

/-- Whatever operations are performed over whatever source, snapshots are used up last in first
out, and a number that was used up is refused for ever. -/
theorem run_lastInFirstOut (source : Source (StateM σ)) (ops : List Operation) (s : σ) :
    LastInFirstOut source ops (outcomes source ops empty s) (after source ops empty s) := by
  have running := runs_run source.gives_any ops empty s
  generalize outcomes source ops empty s = rs at running
  generalize after source ops empty s = l at running
  have numbered : Numbered l.nextId l.snapshots :=
    running.keeps numbered_invariant (fun _ _ => trivial) ⟨fun _ mem => (nomatch mem), .nil⟩
  obtain ⟨range, next⟩ := running.issued_eq
  exact {
    ascending := by
      rw [ids, List.pairwise_reverse, List.pairwise_map]
      exact numbered.descending
    used := by
      intro id mem
      obtain ⟨snapshot, on, rfl⟩ := List.mem_map.mp (mem_ids.mp mem)
      exact numbered.used snapshot on
    counted := next.trans (Nat.add_comm _ _)
    issued_ascending := by
      rw [range]
      exact List.pairwise_lt_range'
    never_again := by
      intro id used ops s mem
      have later := (runs_run source.gives_any ops l s).le_of_mem_issued mem
      exact Nat.not_lt.mpr later used
    revert := by
      intro id there
      obtain ⟨snapshot, on, same, back⟩ := numbered.revert_of_mem there
      refine ⟨snapshot, on, same, fun s => ?_⟩
      simp only [perform, back]
      rfl
    commit := by
      intro id there s
      simp only [perform, numbered.dropSnapshot_of_mem there]
      rfl
    discard := by
      intro id there s
      simp only [perform, numbered.dropSnapshot_of_mem there]
      rfl
    commit_gone := by
      intro id gone s
      simp only [perform, dropSnapshot_of_not_mem gone]
      rfl
    discard_gone := by
      intro id gone s
      simp only [perform, dropSnapshot_of_not_mem gone]
      rfl
    revert_gone := by
      intro id gone ops s unissued
      have off := (runs_run source.gives_any ops l s).stays_off numbered gone unissued
      refine ⟨off, fun s' => ?_⟩
      simp only [perform, revert_of_not_mem off]
      rfl }

end State

end EvmInspect.Ledger
