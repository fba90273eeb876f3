import EvmInspect.Proofs.Ledger.Runs

/-!
# Going back to a snapshot

Snapshots are numbered upwards, so the newest of a stack has the greatest number
(`Numbered`). What lies on the stack from a number down only ever gets shorter: a later
snapshot has a greater number, and using snapshots up takes the newest away (`RestsOn`). So a
snapshot that is still there lies on the very stack it was put on, with the world it was
taken of, and going back to it merges that world with the live one (`revert_taken`).
-/

namespace EvmInspect.Ledger

namespace State

/-! ## The stack of snapshots -/

variable {id : Nat} {stack older : List Snapshot} {snapshot : Snapshot} {l l' : State}

/-- Looking for a number passes over the snapshots that are newer. -/
theorem findSnapshot?_eq_some (h : findSnapshot? id stack = some (snapshot, older)) :
    snapshot.id = id ∧ ∃ newer, stack = newer ++ snapshot :: older := by
  induction stack with
  | nil => cases h
  | cons head rest ih =>
    unfold findSnapshot? at h
    split at h
    next found =>
      cases h
      exact ⟨found, [], rfl⟩
    next =>
      obtain ⟨same, newer, rfl⟩ := ih h
      exact ⟨same, head :: newer, rfl⟩

theorem suffix_of_findSnapshot? (h : findSnapshot? id stack = some (snapshot, older)) :
    older <:+ stack := by
  obtain ⟨_, newer, rfl⟩ := findSnapshot?_eq_some h
  exact (List.suffix_cons snapshot older).trans (List.suffix_append newer _)

theorem mem_of_findSnapshot? (h : findSnapshot? id stack = some (snapshot, older)) :
    snapshot ∈ stack := by
  obtain ⟨_, newer, rfl⟩ := findSnapshot?_eq_some h
  exact List.mem_append_right newer List.mem_cons_self

/-- A number that is on the stack is found. -/
theorem exists_findSnapshot? (h : id ∈ stack.map Snapshot.id) :
    ∃ found, findSnapshot? id stack = some found := by
  induction stack with
  | nil => cases h
  | cons head rest ih =>
    unfold findSnapshot?
    split
    next => exact ⟨_, rfl⟩
    next other =>
      rcases List.mem_cons.mp h with same | deeper
      · exact absurd same.symm other
      · exact ih deeper

/-- A revert goes to a snapshot of the stack and leaves the older ones. -/
theorem revert_eq_ok (h : l.revert id = .ok l') :
    ∃ snapshot older, findSnapshot? id l.snapshots = some (snapshot, older) ∧
      l' = { l with world := snapshot.world.restore l.world, snapshots := older } := by
  unfold revert at h
  cases hf : findSnapshot? id l.snapshots with
  | none =>
    rw [hf] at h
    cases h
  | some found =>
    rw [hf] at h
    exact ⟨found.1, found.2, rfl, (Except.ok.inj h).symm⟩

/-- Dropping a snapshot leaves the world and a lower part of the stack. -/
theorem dropSnapshot_eq (l : State) (id : Nat) :
    ∃ older, older <:+ l.snapshots ∧ l.dropSnapshot id = { l with snapshots := older } := by
  unfold dropSnapshot
  cases hf : findSnapshot? id l.snapshots with
  | none => exact ⟨l.snapshots, List.suffix_refl _, rfl⟩
  | some found => exact ⟨found.2, suffix_of_findSnapshot? hf, rfl⟩

/-- What is said of the next number and the stack alone is kept throughout a run if it is kept
by a new snapshot and holds of each lower part of the stack. -/
theorem Invariant.of_stack {Q : Nat → List Snapshot → Prop}
    (push : ∀ {next stack} (w : World), Q next stack → Q (next + 1) (⟨next, w⟩ :: stack))
    (suffix : ∀ {next stack older}, Q next stack → older <:+ stack → Q next older) :
    Invariant .any (fun _ => True) fun l => Q l.nextId l.snapshots where
  fetch h _ _ := by
    rw [nextId_keep, snapshots_keep]
    exact h
  write h _ := h
  take {l} h := push l.world h
  revert h back := by
    obtain ⟨_, _, found, rfl⟩ := revert_eq_ok back
    exact suffix h (suffix_of_findSnapshot? found)
  drop {l} id h := by
    obtain ⟨_, part, same⟩ := l.dropSnapshot_eq id
    rw [same]
    exact suffix h part

/-! ## Numbers -/

/-- The numbers on the stack are used up, and descend from the newest snapshot on. -/
structure Numbered (next : Nat) (stack : List Snapshot) : Prop where
  used : ∀ s ∈ stack, s.id < next
  descending : stack.Pairwise fun newer older => older.id < newer.id

section Numbered

variable {next n : Nat} {base : List Snapshot}

theorem Numbered.push (h : Numbered next stack) (w : World) :
    Numbered (next + 1) (⟨next, w⟩ :: stack) where
  used s mem := by
    rcases List.mem_cons.mp mem with rfl | before
    · exact Nat.lt_succ_self _
    · exact Nat.lt_succ_of_lt (h.used s before)
  descending := List.pairwise_cons.mpr ⟨h.used, h.descending⟩

theorem Numbered.suffix (h : Numbered next stack) (part : older <:+ stack) :
    Numbered next older where
  used s mem := h.used s (part.subset mem)
  descending := h.descending.sublist part.sublist

theorem numbered_invariant :
    Invariant .any (fun _ => True) fun l => Numbered l.nextId l.snapshots :=
  .of_stack (fun w h => h.push w) .suffix

theorem Reachable.numbered (reach : Reachable l) : Numbered l.nextId l.snapshots :=
  reach.keeps numbered_invariant ⟨fun _ mem => (nomatch mem), .nil⟩

/-! ## What lies below a number -/

/-- The snapshots of a stack from a number down. -/
def downFrom (n : Nat) (stack : List Snapshot) : List Snapshot := stack.filter (·.id ≤ n)

/-- The number `n` is used up, and from there down the stack is a lower part of `base`. -/
structure RestsOn (n : Nat) (base : List Snapshot) (next : Nat) (stack : List Snapshot) : Prop where
  used : n < next
  below : downFrom n stack <:+ base

theorem RestsOn.push (h : RestsOn n base next stack) (w : World) :
    RestsOn n base (next + 1) (⟨next, w⟩ :: stack) where
  used := Nat.lt_succ_of_lt h.used
  below := by
    have newer : ¬ next ≤ n := Nat.not_le.mpr h.used
    simpa only [downFrom, List.filter_cons, newer, decide_false, Bool.false_eq_true, if_false]
      using h.below

theorem RestsOn.suffix (h : RestsOn n base next stack) (part : older <:+ stack) :
    RestsOn n base next older :=
  ⟨h.used, (part.filter _).trans h.below⟩

/-- Nothing is ever put under a number that is used up. -/
theorem restsOn_invariant (n : Nat) (base : List Snapshot) :
    Invariant .any (fun _ => True) fun l => RestsOn n base l.nextId l.snapshots :=
  .of_stack (fun w h => h.push w) .suffix

/-- From its greatest number down, a stack is all there is of it. -/
theorem Numbered.restsOn (h : Numbered (n + 1) stack) : RestsOn n stack (n + 1) stack where
  used := Nat.lt_succ_self n
  below := by
    have all : downFrom n stack = stack := by
      apply List.filter_eq_self.mpr
      intro s mem
      exact decide_eq_true (Nat.le_of_lt_succ (h.used s mem))
    exact ⟨[], all⟩

/-- On a numbered stack, what lies from a number down begins with the snapshot of that number. -/
theorem Numbered.downFrom_eq (h : Numbered next stack)
    (found : findSnapshot? id stack = some (snapshot, older)) :
    downFrom id stack = snapshot :: older := by
  obtain ⟨same, newer, rfl⟩ := findSnapshot?_eq_some found
  have descending := h.descending
  rw [List.pairwise_append, List.pairwise_cons] at descending
  obtain ⟨_, ⟨under, _⟩, above⟩ := descending
  have dropped : newer.filter (·.id ≤ id) = [] := by
    apply List.filter_eq_nil_iff.mpr
    intro s mem
    have := above s mem snapshot List.mem_cons_self
    simp only [decide_eq_true_eq]
    omega
  have kept : (snapshot :: older).filter (·.id ≤ id) = snapshot :: older := by
    apply List.filter_eq_self.mpr
    intro s mem
    simp only [decide_eq_true_eq]
    rcases List.mem_cons.mp mem with rfl | deeper
    · omega
    · have := under s deeper
      omega
  rw [downFrom, List.filter_append, dropped, kept, List.nil_append]

end Numbered

/-! ## Going back -/

/-- As long as a snapshot is on the stack, going back to it merges the world that it was
taken of with the live one, and leaves the stack as it was before. -/
theorem revert_taken (reach : Reachable l) {ops : List Operation}
    {rs : List (Except LedgerError Outcome)} {live : State}
    (running : Runs .any ops l.takeSnapshot.2 rs live)
    (there : l.nextId ∈ live.snapshots.map Snapshot.id) :
    live.revert l.nextId =
      .ok { live with world := l.world.restore live.world, snapshots := l.snapshots } := by
  have start : Numbered (l.nextId + 1) (⟨l.nextId, l.world⟩ :: l.snapshots) :=
    reach.numbered.push l.world
  have numbered : Numbered live.nextId live.snapshots :=
    running.keeps numbered_invariant (fun _ _ => trivial) start
  have rests : RestsOn l.nextId (⟨l.nextId, l.world⟩ :: l.snapshots) live.nextId live.snapshots :=
    running.keeps (restsOn_invariant _ _) (fun _ _ => trivial)
      start.restsOn
  obtain ⟨⟨snapshot, older⟩, found⟩ := exists_findSnapshot? there
  have below := rests.below
  rw [numbered.downFrom_eq found] at below
  rcases List.suffix_cons_iff.mp below with whole | deeper
  · obtain ⟨rfl, rfl⟩ := List.cons.inj whole
    simp only [revert, found]
  · -- the number was new, so no older snapshot can carry it
    obtain ⟨same, _⟩ := findSnapshot?_eq_some found
    have used := reach.numbered.used snapshot (deeper.subset List.mem_cons_self)
    omega

/-- What of an account is as it was before. -/
structure Recovers (before now : Account) : Prop where
  storage : now.storage = before.storage
  delta : now.delta = before.delta
  nonce : now.nonce = before.nonce
  code : now.code = before.code
  warmKeys : now.warmKeys = before.warmKeys
  chainBalance : ∀ v, before.chainBalance = some v → now.chainBalance = some v
  total : ∀ v, before.chainBalance = some v → now.total = before.total

theorem recovers_restore (captured live : Account) : Recovers captured (captured.restore live) where
  storage := rfl
  delta := rfl
  nonce := rfl
  code := rfl
  warmKeys := rfl
  chainBalance v h := by simp only [Account.restore, h, Option.some_or]
  total v h := by simp only [Account.total, Account.restore, h, Option.some_or]

/-- What of a ledger is as it was before a frame, and what stays as the frame left it. -/
structure RollsBack (before live now : State) : Prop where
  addresses : now.world.accounts.keys = before.world.accounts.keys
  account : ∀ a account, before.account? a = some account →
    ∃ recovered, now.account? a = some recovered ∧ Recovers account recovered
  warm : now.world.warm = before.world.warm
  transient : now.world.transient = before.world.transient
  snapshots : now.snapshots = before.snapshots
  nextId : now.nextId = live.nextId
  blockHashes : now.blockHashes = live.blockHashes

/-- Merging a captured world with a live one brings it back. -/
theorem rollsBack_restore (l live : State) :
    RollsBack l live { live with world := l.world.restore live.world, snapshots := l.snapshots } where
  addresses := by simp only [World.restore, KeyMap.keys_map]
  account a account h := by
    simp only [account?] at h
    simp only [account?, World.account?_restore, h, Option.map_some]
    exact ⟨_, rfl, recovers_restore account _⟩
  warm := rfl
  transient := rfl
  snapshots := rfl
  nextId := rfl
  blockHashes := rfl

/-- Whatever was done since a snapshot was taken, going back to it succeeds while it is on
the stack and undoes all of it, but for numbers used up and block hashes fetched. -/
theorem revert_rolls_back (reach : Reachable l) {σ : Type} (source : Source (StateM σ))
    (ops : List Operation) (s : σ)
    (there : l.takeSnapshot.1 ∈ (after source ops l.takeSnapshot.2 s).snapshots.map Snapshot.id) :
    ∃ now, (after source ops l.takeSnapshot.2 s).revert l.takeSnapshot.1 = .ok now ∧
      RollsBack l (after source ops l.takeSnapshot.2 s) now :=
  ⟨_, revert_taken reach (runs_run source.gives_any ops l.takeSnapshot.2 s) there,
    rollsBack_restore l _⟩

/-- A frame with a frame of its own that deletes an account, reads it anew and is kept. -/
theorem nested_frame_rolls_back :
    let source : Source (StateM Unit) := Chain.source {}
    let a := Address.ofNat 1
    let before := after source [.takeSnapshot, .write (.setStorage a 0 [1])] .empty ()
    let frame := [.write (.setTransient a 0 3), .takeSnapshot, .write (.deleteAccount a),
      .read (.slot a 0), .read (.balance a), .commit 3]
    let live := after source frame before.takeSnapshot.2 ()
    Reachable before ∧ before.takeSnapshot.1 ∈ live.snapshots.map Snapshot.id ∧
      ∃ now, live.revert before.takeSnapshot.1 = .ok now ∧ RollsBack before live now := by
  intro source a before frame live
  have reach : Reachable before := ⟨Unit, source, _, (), rfl⟩
  have there : before.takeSnapshot.1 ∈ live.snapshots.map Snapshot.id := by decide
  exact ⟨reach, there, revert_rolls_back reach source frame () there⟩

end State

end EvmInspect.Ledger
