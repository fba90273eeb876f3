import EvmInspect.Trace.Tree
import Mathlib.Data.List.TakeWhile

/-!
# Trees read back from depths

A tree is known by its walk and by the places that the parents of its nodes have there
(`Tree.parents`, `Tree.isChild_of_parents`).

`gather` takes a list of nodes from its end, and each node adopts the trees that stand right
behind it. Read from the front, it is this: whoever comes next hangs under the last node so
far that is less deep. `hangUnder` says it in this way, keeping for each depth the place of
that node; a forest whose roots still wait for a parent by their depth is what the two have
in common (`forestParents_gather`). The levels of the nodes run along with their places, so
one invariant (`Open`) is enough for both (`attached_hangUnder`).
-/

namespace EvmInspect.Trace

variable {α : Type}

namespace Tree

mutual

/-- The places of the parents in the order of a walk that begins at the place `start`, where
`parent` is the place of what is above the tree. -/
def parentsFrom (parent : Option Nat) (start : Nat) : Tree α → List (Option Nat)
  | node _ children => parent :: parentsAll (some start) (start + 1) children

def parentsAll (parent : Option Nat) (start : Nat) : List (Tree α) → List (Option Nat)
  | [] => []
  | t :: ts => parentsFrom parent start t ++ parentsAll parent (start + t.count) ts

end

/-- For each node in the order of a walk, the place of its parent in this walk. -/
def parents (t : Tree α) : List (Option Nat) := t.parentsFrom none 0

mutual

/-- The trees below each node, itself included, in the order of a walk. -/
def subtrees : Tree α → List (Tree α)
  | node value children => node value children :: subtreesAll children

def subtreesAll : List (Tree α) → List (Tree α)
  | [] => []
  | t :: ts => subtrees t ++ subtreesAll ts

end

mutual

/-- The trees of a walk stand where their roots do. -/
theorem map_value_subtrees : (t : Tree α) → t.subtrees.map value = t.walk
  | node v children => by
    rw [subtrees, List.map_cons, map_value_subtreesAll children, walk_node]
    rfl

theorem map_value_subtreesAll : (ts : List (Tree α)) → (subtreesAll ts).map value = walkAll ts
  | [] => rfl
  | t :: ts => by
    rw [subtreesAll, List.map_append, map_value_subtrees t, map_value_subtreesAll ts, walkAll]

end

mutual

theorem length_subtrees : (t : Tree α) → t.subtrees.length = t.count
  | node value children => by
    rw [subtrees, List.length_cons, length_subtreesAll children, count, Nat.add_comm]

theorem length_subtreesAll : (ts : List (Tree α)) → (subtreesAll ts).length = countAll ts
  | [] => rfl
  | t :: ts => by
    rw [subtreesAll, List.length_append, length_subtrees t, length_subtreesAll ts, countAll]

end

mutual

theorem length_parentsFrom (parent : Option Nat) :
    (start : Nat) → (t : Tree α) → (t.parentsFrom parent start).length = t.count
  | start, node value children => by
    rw [parentsFrom, List.length_cons, length_parentsAll, count, Nat.add_comm]

theorem length_parentsAll (parent : Option Nat) :
    (start : Nat) → (ts : List (Tree α)) → (parentsAll parent start ts).length = countAll ts
  | _, [] => rfl
  | start, t :: ts => by
    rw [parentsAll, List.length_append, length_parentsFrom, length_parentsAll, countAll]

end

/-- The tree at one place is a child of the tree at another, in a list of trees that begins
at the place `start`. -/
def IsChild (start : Nat) (trees : List (Tree α)) (i j : Nat) : Prop :=
  ∃ k above below, j = start + k ∧ trees[k]? = some above ∧ trees[i]? = some below ∧
    below ∈ above.children

mutual

theorem isChild_parentsFrom (parent : Option Nat) (start : Nat) :
    (t : Tree α) → ∀ {i j}, (t.parentsFrom parent start)[i]? = some (some j) →
      i = 0 ∧ parent = some j ∨ IsChild start t.subtrees i j
  | node value children, 0, j, h => by
    rw [parentsFrom, List.getElem?_cons_zero] at h
    exact .inl ⟨rfl, Option.some.inj h⟩
  | node value children, i + 1, j, h => by
    rw [parentsFrom, List.getElem?_cons_succ] at h
    rcases isChild_parentsAll (some start) (start + 1) children h with
      ⟨same, below, place, mem⟩ | ⟨k, above, below, rfl, place, place', mem⟩
    · cases same
      exact .inr ⟨0, node value children, below, rfl, rfl, place, mem⟩
    · exact .inr ⟨k + 1, above, below, by omega, place, place', mem⟩

theorem isChild_parentsAll (parent : Option Nat) (start : Nat) :
    (ts : List (Tree α)) → ∀ {i j}, (parentsAll parent start ts)[i]? = some (some j) →
      (parent = some j ∧ ∃ below, (subtreesAll ts)[i]? = some below ∧ below ∈ ts) ∨
        IsChild start (subtreesAll ts) i j
  | [], _, _, h => nomatch h
  | t :: ts, i, j, h => by
    rw [parentsAll] at h
    rw [subtreesAll]
    by_cases first : i < t.count
    · have inside : i < (t.parentsFrom parent start).length := by rwa [length_parentsFrom]
      rw [List.getElem?_append_left inside] at h
      rcases isChild_parentsFrom parent start t h with
        ⟨rfl, same⟩ | ⟨k, above, below, rfl, place, place', mem⟩
      · cases t with
        | node value children => exact .inl ⟨same, node value children, rfl, List.mem_cons_self⟩
      · refine .inr ⟨k, above, below, rfl, ?_, ?_, mem⟩
        · rw [List.getElem?_append_left (List.getElem?_eq_some_iff.mp place).1, place]
        · rw [List.getElem?_append_left (List.getElem?_eq_some_iff.mp place').1, place']
    · have later : t.count ≤ i := Nat.not_lt.mp first
      rw [List.getElem?_append_right (by rwa [length_parentsFrom]), length_parentsFrom] at h
      rw [IsChild, List.getElem?_append_right (by rwa [length_subtrees]), length_subtrees]
      rcases isChild_parentsAll parent (start + t.count) ts h with
        ⟨same, below, place, mem⟩ | ⟨k, above, below, rfl, place, place', mem⟩
      · exact .inl ⟨same, below, place, List.mem_cons_of_mem _ mem⟩
      · refine .inr ⟨t.count + k, above, below, Nat.add_assoc _ _ _, ?_, place', mem⟩
        rw [List.getElem?_append_right (by rw [length_subtrees]; omega), length_subtrees,
          Nat.add_sub_cancel_left, place]

end

/-- What stands at a place in `parents` is where the parent is: the tree at the one place is a
child of the tree at the other. -/
theorem isChild_of_parents {t : Tree α} {i j : Nat} (h : t.parents[i]? = some (some j)) :
    ∃ above below, t.subtrees[j]? = some above ∧ t.subtrees[i]? = some below ∧
      below ∈ above.children := by
  rcases isChild_parentsFrom none 0 t h with
    ⟨_, impossible⟩ | ⟨k, above, below, rfl, place, place', mem⟩
  · cases impossible
  · rw [Nat.zero_add]
    exact ⟨above, below, place, place', mem⟩

end Tree

open EvmInspect.Trace.Tree

/-! ## Order -/

theorem walkAll_adopt (depth : Nat) (value : α) (later : List (Nat × Tree α)) :
    walkAll ((adopt depth value later).map Prod.snd) = value :: walkAll (later.map Prod.snd) := by
  have parts := List.takeWhile_append_dropWhile (p := fun t => decide (depth < t.1)) (l := later)
  calc walkAll ((adopt depth value later).map Prod.snd)
      = value :: walkAll ((later.takeWhile fun t => depth < t.1).map Prod.snd
          ++ (later.dropWhile fun t => depth < t.1).map Prod.snd) := by
        simp only [adopt, List.map_cons, walkAll, walk_node, List.cons_append, walkAll_append]
    _ = value :: walkAll (later.map Prod.snd) := by rw [← List.map_append, parts]

/-- Every node is in the trees once, and in its order. -/
theorem walkAll_gather (nodes : List (Nat × α)) :
    walkAll ((gather nodes).map Prod.snd) = nodes.map Prod.snd := by
  induction nodes with
  | nil => rfl
  | cons node rest ih => rw [gather, walkAll_adopt, ih, List.map_cons]

theorem walk_treeOf (root : α) (nodes : List (Nat × α)) :
    (treeOf root nodes).walk = root :: nodes.map Prod.snd := by
  rw [treeOf, walk_node, walkAll_gather]

/-! ## Roots that wait for a parent -/

/-- The places of the parents in a list of trees, each root hanging where `hang` says for
its depth. -/
def forestParents (hang : Nat → Option Nat) (start : Nat) : List (Nat × Tree α) → List (Option Nat)
  | [] => []
  | (depth, t) :: later =>
    t.parentsFrom (hang depth) start ++ forestParents hang (start + t.count) later

section Forest

variable {hang hang' : Nat → Option Nat} {start : Nat} {trees : List (Nat × Tree α)}

theorem forestParents_append (trees later : List (Nat × Tree α)) :
    forestParents hang start (trees ++ later) =
      forestParents hang start trees ++
        forestParents hang (start + countAll (trees.map Prod.snd)) later := by
  induction trees generalizing start with
  | nil => rfl
  | cons t ts ih =>
    obtain ⟨depth, t⟩ := t
    simp only [List.cons_append, forestParents, ih, List.map_cons, countAll, List.append_assoc,
      Nat.add_assoc]

theorem forestParents_congr (same : ∀ t ∈ trees, hang t.1 = hang' t.1) :
    forestParents hang start trees = forestParents hang' start trees := by
  induction trees generalizing start with
  | nil => rfl
  | cons t ts ih =>
    obtain ⟨now, later⟩ := List.forall_mem_cons.mp same
    obtain ⟨depth, t⟩ := t
    simp only [forestParents, now, ih later]

/-- Roots that all hang in one place are the children of the node there. -/
theorem forestParents_const (parent : Option Nat) (trees : List (Nat × Tree α)) :
    forestParents (fun _ => parent) start trees = parentsAll parent start (trees.map Prod.snd) := by
  induction trees generalizing start with
  | nil => rfl
  | cons t ts ih =>
    obtain ⟨depth, t⟩ := t
    simp only [forestParents, List.map_cons, parentsAll, ih]

/-- In descending order of depth, whoever is left over by a node is no deeper than it. -/
theorem le_of_mem_dropWhile {depth : Nat} (descending : trees.Pairwise fun a b => b.1 ≤ a.1)
    {t : Nat × Tree α} (mem : t ∈ trees.dropWhile fun t => depth < t.1) : t.1 ≤ depth := by
  induction trees with
  | nil => cases mem
  | cons head rest ih =>
    obtain ⟨first, tail⟩ := List.pairwise_cons.mp descending
    by_cases deeper : depth < head.1
    · rw [List.dropWhile_cons_of_pos (by simpa using deeper)] at mem
      exact ih tail mem
    · rw [List.dropWhile_cons_of_neg (by simpa using deeper)] at mem
      rcases List.mem_cons.mp mem with rfl | later
      · exact Nat.not_lt.mp deeper
      · exact Nat.le_trans (first t later) (Nat.not_lt.mp deeper)

/-- The roots that are still without a parent are in descending order of depth. -/
theorem gather_descending (nodes : List (Nat × α)) :
    (gather nodes).Pairwise fun a b => b.1 ≤ a.1 := by
  induction nodes with
  | nil => exact .nil
  | cons node rest ih =>
    exact List.pairwise_cons.mpr
      ⟨fun t mem => le_of_mem_dropWhile ih mem, ih.sublist (List.dropWhile_sublist _)⟩

/-- A node in front of a list of trees hangs by its depth, and from then on it is the last
node for whoever is deeper. -/
theorem forestParents_adopt (descending : trees.Pairwise fun a b => b.1 ≤ a.1) (depth : Nat)
    (value : α) :
    forestParents hang start (adopt depth value trees) =
      hang depth ::
        forestParents (fun d => if depth < d then some start else hang d) (start + 1) trees := by
  have taken : forestParents (fun d => if depth < d then some start else hang d) (start + 1)
      (trees.takeWhile fun t => depth < t.1) =
        parentsAll (some start) (start + 1)
          ((trees.takeWhile fun t => depth < t.1).map Prod.snd) := by
    rw [← forestParents_const]
    apply forestParents_congr
    intro t mem
    have deeper := List.mem_takeWhile_imp mem
    exact if_pos (of_decide_eq_true deeper)
  have left : ∀ next, forestParents (fun d => if depth < d then some start else hang d) next
      (trees.dropWhile fun t => depth < t.1) =
        forestParents hang next (trees.dropWhile fun t => depth < t.1) := by
    intro next
    apply forestParents_congr
    intro t mem
    exact if_neg (Nat.not_lt.mpr (le_of_mem_dropWhile descending mem))
  conv => rhs; rw [← List.takeWhile_append_dropWhile (p := fun t => decide (depth < t.1)) (l := trees)]
  rw [forestParents_append, taken, left, adopt]
  simp only [forestParents, parentsFrom, count, List.cons_append, Nat.add_assoc]

end Forest

/-! ## From the front -/

/-- Where each node hangs, given its depth: `hang` keeps the place of the last node so far
that is less deep. -/
def hangUnder (hang : Nat → Option Nat) (start : Nat) : List Nat → List (Option Nat)
  | [] => []
  | depth :: rest =>
    hang depth :: hangUnder (fun d => if depth < d then some start else hang d) (start + 1) rest

theorem forestParents_gather (hang : Nat → Option Nat) (start : Nat) (nodes : List (Nat × α)) :
    forestParents hang start (gather nodes) = hangUnder hang start (nodes.map Prod.fst) := by
  induction nodes generalizing hang start with
  | nil => rfl
  | cons node rest ih =>
    obtain ⟨depth, value⟩ := node
    rw [gather, forestParents_adopt (gather_descending rest), ih, List.map_cons, hangUnder]

theorem parents_treeOf (root : α) (nodes : List (Nat × α)) :
    (treeOf root nodes).parents = none :: hangUnder (fun _ => some 0) 1 (nodes.map Prod.fst) := by
  rw [← forestParents_gather, forestParents_const]
  rfl

/-! ## Levels -/

/-- The level of each node, given its depth: `level` keeps the level of the last node so far
that is less deep. -/
def levelsUnder (level : Nat → Nat) : List Nat → List Nat
  | [] => []
  | depth :: rest =>
    (level depth + 1) :: levelsUnder (fun d => if depth < d then level depth + 1 else level d) rest

/-- Of the depths above, those below a smaller depth are left by a greater one as well. -/
theorem dropWhile_dropWhile_of_le {depth d : Nat} (h : d ≤ depth) (above : List Nat) :
    (above.dropWhile fun a => depth ≤ a).dropWhile (fun a => d ≤ a) =
      above.dropWhile fun a => d ≤ a := by
  induction above with
  | nil => rfl
  | cons a rest ih =>
    by_cases passed : depth ≤ a
    · have kept : d ≤ a := Nat.le_trans h passed
      rw [List.dropWhile_cons_of_pos (by simpa using passed), ih,
        List.dropWhile_cons_of_pos (by simpa using kept)]
    · rw [List.dropWhile_cons_of_neg (by simpa using passed)]

theorem levels_eq (above depths : List Nat) :
    levels above depths =
      levelsUnder (fun d => (above.dropWhile fun a => d ≤ a).length) depths := by
  induction depths generalizing above with
  | nil => rfl
  | cons depth rest ih =>
    rw [levels, levelsUnder, ih]
    congr 2
    funext d
    split
    next deeper =>
      rw [List.dropWhile_cons_of_neg (by simpa using deeper), List.length_cons]
    next shallower =>
      have h : d ≤ depth := Nat.not_lt.mp shallower
      rw [List.dropWhile_cons_of_pos (by simpa using h), dropWhile_dropWhile_of_le h]

/-! ## Places and levels together -/

/-- The node at `i`, of depth `d`, hangs under the last one before it that is less deep, one
level further down, and no further than its depth. -/
structure Attached (depths levels : List Nat) (i d j : Nat) : Prop where
  before : j < i
  shallower : ∃ e, depths[j]? = some e ∧ e < d
  nearest : ∀ m e, j < m → m < i → depths[m]? = some e → d ≤ e
  level : ∃ n, levels[j]? = some n ∧ levels[i]? = some (n + 1) ∧ n < d

/-- After the nodes of some depths and levels, `hang` and `level` are right for whoever comes
next. -/
def Open (depths levels : List Nat) (hang : Nat → Option Nat) (level : Nat → Nat) : Prop :=
  ∀ d, 0 < d → ∃ j, hang d = some j ∧ (∃ e, depths[j]? = some e ∧ e < d) ∧
    (∀ m e, j < m → depths[m]? = some e → d ≤ e) ∧ levels[j]? = some (level d) ∧ level d < d

section Open

variable {depths levels : List Nat} {hang : Nat → Option Nat} {level : Nat → Nat}

theorem open_root : Open [0] [0] (fun _ => some 0) (fun _ => 0) := by
  intro d positive
  refine ⟨0, rfl, ⟨0, rfl, positive⟩, ?_, rfl, positive⟩
  intro m e after found
  have inside := (List.getElem?_eq_some_iff.mp found).1
  simp only [List.length_singleton] at inside
  omega

/-- The next node hangs under the last that is less deep, and is itself the last for whoever
is deeper. -/
theorem Open.cons (h : Open depths levels hang level) (same : levels.length = depths.length)
    {depth : Nat} (positive : 0 < depth) :
    Open (depths ++ [depth]) (levels ++ [level depth + 1])
      (fun d => if depth < d then some depths.length else hang d)
      (fun d => if depth < d then level depth + 1 else level d) := by
  obtain ⟨_, _, _, _, _, low⟩ := h depth positive
  intro d hd
  dsimp only
  by_cases deeper : depth < d
  · refine ⟨depths.length, if_pos deeper, ⟨depth, List.getElem?_concat_length, deeper⟩, ?_, ?_, ?_⟩
    · intro m e after found
      have inside := (List.getElem?_eq_some_iff.mp found).1
      simp only [List.length_append, List.length_singleton] at inside
      omega
    · rw [if_pos deeper, ← same]
      exact List.getElem?_concat_length
    · rw [if_pos deeper]
      omega
  · obtain ⟨j, hung, ⟨e, found, less⟩, nearest, leveled, bound⟩ := h d hd
    have old : ∀ {xs : List Nat} {k v : Nat} (y : Nat), xs[k]? = some v →
        (xs ++ [y])[k]? = some v := by
      intro xs k v y found
      rw [List.getElem?_append_left (List.getElem?_eq_some_iff.mp found).1, found]
    refine ⟨j, by rw [if_neg deeper, hung], ⟨e, old _ found, less⟩, ?_, ?_, ?_⟩
    · intro m e after found
      rcases Nat.lt_or_ge m depths.length with earlier | last
      · rw [List.getElem?_append_left earlier] at found
        exact nearest m e after found
      · -- the node that was added is not less deep
        have inside := (List.getElem?_eq_some_iff.mp found).1
        simp only [List.length_append, List.length_singleton] at inside
        have place : m = depths.length := by omega
        rw [place, List.getElem?_concat_length] at found
        cases found
        exact Nat.not_lt.mp deeper
    · rw [if_neg deeper]
      exact old _ leveled
    · rwa [if_neg deeper]

/-- Whoever comes is attached where the last node that is less deep stands. -/
theorem attached_hangUnder (h : Open depths levels hang level)
    (same : levels.length = depths.length) {later : List Nat} (positive : ∀ d ∈ later, 0 < d)
    {i d : Nat} (here : later[i]? = some d) :
    ∃ j, (hangUnder hang depths.length later)[i]? = some (some j) ∧
      Attached (depths ++ later) (levels ++ levelsUnder level later) (depths.length + i) d j := by
  induction later generalizing depths levels hang level i with
  | nil => cases here
  | cons depth rest ih =>
    obtain ⟨first, others⟩ := List.forall_mem_cons.mp positive
    cases i with
    | zero =>
      obtain rfl : depth = d := Option.some.inj here
      obtain ⟨j, hung, ⟨e, found, less⟩, nearest, leveled, bound⟩ := h depth first
      have before := (List.getElem?_eq_some_iff.mp found).1
      refine ⟨j, by simp only [hangUnder, List.getElem?_cons_zero, hung], before,
        ⟨e, by rw [List.getElem?_append_left before, found], less⟩, ?_, ⟨level depth, ?_, ?_, bound⟩⟩
      · intro m e after earlier found
        rw [List.getElem?_append_left earlier] at found
        exact nearest m e after found
      · rw [List.getElem?_append_left (List.getElem?_eq_some_iff.mp leveled).1, leveled]
      · rw [Nat.add_zero, ← same, List.getElem?_append_right (Nat.le_refl _), Nat.sub_self]
        rfl
    | succ i =>
      have later := ih (h.cons same first) (by simp only [List.length_append, same]; rfl) others here
      obtain ⟨j, hung, attached⟩ := later
      simp only [List.length_append, List.length_singleton] at hung attached
      rw [List.append_assoc, List.append_assoc, Nat.add_assoc, Nat.add_comm 1 i] at attached
      exact ⟨j, hung, attached⟩

end Open

/-- Below a root of depth 0, each node hangs under the last before it that is less deep, and
its level is one more. -/
theorem attached_levels {depths : List Nat} (positive : ∀ d ∈ depths, 0 < d) {i d : Nat}
    (here : depths[i]? = some d) :
    ∃ j, (none :: hangUnder (fun _ => some 0) 1 depths)[i + 1]? = some (some j) ∧
      Attached (0 :: depths) (0 :: levels [] depths) (i + 1) d j := by
  obtain ⟨j, hung, attached⟩ := attached_hangUnder open_root rfl positive here
  refine ⟨j, hung, ?_⟩
  rw [levels_eq, Nat.add_comm i 1]
  exact attached

/-- Depths may leave gaps, and fall as they like. -/
example : (treeOf 'r' [(2, 'a'), (5, 'b'), (3, 'c'), (3, 'd'), (1, 'e')]).parents =
    [none, some 0, some 1, some 1, some 1, some 0] := by decide

end EvmInspect.Trace
