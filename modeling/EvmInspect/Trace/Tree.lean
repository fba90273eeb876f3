/-!
# Ordered trees and the depths of their nodes

A tree can be written down as the list of its nodes in the order of a depth-first walk,
each with a depth. `gather` reads such a list back for any depths at all: a node hangs
under the nearest node before it whose depth is smaller. `levels` says how far down each
node then sits.
-/

namespace EvmInspect.Trace

/-- An ordered tree. -/
inductive Tree (α : Type) where
  | node (value : α) (children : List (Tree α))

namespace Tree

variable {α β : Type}

def value : Tree α → α
  | node value _ => value

def children : Tree α → List (Tree α)
  | node _ children => children

mutual

/-- The values of a tree from the root on, each before those below it. -/
def walk : Tree α → List α
  | node value children => value :: walkAll children

def walkAll : List (Tree α) → List α
  | [] => []
  | t :: ts => walk t ++ walkAll ts

end

mutual

/-- The number of nodes. -/
def count : Tree α → Nat
  | node _ children => 1 + countAll children

def countAll : List (Tree α) → Nat
  | [] => 0
  | t :: ts => count t + countAll ts

end

mutual

/-- The nodes in the order of a walk, each with its distance from the root plus `level`. -/
def flatten (level : Nat) : Tree α → List (Nat × α)
  | node value children => (level, value) :: flattenAll (level + 1) children

def flattenAll (level : Nat) : List (Tree α) → List (Nat × α)
  | [] => []
  | t :: ts => flatten level t ++ flattenAll level ts

end

mutual

/-- The tree with every value replaced. -/
def map (f : α → β) : Tree α → Tree β
  | node value children => node (f value) (mapAll f children)

def mapAll (f : α → β) : List (Tree α) → List (Tree β)
  | [] => []
  | t :: ts => map f t :: mapAll f ts

end

@[simp] theorem walk_node (value : α) (children : List (Tree α)) :
    (node value children).walk = value :: walkAll children := rfl

theorem walkAll_append (ts us : List (Tree α)) :
    walkAll (ts ++ us) = walkAll ts ++ walkAll us := by
  induction ts with
  | nil => rfl
  | cons t ts ih => simp [walkAll, ih]

mutual

/-- A tree has as many nodes as its walk has values. -/
theorem length_walk : (t : Tree α) → t.walk.length = t.count
  | node value children => by
    simp [count, length_walkAll children, Nat.add_comm]

theorem length_walkAll : (ts : List (Tree α)) → (walkAll ts).length = countAll ts
  | [] => rfl
  | t :: ts => by
    simp [walkAll, countAll, length_walk t, length_walkAll ts]

end

end Tree

/-- One node more in front of a list of trees with depths: it takes the trees that follow
it and are deeper, up to the first that is not. -/
def adopt {α : Type} (depth : Nat) (value : α) (later : List (Nat × Tree α)) :
    List (Nat × Tree α) :=
  (depth, .node value ((later.takeWhile fun t => depth < t.1).map Prod.snd))
    :: later.dropWhile fun t => depth < t.1

/-- The trees of a list of nodes with depths, each node under the nearest before it with
a smaller depth. -/
def gather {α : Type} : List (Nat × α) → List (Nat × Tree α)
  | [] => []
  | (depth, value) :: rest => adopt depth value (gather rest)

/-- The tree whose root has depth 0 and whose other nodes have the given depths. -/
def treeOf {α : Type} (root : α) (nodes : List (Nat × α)) : Tree α :=
  .node root ((gather nodes).map Prod.snd)

/-- How far below the root each node sits: one more than the number of nodes that are
still above it when it comes. `above` holds their depths, the nearest first. -/
def levels : (above : List Nat) → List Nat → List Nat
  | _, [] => []
  | above, depth :: rest =>
    let above := above.dropWhile fun d => depth ≤ d
    (above.length + 1) :: levels (depth :: above) rest

theorem length_levels (above depths : List Nat) : (levels above depths).length = depths.length := by
  induction depths generalizing above with
  | nil => rfl
  | cons depth rest ih => simp [levels, ih]

end EvmInspect.Trace
