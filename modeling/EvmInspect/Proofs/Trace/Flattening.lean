import EvmInspect.Proofs.Trace.CallTree

/-!
# A call tree written down and read back

A tree is listed by its nodes in the order of a walk, each with its depth. `gather` undoes
that: in front of what is no deeper, the list of a tree gathers to the tree
(`gather_flatten`), however uneven the trees before and behind it are. The level that each
node is given is its depth again (`levels_flattenAll`). So the trace of any tree of calls is
decoded to that very tree.
-/

namespace EvmInspect.Trace

variable {α β : Type}

namespace Tree

mutual

/-- The tree with every value replaced by what is made of it and its depth. -/
def mapAt (f : Nat → α → β) (level : Nat) : Tree α → Tree β
  | node value children => node (f level value) (mapAtAll f (level + 1) children)

def mapAtAll (f : Nat → α → β) (level : Nat) : List (Tree α) → List (Tree β)
  | [] => []
  | t :: ts => mapAt f level t :: mapAtAll f level ts

end

mutual

theorem flatten_mapAt (f : Nat → α → β) :
    (level : Nat) → (t : Tree α) →
      (t.mapAt f level).flatten level = (t.flatten level).map fun n => (n.1, f n.1 n.2)
  | level, node value children => by
    rw [mapAt, flatten, flatten, flattenAll_mapAtAll, List.map_cons]

theorem flattenAll_mapAtAll (f : Nat → α → β) :
    (level : Nat) → (ts : List (Tree α)) →
      flattenAll level (mapAtAll f level ts) =
        (flattenAll level ts).map fun n => (n.1, f n.1 n.2)
  | _, [] => rfl
  | level, t :: ts => by
    rw [mapAtAll, flattenAll, flattenAll, flatten_mapAt, flattenAll_mapAtAll, List.map_append]

end

mutual

/-- Without its depths, the list of a tree is its walk. -/
theorem map_snd_flatten : (level : Nat) → (t : Tree α) → (t.flatten level).map Prod.snd = t.walk
  | level, node value children => by
    rw [flatten, List.map_cons, map_snd_flattenAll, walk_node]

theorem map_snd_flattenAll :
    (level : Nat) → (ts : List (Tree α)) → (flattenAll level ts).map Prod.snd = walkAll ts
  | _, [] => rfl
  | level, t :: ts => by
    rw [flattenAll, List.map_append, map_snd_flatten, map_snd_flattenAll, walkAll]

end

theorem mapAll_eq_map (f : α → β) (ts : List (Tree α)) : mapAll f ts = ts.map (Tree.map f) := by
  induction ts with
  | nil => rfl
  | cons t ts ih => rw [mapAll, ih, List.map_cons]

mutual

/-- What is made of the values alone needs no depths. -/
theorem mapAt_const (f : α → β) : (level : Nat) → (t : Tree α) → t.mapAt (fun _ => f) level = t.map f
  | level, node value children => by
    rw [mapAt, Tree.map, mapAtAll_const]

theorem mapAtAll_const (f : α → β) :
    (level : Nat) → (ts : List (Tree α)) → mapAtAll (fun _ => f) level ts = mapAll f ts
  | _, [] => rfl
  | level, t :: ts => by
    rw [mapAtAll, mapAll, mapAt_const, mapAtAll_const]

end

mutual

theorem le_of_mem_flatten :
    (level : Nat) → (t : Tree α) → ∀ node ∈ t.flatten level, level ≤ node.1
  | level, node value children, n, mem => by
    rcases List.mem_cons.mp mem with rfl | below
    · exact Nat.le_refl level
    · exact Nat.le_of_succ_le (le_of_mem_flattenAll (level + 1) children n below)

theorem le_of_mem_flattenAll :
    (level : Nat) → (ts : List (Tree α)) → ∀ node ∈ flattenAll level ts, level ≤ node.1
  | level, t :: ts, n, mem => by
    rcases List.mem_append.mp mem with first | later
    · exact le_of_mem_flatten level t n first
    · exact le_of_mem_flattenAll level ts n later

end

end Tree

open EvmInspect.Trace.Tree

/-! ## Shape -/

/-- A node takes the trees behind it that are deeper, and leaves those that are not. -/
theorem adopt_append {depth : Nat} (value : α) {inside outside : List (Nat × Tree α)}
    (deeper : ∀ t ∈ inside, depth < t.1) (others : ∀ t ∈ outside, t.1 ≤ depth) :
    adopt depth value (inside ++ outside) =
      (depth, .node value (inside.map Prod.snd)) :: outside := by
  have taken : ∀ t ∈ inside, decide (depth < t.1) = true := fun t mem =>
    decide_eq_true (deeper t mem)
  have left : ∀ t ∈ outside, ¬ decide (depth < t.1) = true := fun t mem => by
    rw [decide_eq_true_eq]
    exact Nat.not_lt.mpr (others t mem)
  have none : outside.takeWhile (fun t => decide (depth < t.1)) = [] := by
    cases outside with
    | nil => rfl
    | cons t ts => exact List.takeWhile_cons_of_neg (left t List.mem_cons_self)
  have all : outside.dropWhile (fun t => decide (depth < t.1)) = outside := by
    cases outside with
    | nil => rfl
    | cons t ts => exact List.dropWhile_cons_of_neg (left t List.mem_cons_self)
  rw [adopt, List.takeWhile_append_of_pos taken, List.dropWhile_append_of_pos taken, none, all,
    List.append_nil]

mutual

/-- In front of what is no deeper, the list of a tree gathers to the tree. -/
theorem gather_flatten : (level : Nat) → (t : Tree α) → (rest : List (Nat × α)) →
    (∀ u ∈ gather rest, u.1 ≤ level) → gather (t.flatten level ++ rest) = (level, t) :: gather rest
  | level, node value children, rest, outside => by
    have below := gather_flattenAll (level + 1) children rest
      fun u mem => Nat.le_succ_of_le (outside u mem)
    have deeper : ∀ t ∈ children.map fun t => (level + 1, t), level < t.1 := by
      intro t mem
      obtain ⟨child, _, rfl⟩ := List.mem_map.mp mem
      exact Nat.lt_succ_self level
    rw [flatten, List.cons_append, gather, below, adopt_append value deeper outside, List.map_map]
    congr
    exact List.map_id _

theorem gather_flattenAll : (level : Nat) → (ts : List (Tree α)) → (rest : List (Nat × α)) →
    (∀ u ∈ gather rest, u.1 ≤ level) →
      gather (flattenAll level ts ++ rest) = ts.map (fun t => (level, t)) ++ gather rest
  | _, [], _, _ => rfl
  | level, t :: ts, rest, outside => by
    have later := gather_flattenAll level ts rest outside
    have still : ∀ u ∈ gather (flattenAll level ts ++ rest), u.1 ≤ level := by
      intro u mem
      rw [later] at mem
      rcases List.mem_append.mp mem with own | other
      · obtain ⟨t, _, rfl⟩ := List.mem_map.mp own
        exact Nat.le_refl level
      · exact outside u other
    rw [flattenAll, List.append_assoc, gather_flatten level t _ still, later]
    rfl

end

/-- The trees that hang below a root are read back from their list. -/
theorem treeOf_flattenAll (root : α) (level : Nat) (children : List (Tree α)) :
    treeOf root (flattenAll level children) = node root children := by
  have gathered := gather_flattenAll level children [] fun u mem => nomatch mem
  rw [List.append_nil, gather, List.append_nil] at gathered
  rw [treeOf, gathered, List.map_map]
  congr
  exact List.map_id _

/-- Gathering does not look at the values. -/
theorem gather_map (f : α → β) (nodes : List (Nat × α)) :
    gather (nodes.map fun n => (n.1, f n.2)) = (gather nodes).map fun t => (t.1, t.2.map f) := by
  induction nodes with
  | nil => rfl
  | cons node rest ih =>
    obtain ⟨depth, value⟩ := node
    rw [List.map_cons, gather, gather, ih, adopt, adopt, List.takeWhile_map, List.dropWhile_map,
      List.map_map, List.map_cons, Tree.map, mapAll_eq_map, List.map_map]
    rfl

theorem map_treeOf (f : α → β) (root : α) (nodes : List (Nat × α)) :
    (treeOf root nodes).map f = treeOf (f root) (nodes.map fun n => (n.1, f n.2)) := by
  rw [treeOf, treeOf, gather_map, Tree.map, mapAll_eq_map, List.map_map, List.map_map]
  rfl

/-! ## Levels -/

mutual

/-- If the levels go as far as that of a tree, they do so again behind it. -/
theorem levelsUnder_flatten : (level : Nat) → (t : Tree α) → (above : Nat → Nat) →
    above level + 1 = level → ∃ above' : Nat → Nat, (∀ d ≤ level, above' d = above d) ∧
      ∀ rest, levelsUnder above ((t.flatten level).map Prod.fst ++ rest) =
        (t.flatten level).map Prod.fst ++ levelsUnder above' rest
  | level, node value children, above, reached => by
    obtain ⟨above', same, below⟩ :=
      levelsUnder_flattenAll (level + 1) children
        (fun d => if level < d then above level + 1 else above d) (by simp [reached])
    refine ⟨above', fun d low => ?_, fun rest => ?_⟩
    · rw [same d (Nat.le_succ_of_le low), if_neg (Nat.not_lt.mpr low)]
    · rw [flatten, List.map_cons, List.cons_append, levelsUnder, below, reached, List.cons_append]

theorem levelsUnder_flattenAll : (level : Nat) → (ts : List (Tree α)) → (above : Nat → Nat) →
    above level + 1 = level → ∃ above' : Nat → Nat, (∀ d ≤ level, above' d = above d) ∧
      ∀ rest, levelsUnder above ((flattenAll level ts).map Prod.fst ++ rest) =
        (flattenAll level ts).map Prod.fst ++ levelsUnder above' rest
  | _, [], above, _ => ⟨above, fun _ _ => rfl, fun _ => rfl⟩
  | level, t :: ts, above, reached => by
    obtain ⟨next, same, first⟩ := levelsUnder_flatten level t above reached
    have still : next level + 1 = level := by rw [same level (Nat.le_refl _), reached]
    obtain ⟨last, same', later⟩ := levelsUnder_flattenAll level ts next still
    refine ⟨last, fun d low => (same' d low).trans (same d low), fun rest => ?_⟩
    rw [flattenAll, List.map_append, List.append_assoc, first, later, List.append_assoc]

end

/-- Each node of a listed tree gets the level that it is listed with. -/
theorem levels_flattenAll (ts : List (Tree α)) :
    levels [] ((flattenAll 1 ts).map Prod.fst) = (flattenAll 1 ts).map Prod.fst := by
  obtain ⟨above, _, same⟩ := levelsUnder_flattenAll 1 ts (fun _ => 0) rfl
  have whole := same []
  rw [List.append_nil, levelsUnder, List.append_nil] at whole
  rw [levels_eq]
  exact whole

/-! ## Traces of trees -/

/-- The record of a call tells the depth at which it was made; one made by the outermost call
may leave it out. -/
def InnerCall.Tells (c : InnerCall) (depth : Nat) : Prop :=
  c.depth = some depth ∨ depth = 1 ∧ c.depth = none

instance (c : InnerCall) (depth : Nat) : Decidable (c.Tells depth) :=
  inferInstanceAs (Decidable (_ ∨ _))

theorem InnerCall.Tells.traceDepth {c : InnerCall} {depth : Nat} (h : c.Tells depth)
    (inner : 0 < depth) : c.traceDepth = depth := by
  rcases h with told | ⟨rfl, silent⟩
  · rw [InnerCall.traceDepth, told, Option.getD_some]
    exact Nat.max_eq_left inner
  · rw [InnerCall.traceDepth, silent]
    rfl

/-- A run's inner calls are those of some trees, which hang below the outermost call, in order
of execution and with their depths. -/
structure RunResult.Lists (result : RunResult) (calls : List (Tree InnerCall)) : Prop where
  order : result.innerCalls = walkAll calls
  depths : ∀ node ∈ flattenAll 1 calls, node.2.Tells node.1

theorem RunResult.Lists.map_traceDepth {result : RunResult} {calls : List (Tree InnerCall)}
    (h : result.Lists calls) :
    result.innerCalls.map InnerCall.traceDepth = (flattenAll 1 calls).map Prod.fst := by
  rw [h.order, ← map_snd_flattenAll 1, List.map_map]
  apply List.map_congr_left
  intro node mem
  exact (h.depths node mem).traceDepth (le_of_mem_flattenAll 1 calls node mem)

/-! ## What is decoded from them -/

/-- What a trace tells of a call and of what came back from it. -/
structure CallFacts where
  sender : Address
  target : Option Address
  value : Word
  input : Bytes
  output : Bytes
  reverted : Bool
  gasUsed : Option UInt64

def CallInput.facts (call : CallInput) (output : Bytes) (reverted : Bool)
    (gasUsed : Option UInt64) : CallFacts :=
  ⟨call.sender, call.target, call.value, call.data, output, reverted, gasUsed⟩

def InnerCall.facts (c : InnerCall) : CallFacts := c.call.facts c.output c.reverted c.gasUsed

def DecodedFrame.facts (frame : DecodedFrame) : CallFacts :=
  ⟨frame.sender, frame.target, frame.value, frame.rawInput, frame.rawOutput, frame.isReverted,
    frame.gasUsed⟩

theorem Verbatim.facts {frame : DecodedFrame} {call : CallInput} {output : Bytes}
    {reverted : Bool} {gasUsed : Option UInt64} (h : Verbatim frame call output reverted gasUsed) :
    frame.facts = call.facts output reverted gasUsed := by
  rw [DecodedFrame.facts, h.sender, h.target, h.value, h.rawInput, h.rawOutput, h.isReverted,
    h.gasUsed]
  rfl

/-- A decoded call without the logs that it emitted. -/
def DecodedFrame.withoutLogs (frame : DecodedFrame) : DecodedFrame := { frame with logs := [] }

section Decode

variable (registry : Abi.Registry) (chain : UInt64) (call : CallInput) (result : RunResult)

/-- What does not look at the logs sees the tree of the decoded calls. -/
theorem map_decodeRun {f : DecodedFrame → β}
    (blind : ∀ frame logs, f { frame with logs := logs } = f frame) :
    (decodeRun registry chain call result).root.map f =
      treeOf (f (decodeOutermost registry chain call result))
        ((result.innerCalls.map InnerCall.traceDepth).zip
          (List.zipWith (fun c depth => f (decodeInner registry chain c depth)) result.innerCalls
            (levels [] (result.innerCalls.map InnerCall.traceDepth)))) := by
  obtain ⟨root, inner, _, frames, tree⟩ := exists_treeOf_decodeRun registry chain call result
  have seen : f root :: inner.map f = (decodeFrames registry chain call result).map f := by
    rw [← List.map_cons, frames, map_attachLogs _ _ blind]
  rw [decodeFrames, List.map_cons, List.map_zipWith] at seen
  obtain ⟨outermost, others⟩ := List.cons.inj seen
  rw [tree, map_treeOf, outermost, ← others, List.zip_map_right]
  rfl

theorem map_decodeRun_of_lists {f : DecodedFrame → β}
    (blind : ∀ frame logs, f { frame with logs := logs } = f frame)
    {calls : List (Tree InnerCall)} (lists : result.Lists calls) :
    (decodeRun registry chain call result).root.map f =
      node (f (decodeOutermost registry chain call result))
        (mapAtAll (fun depth c => f (decodeInner registry chain c depth)) 1 calls) := by
  have listed : result.innerCalls = (flattenAll 1 calls).map Prod.snd := by
    rw [map_snd_flattenAll, lists.order]
  rw [map_decodeRun registry chain call result blind, lists.map_traceDepth, levels_flattenAll,
    listed, List.zipWith_map, List.zipWith_self, List.zip_map', ← treeOf_flattenAll _ 1,
    flattenAll_mapAtAll]

/-- A tree is that of the outermost call and some trees of calls below it: the same calls in
the same places, each decoded at its depth. -/
structure ReadsBack (calls : List (Tree InnerCall)) (t : DecodedCall) : Prop where
  facts : t.map DecodedFrame.facts =
    node (call.facts result.output result.reverted result.gasUsed) (mapAll InnerCall.facts calls)
  decoded : t.map DecodedFrame.withoutLogs = node (decodeOutermost registry chain call result)
    (mapAtAll (fun depth c => decodeInner registry chain c depth) 1 calls)
  depths : t.walk.map DecodedFrame.depth = result.traceDepths

/-- The trace of a tree of calls is decoded to this tree. -/
theorem decodeRun_reads_back {calls : List (Tree InnerCall)} (lists : result.Lists calls) :
    ReadsBack registry chain call result calls (decodeRun registry chain call result).root where
  facts := by
    rw [map_decodeRun_of_lists registry chain call result (fun _ _ => rfl) lists,
      ← mapAtAll_const InnerCall.facts 1]
    congr 1
    · exact (withOutcome_decodeCall registry chain call 0 _ _ _ rfl).1.facts
    · congr 1
      funext depth c
      exact (withOutcome_decodeCall registry chain c.call depth _ _ _ rfl).1.facts
  decoded := by
    rw [map_decodeRun_of_lists registry chain call result (fun _ _ => rfl) lists]
    congr 1
    · obtain ⟨_, _, none⟩ := withOutcome_decodeCall registry chain call 0 result.output
        result.reverted result.gasUsed rfl
      exact DecodedFrame.eq_of_logs_nil none []
    · congr 1
      funext depth c
      obtain ⟨_, _, none⟩ := withOutcome_decodeCall registry chain c.call depth c.output
        c.reverted c.gasUsed rfl
      exact DecodedFrame.eq_of_logs_nil none []
  depths := by
    rw [map_depth_walk_decodeRun, RunResult.traceDepths, lists.map_traceDepth, levels_flattenAll]

end Decode

/-- A deep branch, a call by itself whose record is silent, and a branch with two calls side by
side. -/
theorem uneven_calls_read_back :
    let inner (target : Nat) (depth : Option Nat) : InnerCall :=
      { call := { (default : CallInput) with target := some (Address.ofNat target) }
        depth, output := [], reverted := false, gasUsed := none }
    let calls :=
      [node (inner 1 none) [node (inner 2 (some 2)) [node (inner 3 (some 3)) []]],
        node (inner 4 none) [],
        node (inner 5 (some 1)) [node (inner 6 (some 2)) [], node (inner 7 (some 2)) []]]
    let result := { (default : RunResult) with innerCalls := walkAll calls }
    let root := (decodeRun .empty 1 default result).root
    result.Lists calls ∧ ReadsBack .empty 1 default result calls root ∧
      root.walk.map DecodedFrame.depth = [0, 1, 2, 3, 1, 1, 2, 2] := by
  intro inner calls result root
  have lists : result.Lists calls := ⟨rfl, by decide⟩
  have back := decodeRun_reads_back .empty 1 default result lists
  exact ⟨lists, back, back.depths⟩

end EvmInspect.Trace
