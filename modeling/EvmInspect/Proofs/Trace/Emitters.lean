import EvmInspect.Proofs.Trace.CallTree

/-!
# The calls that logs belong to

A log belongs to exactly one call: the one it names, or else the last inner call into the
address that emitted it, or else the outermost (`BelongsTo`, which `frameOf` decides). The
calls of a run are numbered in the order in which they stand in the walk of its tree, so the
logs that a call is given are those that belong to it (`Attributes`): none is lost, none is
given twice, and those of one call stay in order.
-/

namespace EvmInspect.Trace

variable {α : Type}

/-! ## The call of a log -/

/-- The log names a call of the run. -/
def RawLog.Names (log : RawLog) (innerCalls : List InnerCall) (k : Nat) : Prop :=
  log.callIndex = some k ∧ k ≤ innerCalls.length

/-- The call, by its number, that a log belongs to: 0 is the outermost call, `i + 1` the inner
call at the place `i`. -/
inductive BelongsTo (innerCalls : List InnerCall) (log : RawLog) : Nat → Prop
  | named {k} : log.Names innerCalls k → BelongsTo innerCalls log k
  | emitter {i c} : (∀ k, ¬ log.Names innerCalls k) → innerCalls[i]? = some c →
      c.call.target = some log.address →
      (∀ j c', i < j → innerCalls[j]? = some c' → c'.call.target ≠ some log.address) →
      BelongsTo innerCalls log (i + 1)
  | outermost : (∀ k, ¬ log.Names innerCalls k) →
      (∀ c ∈ innerCalls, c.call.target ≠ some log.address) → BelongsTo innerCalls log 0

theorem BelongsTo.le {innerCalls : List InnerCall} {log : RawLog} {k : Nat}
    (h : BelongsTo innerCalls log k) : k ≤ innerCalls.length := by
  cases h with
  | named names => exact names.2
  | emitter _ here => exact (List.getElem?_eq_some_iff.mp here).1
  | outermost => exact Nat.zero_le _

/-- A log belongs to one call only. -/
theorem BelongsTo.unique {innerCalls : List InnerCall} {log : RawLog} {j k : Nat}
    (h : BelongsTo innerCalls log j) (h' : BelongsTo innerCalls log k) : j = k := by
  cases h with
  | named names =>
    cases h' with
    | named names' => exact Option.some.inj (names.1.symm.trans names'.1)
    | emitter unnamed => exact absurd names (unnamed j)
    | outermost unnamed => exact absurd names (unnamed j)
  | @emitter i _ unnamed here into last =>
    cases h' with
    | named names => exact absurd names (unnamed k)
    | @emitter i' _ _ here' into' last' =>
      rcases Nat.lt_trichotomy i i' with before | rfl | after
      · exact absurd into' (last i' _ before here')
      · rfl
      · exact absurd into (last' i _ after here)
    | outermost _ nobody => exact absurd into (nobody _ (List.mem_of_getElem? here))
  | outermost unnamed nobody =>
    cases h' with
    | named names => exact absurd names (unnamed k)
    | emitter _ here into => exact absurd into (nobody _ (List.mem_of_getElem? here))
    | outermost => rfl

/-- Searching from the end finds the last that passes. -/
theorem getElem?_of_find?_reverse {p : α × Nat → Bool} {xs : List α} {x : α} {i : Nat}
    (found : xs.zipIdx.reverse.find? p = some (x, i)) :
    xs[i]? = some x ∧ p (x, i) = true ∧
      ∀ j y, i < j → xs[j]? = some y → p (y, j) = false := by
  obtain ⟨passes, later, earlier, split, fail⟩ := List.find?_eq_some_iff_append.mp found
  have whole : xs.zipIdx = earlier.reverse ++ (x, i) :: later.reverse := by
    rw [← List.reverse_reverse xs.zipIdx, split]
    simp only [List.reverse_append, List.reverse_cons, List.append_assoc, List.singleton_append]
  have ascending : (xs.zipIdx.map Prod.snd).Pairwise (· < ·) := by
    rw [List.zipIdx_map_snd]
    exact List.pairwise_lt_range'
  rw [List.pairwise_map, whole, List.pairwise_append, List.pairwise_cons] at ascending
  obtain ⟨_, _, before⟩ := ascending
  refine ⟨?_, passes, fun j y after there => ?_⟩
  · have mem : (x, i) ∈ xs.zipIdx := by
      rw [whole]
      exact List.mem_append_right _ List.mem_cons_self
    exact List.mem_zipIdx_iff_getElem?.mp mem
  · have mem : (y, j) ∈ xs.zipIdx := List.mem_zipIdx_iff_getElem?.mpr there
    rw [whole] at mem
    rcases List.mem_append.mp mem with early | late
    · have := before _ early _ List.mem_cons_self
      exact absurd after (Nat.lt_asymm this)
    · rcases List.mem_cons.mp late with same | late
      · cases same
        exact absurd after (Nat.lt_irrefl _)
      · have fails := fail (y, j) (List.mem_reverse.mp late)
        exact Bool.not_eq_eq_eq_not.mp fails

theorem belongsTo_frameOf (innerCalls : List InnerCall) (log : RawLog) :
    BelongsTo innerCalls log (frameOf innerCalls log) := by
  have byAddress : (∀ k, ¬ log.Names innerCalls k) → BelongsTo innerCalls log
      ((((innerCalls.zipIdx.reverse.find? fun c =>
        c.1.call.target == some log.address).map Prod.snd).map (· + 1)).getD 0) := by
    intro unnamed
    cases found : innerCalls.zipIdx.reverse.find? fun c =>
        c.1.call.target == some log.address with
    | none =>
      refine .outermost unnamed fun c mem => ?_
      obtain ⟨i, here⟩ := List.getElem?_of_mem mem
      have fails := List.find?_eq_none.mp found (c, i)
        (List.mem_reverse.mpr (List.mem_zipIdx_iff_getElem?.mpr here))
      simpa only [beq_iff_eq] using fails
    | some last =>
      obtain ⟨here, into, after⟩ := getElem?_of_find?_reverse found
      refine .emitter unnamed here (beq_iff_eq.mp into) fun j c' later there => ?_
      exact beq_eq_false_iff_ne.mp (after j c' later there)
  unfold frameOf
  dsimp only
  cases named : log.callIndex with
  | none =>
    apply byAddress
    intro k names
    rw [names.1] at named
    cases named
  | some index =>
    dsimp only
    split
    next inside => exact .named ⟨named, inside⟩
    next outside =>
      apply byAddress
      intro k names
      rw [names.1] at named
      cases named
      exact outside names.2

theorem belongsTo_iff {innerCalls : List InnerCall} {log : RawLog} {k : Nat} :
    BelongsTo innerCalls log k ↔ k = frameOf innerCalls log := by
  constructor
  · intro h
    exact h.unique (belongsTo_frameOf innerCalls log)
  · rintro rfl
    exact belongsTo_frameOf innerCalls log

/-! ## The logs of a call -/

/-- `own` are the members of `all` at the places for which `here` holds, in their order. -/
def Picks (here : Nat → Prop) (all own : List α) : Prop :=
  ∃ places : List Nat, places.Pairwise (· < ·) ∧ (∀ i, i ∈ places ↔ here i) ∧
    own.map some = places.map (all[·]?)

/-- Keeping what has a number picks the places where it stands. -/
theorem picks_filter (numbered : List (Nat × α)) (k : Nat) :
    Picks (fun i => ∃ x, numbered[i]? = some (k, x)) (numbered.map Prod.snd)
      ((numbered.filter fun x => x.1 == k).map Prod.snd) := by
  refine ⟨(numbered.zipIdx.filter fun x => x.1.1 == k).map Prod.snd, ?_, fun i => ?_, ?_⟩
  · have ascending : (numbered.zipIdx.map Prod.snd).Pairwise (· < ·) := by
      rw [List.zipIdx_map_snd]
      exact List.pairwise_lt_range'
    exact ascending.sublist (List.filter_sublist.map _)
  · simp only [List.mem_map, List.mem_filter, beq_iff_eq]
    constructor
    · rintro ⟨⟨⟨j, x⟩, i⟩, ⟨mem, rfl⟩, rfl⟩
      exact ⟨x, List.mem_zipIdx_iff_getElem?.mp mem⟩
    · rintro ⟨x, here⟩
      have mem : ((k, x), i) ∈ numbered.zipIdx := List.mem_zipIdx_iff_getElem?.mpr here
      exact ⟨((k, x), i), ⟨mem, rfl⟩, rfl⟩
  · have alone : numbered.filter (fun x => x.1 == k) =
        (numbered.zipIdx.filter fun x => x.1.1 == k).map Prod.fst := by
      conv => lhs; rw [← List.zipIdx_map_fst 0 numbered, List.filter_map]
      rfl
    rw [alone, List.map_map, List.map_map, List.map_map]
    apply List.map_congr_left
    intro x mem
    have here := List.mem_zipIdx_iff_getElem?.mp (List.mem_filter.mp mem).1
    simp only [Function.comp_apply, List.getElem?_map, here, Option.map_some]

/-- What is sorted by numbers below a bound is all there. -/
theorem flatMap_filter_perm (numbered : List (Nat × α)) (n : Nat) :
    ((List.range n).flatMap fun k => numbered.filter fun x => x.1 == k).Perm
      (numbered.filter fun x => x.1 < n) := by
  induction n with
  | zero => simp
  | succ n ih =>
    have low : (numbered.filter fun x => x.1 < n + 1).filter (fun x => x.1 < n) =
        numbered.filter fun x => x.1 < n := by
      rw [List.filter_filter]
      apply List.filter_congr
      intro x _
      simp only [Bool.and_eq_left_iff_imp, decide_eq_true_eq]
      omega
    have last : (numbered.filter fun x => x.1 < n + 1).filter (fun x => !(x.1 < n)) =
        numbered.filter fun x => x.1 == n := by
      rw [List.filter_filter]
      apply List.filter_congr
      intro x _
      rw [Bool.eq_iff_iff]
      simp only [Bool.and_eq_true, Bool.not_eq_true', decide_eq_true_eq, decide_eq_false_iff_not,
        beq_iff_eq]
      omega
    have parts := List.filter_append_perm (fun x => x.1 < n) (numbered.filter fun x => x.1 < n + 1)
    rw [low, last] at parts
    rw [List.range_succ, List.flatMap_append, List.flatMap_singleton]
    exact (ih.append_right _).trans parts

/-! ## The logs of a run -/

variable (registry : Abi.Registry) (chain : UInt64) (call : CallInput) (result : RunResult)

section Logs

variable (innerCalls : List InnerCall) (frames : List DecodedFrame) (logs : List RawLog)

/-- A log is decoded with its own index or else its place, at the depth of its call. -/
theorem getElem?_decodeLogs (i : Nat) :
    (decodeLogs registry chain innerCalls frames logs)[i]? = logs[i]?.map fun log =>
      (frameOf innerCalls log, decodeLog registry chain log (log.logIndex.getD (UInt64.ofNat i))
        ((frames[frameOf innerCalls log]?.map DecodedFrame.depth).getD 0)) := by
  simp only [decodeLogs, List.getElem?_map, List.getElem?_zipIdx, Option.map_map, Nat.zero_add]
  rfl

/-- The number that a decoded log stands under is that of the call it belongs to. -/
theorem exists_decodeLogs_iff {i k : Nat} :
    (∃ decoded, (decodeLogs registry chain innerCalls frames logs)[i]? = some (k, decoded)) ↔
      ∃ log, logs[i]? = some log ∧ BelongsTo innerCalls log k := by
  simp only [getElem?_decodeLogs, Option.map_eq_some_iff, Prod.mk.injEq, belongsTo_iff]
  constructor
  · rintro ⟨_, log, here, rfl, _⟩
    exact ⟨log, here, rfl⟩
  · rintro ⟨log, here, rfl⟩
    exact ⟨_, log, here, rfl, rfl⟩

end Logs

/-- The decoded logs of a run, each under the number of its call. -/
def numberedLogs : List (Nat × DecodedLog) :=
  decodeLogs registry chain result.innerCalls (decodeFrames registry chain call result) result.logs

theorem logs_decodeRun : (decodeRun registry chain call result).logs =
    (numberedLogs registry chain call result).map Prod.snd := rfl

/-- The number of a log is that of a call. -/
theorem exists_frame_of_belongsTo {log : RawLog} {k : Nat}
    (h : BelongsTo result.innerCalls log k) :
    ∃ frame, (decodeFrames registry chain call result)[k]? = some frame := by
  have inside : k < (decodeFrames registry chain call result).length := by
    rw [length_decodeFrames]
    exact Nat.lt_succ_of_le h.le
  exact ⟨_, List.getElem?_eq_getElem inside⟩

/-- A call of the walk is the decoded call of its number with the logs of that number. -/
theorem getElem?_walk_eq (k : Nat) :
    (decodeRun registry chain call result).root.walk[k]? =
      (decodeFrames registry chain call result)[k]?.map fun frame =>
        { frame with
          logs := ((numberedLogs registry chain call result).filter fun l => l.1 == k).map
            Prod.snd } := by
  rw [walk_decodeRun, getElem?_attachLogs]
  rfl

/-- A log is decoded at the depth of the call whose number it has. -/
theorem getElem?_numberedLogs {i k : Nat} {log : RawLog} {frame : DecodedFrame}
    (here : result.logs[i]? = some log) (belongs : BelongsTo result.innerCalls log k)
    (emitter : (decodeFrames registry chain call result)[k]? = some frame) :
    (numberedLogs registry chain call result)[i]? = some (k,
      decodeLog registry chain log (log.logIndex.getD (UInt64.ofNat i)) frame.depth) := by
  obtain rfl := belongsTo_iff.mp belongs
  rw [numberedLogs, getElem?_decodeLogs, here, Option.map_some, emitter]
  rfl

/-- The logs of all calls are all logs. -/
theorem flatMap_logs_walk_perm :
    ((decodeRun registry chain call result).root.walk.flatMap DecodedFrame.logs).Perm
      (decodeRun registry chain call result).logs := by
  have given : ((decodeRun registry chain call result).root.walk.flatMap DecodedFrame.logs) =
      ((List.range (result.innerCalls.length + 1)).flatMap fun k =>
        (numberedLogs registry chain call result).filter fun l => l.1 == k).map Prod.snd := by
    rw [walk_decodeRun, attachLogs, List.flatMap_map, List.map_flatMap, ← length_decodeFrames
      registry chain call, List.range_eq_range', ← List.zipIdx_map_snd, List.flatMap_map]
    rfl
  have inside : (numberedLogs registry chain call result).filter
      (fun l => l.1 < result.innerCalls.length + 1) = numberedLogs registry chain call result := by
    apply List.filter_eq_self.mpr
    intro numbered mem
    obtain ⟨i, here⟩ := List.getElem?_of_mem mem
    obtain ⟨log, _, belongs⟩ := (exists_decodeLogs_iff registry chain _ _ _).mp ⟨numbered.2, here⟩
    exact decide_eq_true (Nat.lt_succ_of_le belongs.le)
  rw [given, logs_decodeRun]
  conv => rhs; rw [← inside]
  exact (flatMap_filter_perm _ _).map _

/-- The logs of a decoded run are those of its trace: each in its place, and in the call that it
belongs to. -/
structure Attributes (run : DecodedExecution) : Prop where
  length : run.logs.length = result.logs.length
  /-- Each log belongs to one call of the run. -/
  one : ∀ log, ∃ k ≤ result.innerCalls.length, ∀ j, BelongsTo result.innerCalls log j ↔ j = k
  decoded : ∀ i log k, result.logs[i]? = some log → BelongsTo result.innerCalls log k →
    ∃ frame, run.root.walk[k]? = some frame ∧ run.logs[i]? = some
      (decodeLog registry chain log (log.logIndex.getD (UInt64.ofNat i)) frame.depth)
  own : ∀ k frame, run.root.walk[k]? = some frame →
    Picks (fun i => ∃ log, result.logs[i]? = some log ∧ BelongsTo result.innerCalls log k)
      run.logs frame.logs
  depth : ∀ frame ∈ run.root.walk, ∀ log ∈ frame.logs, log.callDepth = frame.depth
  all : (run.root.walk.flatMap DecodedFrame.logs).Perm run.logs

/-- Whatever calls a trace's logs name and whoever emitted them, each is attributed to one call
of the tree. -/
theorem decodeRun_attributes :
    Attributes registry chain result (decodeRun registry chain call result) where
  length := by
    simp only [logs_decodeRun, numberedLogs, decodeLogs, List.length_map, List.length_zipIdx]
  one log := ⟨frameOf result.innerCalls log, (belongsTo_frameOf _ log).le, fun _ => belongsTo_iff⟩
  decoded i log k here belongs := by
    obtain ⟨frame, emitter⟩ := exists_frame_of_belongsTo registry chain call result belongs
    refine ⟨_, by rw [getElem?_walk_eq, emitter, Option.map_some], ?_⟩
    rw [logs_decodeRun, List.getElem?_map,
      getElem?_numberedLogs registry chain call result here belongs emitter]
    rfl
  own k frame emitter := by
    rw [getElem?_walk_eq] at emitter
    obtain ⟨bare, _, rfl⟩ := Option.map_eq_some_iff.mp emitter
    have picked := picks_filter (numberedLogs registry chain call result) k
    simp only [numberedLogs, exists_decodeLogs_iff] at picked
    exact picked
  depth frame mem log own := by
    obtain ⟨k, emitter⟩ := List.getElem?_of_mem mem
    rw [getElem?_walk_eq] at emitter
    obtain ⟨bare, at_k, rfl⟩ := Option.map_eq_some_iff.mp emitter
    obtain ⟨numbered, kept, rfl⟩ := List.mem_map.mp own
    obtain ⟨mem, same⟩ := List.mem_filter.mp kept
    obtain ⟨i, here⟩ := List.getElem?_of_mem mem
    obtain ⟨raw, there, belongs⟩ :=
      (exists_decodeLogs_iff registry chain _ _ _).mp ⟨numbered.2, here⟩
    obtain rfl : numbered.1 = k := beq_iff_eq.mp same
    rw [getElem?_numberedLogs registry chain call result there belongs at_k] at here
    rw [← Option.some.inj here]
    rfl
  all := flatMap_logs_walk_perm registry chain call result

end EvmInspect.Trace
