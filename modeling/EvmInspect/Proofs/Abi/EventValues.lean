import EvmInspect.Proofs.Abi.Arity
import EvmInspect.Proofs.Abi.ReadBack

/-!
# The values of an event in order

The parameters of an event are split in two: those in topics and those in the data. What there is
for each parameter, its type or its value, is split with them (`Param.pick`), and interleaving
undoes the split whatever the order in which the two kinds are declared (`interleave_pick`,
`pick_interleave`).

So where topics and data are the encoding of arguments (`Event.Encodes`), decoding them gives the
two parts of the arguments (`Event.decode?_eq`), as long as none of them needs more frames than the
decoder opens. Those in topics need none.
-/

namespace EvmInspect.Abi

/-! ## Splitting and interleaving -/

section Pick

variable {α : Type} {place : Bool} {keep : Param → Bool}

/-- Of what there is for parameters one by one, the part for those that are indexed, or for those
that are not. -/
def Param.pick (place : Bool) : List Param → List α → List α
  | p :: ps, x :: xs => if p.indexed = place then x :: pick place ps xs else pick place ps xs
  | _, _ => []

theorem Param.pick_cons (p : Param) (ps : List Param) (x : α) (xs : List α) :
    pick place (p :: ps) (x :: xs) =
      if p.indexed = place then x :: pick place ps xs else pick place ps xs := rfl

theorem Param.mem_of_mem_pick {ps : List Param} {xs : List α} {x : α} (mem : x ∈ pick place ps xs) :
    x ∈ xs := by
  induction ps generalizing xs with
  | nil => cases mem
  | cons p ps ih =>
    cases xs with
    | nil => cases mem
    | cons y ys =>
      rw [pick_cons] at mem
      split at mem
      · rcases List.mem_cons.mp mem with rfl | later
        · exact List.mem_cons_self
        · exact List.mem_cons_of_mem _ (ih later)
      · exact List.mem_cons_of_mem _ (ih mem)

theorem Param.length_pick (keeps : ∀ p : Param, keep p = true ↔ p.indexed = place)
    {ps : List Param} {xs : List α} (each : xs.length = ps.length) :
    (pick place ps xs).length = (ps.filter keep).length := by
  induction ps generalizing xs with
  | nil => rfl
  | cons p ps ih =>
    cases xs with
    | nil => cases each
    | cons x xs =>
      rw [pick_cons, List.filter_cons]
      simp only [keeps]
      split
      · rw [List.length_cons, List.length_cons, ih (Nat.succ.inj each)]
      · exact ih (Nat.succ.inj each)

/-- The types of some of the parameters are some of the types. -/
theorem resolveAll?_filter (keeps : ∀ p : Param, keep p = true ↔ p.indexed = place)
    {ps : List Param} {types : List Ty} (resolved : Param.resolveAll? ps = some types) :
    Param.resolveAll? (ps.filter keep) = some (Param.pick place ps types) := by
  induction ps generalizing types with
  | nil => rfl
  | cons p ps ih =>
    rw [Param.resolveAll?] at resolved
    cases first : p.resolve? with
    | none => simp [first] at resolved
    | some t =>
      cases rest : Param.resolveAll? ps with
      | none => simp [first, rest] at resolved
      | some ts =>
        simp only [first, rest, Option.some.injEq] at resolved
        subst resolved
        rw [Param.pick_cons, List.filter_cons]
        simp only [keeps]
        split
        · simp only [Param.resolveAll?, first, ih rest]
        · exact ih rest

theorem admitsAll_pick {ps : List Param} {types : List Ty} {values : List Value}
    (admits : Ty.admitsAll types values = true) :
    Ty.admitsAll (Param.pick place ps types) (Param.pick place ps values) = true := by
  induction ps generalizing types values with
  | nil => rfl
  | cons p ps ih =>
    cases types with
    | nil =>
      cases values with
      | nil => rfl
      | cons v values => simp [Ty.admitsAll] at admits
    | cons t types =>
      cases values with
      | nil => simp [Ty.admitsAll] at admits
      | cons v values =>
        rw [Ty.admitsAll, Bool.and_eq_true] at admits
        rw [Param.pick_cons, Param.pick_cons]
        split
        · rw [Ty.admitsAll, Bool.and_eq_true]
          exact ⟨admits.1, ih admits.2⟩
        · exact ih admits.2

theorem interleave_cons_indexed {p : Param} (place : p.indexed = true) (ps : List Param) (v : Value)
    (indexed body : List Value) :
    interleave (p :: ps) (v :: indexed) body = v :: interleave ps indexed body := by
  simp only [interleave, place]

theorem interleave_cons_body {p : Param} (place : p.indexed = false) (ps : List Param) (v : Value)
    (indexed body : List Value) :
    interleave (p :: ps) indexed (v :: body) = v :: interleave ps indexed body := by
  simp only [interleave, place]

/-- Interleaving puts values together again that were split. -/
theorem interleave_pick {ps : List Param} {values : List Value}
    (each : values.length = ps.length) :
    interleave ps (Param.pick true ps values) (Param.pick false ps values) = values := by
  induction ps generalizing values with
  | nil => exact (List.eq_nil_of_length_eq_zero each).symm
  | cons p ps ih =>
    cases values with
    | nil => cases each
    | cons v values =>
      have rest := ih (Nat.succ.inj each)
      cases place : p.indexed with
      | true =>
        simp only [Param.pick_cons, place, if_true, Bool.true_eq_false, if_false]
        rw [interleave_cons_indexed place, rest]
      | false =>
        simp only [Param.pick_cons, place, if_true, Bool.false_eq_true, if_false]
        rw [interleave_cons_body place, rest]

/-- With a value for every parameter, the indexed ones have the indexed values in order, and the
others those of the body. -/
theorem pick_interleave {ps : List Param} {indexed body : List Value}
    (inTopics : indexed.length = (ps.filter Param.indexed).length)
    (inData : body.length = (ps.filter fun p => !p.indexed).length) :
    Param.pick true ps (interleave ps indexed body) = indexed ∧
      Param.pick false ps (interleave ps indexed body) = body := by
  induction ps generalizing indexed body with
  | nil => exact ⟨(List.eq_nil_of_length_eq_zero inTopics).symm,
      (List.eq_nil_of_length_eq_zero inData).symm⟩
  | cons p ps ih =>
    cases place : p.indexed with
    | true =>
      simp only [List.filter_cons, place, if_true, List.length_cons, Bool.not_true,
        Bool.false_eq_true, if_false] at inTopics inData
      cases indexed with
      | nil => cases inTopics
      | cons v indexed =>
        obtain ⟨first, second⟩ := ih (Nat.succ.inj inTopics) inData
        rw [interleave_cons_indexed place]
        simp only [Param.pick_cons, place, if_true, Bool.true_eq_false, if_false, first, second,
          and_self]
    | false =>
      simp only [List.filter_cons, place, if_true, List.length_cons, Bool.not_false,
        Bool.false_eq_true, if_false] at inTopics inData
      cases body with
      | nil => cases inData
      | cons v body =>
        obtain ⟨first, second⟩ := ih inTopics (Nat.succ.inj inData)
        rw [interleave_cons_body place]
        simp only [Param.pick_cons, place, if_true, Bool.false_eq_true, if_false, first, second,
          and_self]

end Pick

/-! ## Topics -/

/-- A value of a word type is read from the topic that is its word. -/
theorem ofTopic_encode {t : Ty} {v : Value} {topic : Hash} (isWord : t.isWord = true)
    (regular : t.regular = true) (admits : t.admits v = true)
    (written : topic.bytes = encode t v) : ofTopic t topic = v := by
  obtain ⟨w, word, value⟩ :=
    exists_word_encode isWord (Ty.sized_of_isWord isWord regular) admits
  rw [ofTopic, Hash.toWord, written, word, Word.ofBytes_toBytes, value]

/-- Values of word types are read from the topics that are their words. -/
theorem zipWith_ofTopic {types : List Ty} {values : List Value} {topics : List Hash}
    (words : ∀ t ∈ types, t.isWord = true ∧ t.regular = true)
    (admits : Ty.admitsAll types values = true)
    (written : topics.map Hash.bytes = List.zipWith encode types values) :
    List.zipWith ofTopic types topics = values := by
  induction types generalizing values topics with
  | nil =>
    cases values with
    | nil => rfl
    | cons v values => simp [Ty.admitsAll] at admits
  | cons t types ih =>
    cases values with
    | nil => simp [Ty.admitsAll] at admits
    | cons v values =>
      cases topics with
      | nil => cases written
      | cons topic topics =>
        obtain ⟨⟨isWord, regular⟩, later⟩ := List.forall_mem_cons.mp words
        rw [Ty.admitsAll, Bool.and_eq_true] at admits
        rw [List.map_cons, List.zipWith_cons_cons, List.cons.injEq] at written
        rw [List.zipWith_cons_cons, ofTopic_encode isWord regular admits.1 written.1,
          ih later admits.2 written.2]

/-- Values of word types are read without opening a frame. -/
theorem deepest_framesAll_pick {ps : List Param} {types : List Ty} {values : List Value}
    (typed : types.length = ps.length) (each : values.length = ps.length)
    (words : ∀ t ∈ Param.pick true ps types, t.isWord = true) :
    deepest (Ty.framesAll (Param.pick false ps types) (Param.pick false ps values)) =
      deepest (Ty.framesAll types values) := by
  induction ps generalizing types values with
  | nil =>
    rw [List.eq_nil_of_length_eq_zero typed, List.eq_nil_of_length_eq_zero each]
    rfl
  | cons p ps ih =>
    cases types with
    | nil => cases typed
    | cons t types =>
      cases values with
      | nil => cases each
      | cons v values =>
        cases place : p.indexed with
        | true =>
          simp only [Param.pick_cons, place, if_true] at words
          obtain ⟨isWord, others⟩ := List.forall_mem_cons.mp words
          simp only [Param.pick_cons, place, Bool.true_eq_false, if_false]
          rw [ih (Nat.succ.inj typed) (Nat.succ.inj each) others, Ty.framesAll,
            Ty.frames_of_isWord isWord]
          exact (Nat.zero_max _).symm
        | false =>
          simp only [Param.pick_cons, place, Bool.false_eq_true, if_false] at words
          simp only [Param.pick_cons, place, if_true, Ty.framesAll, deepest, List.foldr_cons]
          exact congrArg (max (t.frames v)) (ih (Nat.succ.inj typed) (Nat.succ.inj each) words)

/-! ## Decoding -/

/-- Topics and data are the encoding of arguments of an event: behind the topic that announces the
event the words of those that are indexed, and in the data the encoding of the others. -/
structure Event.Encodes (e : Event) (types : List Ty) (arguments : List Value)
    (topics : List Hash) (data : Bytes) : Prop where
  announced : e.anonymous = false
  few : e.indexedCount ≤ 3
  resolved : Param.resolveAll? e.inputs = some types
  admitted : Ty.admitsAll types arguments = true
  words : ∀ t ∈ Param.pick true e.inputs types, t.isWord = true
  inTopics : ∃ rest, topics = e.topic :: rest ∧ rest.map Hash.bytes =
    List.zipWith encode (Param.pick true e.inputs types) (Param.pick true e.inputs arguments)
  inData : data = encodeParams (Param.pick false e.inputs types) (Param.pick false e.inputs arguments)
  short : data.length < UInt64.size

/-- Nothing is lost because it takes no bytes: neither items of an array nor all that an event keeps
in its data. -/
structure Event.Keeps (e : Event) (types : List Ty) : Prop where
  items : Ty.allRegular types = true
  bytes : e.KeepsBytes

namespace Event

variable {e : Event} {types : List Ty} {arguments : List Value} {topics : List Hash} {data : Bytes}

theorem keepsBytes_of_resolved {inData : List Ty}
    (others : Param.resolveAll? (e.inputs.filter fun p => !p.indexed) = some inData)
    (some : Ty.allEmpty inData = true → inData = []) : e.KeepsBytes := by
  intro resolved same
  cases others.symm.trans same
  exact some

theorem valueTopics?_announced {rest : List Hash} (announced : e.anonymous = false)
    (few : e.indexedCount ≤ 3) (each : rest.length = e.indexedCount) :
    e.valueTopics? (e.topic :: rest) = some rest := by
  have most : ¬ 4 < e.indexedCount + 1 := by omega
  have exact : ¬ (e.topic :: rest).length ≠ e.indexedCount + 1 := by
    rw [List.length_cons, each]
    exact not_not_intro rfl
  simp only [valueTopics?, announced, Bool.false_eq_true, if_false, if_neg most, if_neg exact,
    if_true]

/-- Encoded arguments are decoded, up to sixteen frames deep, into those that are indexed and
those that are not. -/
theorem decode?_eq (h : e.Encodes types arguments topics data) (keeps : e.Keeps types) :
    e.decode? topics data =
      if deepest (Ty.framesAll types arguments) ≤ Cursor.maxDepth then
        some (Param.pick true e.inputs arguments, Param.pick false e.inputs arguments)
      else none := by
  have typed := length_resolveAll? h.resolved
  have each : arguments.length = e.inputs.length := (length_of_admitsAll h.admitted).trans typed
  have regular : ∀ {place}, Ty.allRegular (Param.pick place e.inputs types) = true :=
    Ty.allRegular_iff.mpr fun t mem =>
      Ty.allRegular_iff.mp keeps.items t (Param.mem_of_mem_pick mem)
  have indexed : Param.resolveAll? (e.inputs.filter Param.indexed) =
      some (Param.pick true e.inputs types) := resolveAll?_filter (fun _ => Iff.rfl) h.resolved
  have others : Param.resolveAll? (e.inputs.filter fun p => !p.indexed) =
      some (Param.pick false e.inputs types) :=
    resolveAll?_filter (fun _ => by rw [Bool.not_eq_true']) h.resolved
  have body := decodeBody_encodeParams regular (keeps.bytes _ others)
    (admitsAll_pick h.admitted) (h.inData ▸ h.short)
  rw [← h.inData, deepest_framesAll_pick typed each h.words] at body
  obtain ⟨rest, rfl, written⟩ := h.inTopics
  have words := zipWith_ofTopic
    (fun t mem => ⟨h.words t mem, Ty.allRegular_iff.mp regular t mem⟩)
    (admitsAll_pick h.admitted) written
  have counted : rest.length = e.indexedCount := by
    have lengths := congrArg List.length written
    rw [List.length_map, List.length_zipWith, Param.length_pick (fun _ => Iff.rfl) typed,
      Param.length_pick (fun _ => Iff.rfl) each, Nat.min_self] at lengths
    exact lengths
  have given := valueTopics?_announced h.announced h.few counted
  by_cases fits : deepest (Ty.framesAll types arguments) ≤ Cursor.maxDepth
  · rw [if_pos fits] at body ⊢
    simp only [decode?, indexed, others, given, body, words]
  · rw [if_neg fits] at body ⊢
    simp only [decode?, indexed, others, given, body]

end Event

end EvmInspect.Abi
