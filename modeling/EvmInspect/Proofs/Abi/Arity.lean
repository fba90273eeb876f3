import EvmInspect.Abi.Log

/-!
# How many values are decoded

Decoding parameters gives one value for each type or fails (`length_decodeParams`). Of an event
the indexed values are as many as the indexed parameters, and so are those in the data
(`Event.yieldsEach`), unless the event keeps nothing in its data but parameters that take no
bytes: of these no values are given at all. `Event.YieldsEach` is the property that this
exception lacks; where it holds, the values stand for the parameters one by one
(`Event.length_interleave`).
-/

namespace EvmInspect.Abi

theorem length_resolveAll? {ps : List Param} {ts : List Ty}
    (resolved : Param.resolveAll? ps = some ts) : ts.length = ps.length := by
  induction ps generalizing ts with
  | nil =>
    rw [Param.resolveAll?] at resolved
    cases resolved
    rfl
  | cons p ps ih =>
    rw [Param.resolveAll?] at resolved
    cases first : Param.resolve? p with
    | none => simp [first] at resolved
    | some t =>
      cases rest : Param.resolveAll? ps with
      | none => simp [first, rest] at resolved
      | some ts' =>
        simp only [first, rest, Option.some.injEq] at resolved
        rw [← resolved, List.length_cons, List.length_cons, ih rest]

theorem length_readParams {ts : List Ty} {c : Cursor} {vs : List Value}
    (decoded : readParams ts c = some vs) : vs.length = ts.length := by
  induction ts generalizing c vs with
  | nil =>
    cases decoded
    rfl
  | cons t ts ih =>
    have counted : ∀ {v : Value} {c : Cursor}, (readParams ts c).map (v :: ·) = some vs →
        vs.length = (t :: ts).length := by
      intro v c mapped
      obtain ⟨rest, later, rfl⟩ := Option.map_eq_some_iff.mp mapped
      rw [List.length_cons, List.length_cons, ih later]
    unfold readParams at decoded
    split at decoded
    · exact counted decoded
    · split at decoded
      · split at decoded
        · exact counted decoded
        · cases decoded
      · cases decoded

/-- Parameters are decoded all or not at all. -/
theorem length_decodeParams {ts : List Ty} {data : Bytes} {vs : List Value}
    (decoded : decodeParams ts data = some vs) : vs.length = ts.length :=
  length_readParams decoded

theorem length_readAll {ts : List Ty} {c c' : Cursor} {vs : List Value}
    (decoded : readAll ts c = some (vs, c')) : vs.length = ts.length := by
  induction ts generalizing c c' vs with
  | nil =>
    rw [readAll] at decoded
    cases decoded
    rfl
  | cons t ts ih =>
    rw [readAll] at decoded
    cases first : read t c with
    | none => simp [first] at decoded
    | some p =>
      obtain ⟨v, m⟩ := p
      cases rest : readAll ts m with
      | none => simp [first, rest] at decoded
      | some p =>
        obtain ⟨vs', m'⟩ := p
        simp only [first, rest, Option.some.injEq, Prod.mk.injEq] at decoded
        rw [← decoded.1, List.length_cons, List.length_cons, ih rest]

namespace Event

/-- The values that are decoded are as many as the parameters they are decoded for. -/
def YieldsEach (e : Event) : Prop :=
  ∀ topics data indexed body, e.decode? topics data = some (indexed, body) →
    indexed.length = (e.inputs.filter Param.indexed).length ∧
      body.length = (e.inputs.filter fun p => !p.indexed).length

theorem length_valueTopics? {e : Event} {topics values : List Hash}
    (given : e.valueTopics? topics = some values) : values.length = e.indexedCount := by
  unfold valueTopics? at given
  cases anonymous : e.anonymous with
  | true =>
    simp only [anonymous, if_true, Nat.add_zero] at given
    by_cases many : 4 < e.indexedCount
    · simp [many] at given
    · by_cases fits : topics.length = e.indexedCount
      · simp only [if_neg many, fits, ne_eq, not_true_eq_false, if_false,
          Option.some.injEq] at given
        rw [← given, fits]
      · simp [many, fits] at given
  | false =>
    simp only [anonymous, Bool.false_eq_true, if_false] at given
    by_cases many : 4 < e.indexedCount + 1
    · simp [many] at given
    · by_cases fits : topics.length = e.indexedCount + 1
      · cases topics with
        | nil => cases fits
        | cons topic rest =>
          by_cases announced : topic = e.topic
          · simp only [if_neg many, fits, ne_eq, not_true_eq_false, if_false,
              if_pos announced, Option.some.injEq] at given
            rw [← given]
            exact Nat.succ.inj fits
          · simp [many, fits, announced] at given
      · simp [many, fits] at given

/-- An event that keeps anything in its data keeps something there that takes bytes. -/
def KeepsBytes (e : Event) : Prop :=
  ∀ types, Param.resolveAll? (e.inputs.filter fun p => !p.indexed) = some types →
    Ty.allEmpty types = true → types = []

theorem yieldsEach {e : Event} (keeps : e.KeepsBytes) : e.YieldsEach := by
  intro topics data indexed body decoded
  unfold decode? at decoded
  split at decoded
  · rename_i indexedTypes bodyTypes inTopics inData
    cases given : e.valueTopics? topics with
    | none => simp [given] at decoded
    | some values =>
      cases read : decodeBody bodyTypes data with
      | none => simp [given, read] at decoded
      | some vs =>
        simp only [given, read, Option.some.injEq, Prod.mk.injEq] at decoded
        obtain ⟨rfl, rfl⟩ := decoded
        constructor
        · rw [List.length_zipWith, length_resolveAll? inTopics, length_valueTopics? given]
          exact Nat.min_self _
        · rw [← length_resolveAll? inData]
          unfold decodeBody at read
          split at read
          · rename_i nothing
            cases read
            have none := keeps bodyTypes inData nothing
            subst none
            rfl
          · split at read
            · obtain ⟨⟨vs, c⟩, all, rfl⟩ := Option.map_eq_some_iff.mp read
              exact length_readAll all
            · cases read
  · cases decoded

end Event

/-- With a value for every parameter, each has one in the order of declaration. -/
theorem length_interleave {ps : List Param} {indexed body : List Value}
    (inTopics : indexed.length = (ps.filter Param.indexed).length)
    (inData : body.length = (ps.filter fun p => !p.indexed).length) :
    (interleave ps indexed body).length = ps.length := by
  induction ps generalizing indexed body with
  | nil => rfl
  | cons p ps ih =>
    unfold interleave
    cases place : p.indexed with
    | true =>
      simp only [List.filter_cons, place, if_true, List.length_cons, Bool.not_true,
        Bool.false_eq_true, if_false] at inTopics inData
      cases indexed with
      | nil => cases inTopics
      | cons v indexed => rw [List.length_cons, List.length_cons, ih (Nat.succ.inj inTopics) inData]
    | false =>
      simp only [List.filter_cons, place, if_true, List.length_cons, Bool.not_false,
        Bool.false_eq_true, if_false] at inTopics inData
      cases body with
      | nil => cases inData
      | cons v body => rw [List.length_cons, List.length_cons, ih inTopics (Nat.succ.inj inData)]

end EvmInspect.Abi
