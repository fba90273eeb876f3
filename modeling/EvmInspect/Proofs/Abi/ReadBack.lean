import EvmInspect.Proofs.Abi.Layout
import EvmInspect.Proofs.Text.Utf8

/-!
# Encoded values are read back

The decoder gets each value back from its encoding as long as no more than sixteen frames are
open at once; with more it gives nothing (`decodeParams_encodeParams`). How many are needed
depends on the value: `Ty.frames` counts them along its nesting. `Cursor.gives` is what a reader
that needs so many then answers, so that one statement has both outcomes.

Where an encoding stands is a matter of its type: in place, or in the same frame behind an
offset (`Cursor.Holds`). `readInFrame_holds` reads a frame in either place. Members that are laid
out from a cursor on (`Cursor.Stands`) are read one by one, the rest being laid out behind the
head of the first (`Cursor.stands_cons`), and `readsBack_of_fits` puts these together by
induction on the value. Only the parameters of a call are looked at for length before each is
read; no encoding is shorter than is asked for there. The data of an event is not looked at in this
way, and it is not read at all if none of its types takes bytes (`decodeBody_encodeParams`).
-/

namespace EvmInspect.Abi

/-! ## Frames inside frames -/

/-- The greatest of some numbers. -/
def deepest (depths : List Nat) : Nat := depths.foldr max 0

mutual

/-- How many frames are open at once where a value of a type is read. A byte string is in a
frame of its own, and the items of an array are in one inside the frame of its length. -/
def Ty.frames : Ty → Value → Nat
  | .bytes, _ => 1
  | .string, _ => 1
  | .array t, .array vs => if vs.isEmpty then 1 else 2 + deepest (vs.map (Ty.frames t))
  | .fixedArray t _, .array vs => 1 + deepest (vs.map (Ty.frames t))
  | .tuple ts, .tuple vs => 1 + deepest (Ty.framesAll ts vs)
  | _, _ => 0

/-- The same for each value of a list. -/
def Ty.framesAll : List Ty → List Value → List Nat
  | t :: ts, v :: vs => Ty.frames t v :: Ty.framesAll ts vs
  | _, _ => []

end

def Member.frames (m : Member) : Nat := m.1.frames m.2

theorem framesAll_eq (members : List Member) :
    Ty.framesAll (members.map Prod.fst) (members.map Prod.snd) = members.map Member.frames := by
  induction members with
  | nil => rfl
  | cons m rest ih => simp only [List.map_cons, Ty.framesAll, ih, Member.frames]

namespace Cursor

/-- An encoding stands where the cursor points, followed by `rest`: in place, or further on in
the frame, under an offset. -/
inductive Holds (c : Cursor) (encoding rest : Bytes) : (dynamic : Bool) → Prop
  | here : c.rest = encoding ++ rest → Holds c encoding rest false
  | away {before after} : c.rest = wordOf before.length ++ rest →
      before.length < UInt64.size → c.frame = before ++ (encoding ++ after) →
      Holds c encoding rest true

/-- What reading gives that opens so many frames inside the present one, one in another. -/
def gives {α : Type} (c : Cursor) (frames : Nat) (v : α) (rest : Bytes) : Option (α × Cursor) :=
  if c.depth + frames ≤ maxDepth then some (v, { c with rest }) else none

variable {c : Cursor} {rest : Bytes}

theorem take?_append {bs : Bytes} (h : c.rest = bs ++ rest) :
    c.take? bs.length = some (bs, { c with rest }) := by
  simp only [take?, h, List.take_left, List.drop_left, if_true]

theorem word?_append {w : Word} (h : c.rest = w.toBytes ++ rest) :
    c.word? = some (w, { c with rest }) := by
  have taken := take?_append h
  rw [Word.length_toBytes] at taken
  simp only [word?, taken, Word.ofBytes_toBytes]

theorem count?_append {n : Nat} (h : c.rest = wordOf n ++ rest) (small : n < UInt64.size) :
    c.count? = some (n, { c with rest }) := by
  have word : (BitVec.ofNat 256 n).toNat = n := toNat_word (Nat.lt_trans small (by decide))
  rw [wordOf_eq] at h
  simp only [count?, word?_append h, word, if_pos small]

/-- Following an offset leads to what it stands for, one frame deeper. -/
theorem follow?_append {before inside : Bytes} (h : c.rest = wordOf before.length ++ rest)
    (small : before.length < UInt64.size) (frame : c.frame = before ++ inside)
    (room : c.depth < maxDepth) :
    c.follow? = some (⟨inside, inside, c.depth + 1⟩, { c with rest }) := by
  have within : before.length ≤ c.frame.length := by
    rw [frame, List.length_append]
    exact Nat.le_add_right _ _
  have there : c.frame.drop before.length = inside := by rw [frame, List.drop_left]
  simp only [follow?, count?_append h small, frameAt?, room, within, and_self, if_true, there]

theorem follow?_eq_none {n : Nat} (h : c.rest = wordOf n ++ rest) (small : n < UInt64.size)
    (full : ¬ c.depth < maxDepth) : c.follow? = none := by
  simp only [follow?, count?_append h small, frameAt?, full, false_and, if_false]

end Cursor

/-! ## What stands in a frame of its own -/

section InFrame

variable {α : Type} {inner : Cursor → Option (α × Cursor)} {encoding : Bytes} {frames : Nat} {v : α}

/-- A reader gets a value from each frame that begins with its encoding, and stands behind it
afterwards if the encoding has no offsets. -/
def ReadsFrame (inner : Cursor → Option (α × Cursor)) (encoding : Bytes) (dynamic : Bool)
    (frames : Nat) (v : α) : Prop :=
  ∀ (inside : Cursor) (after : Bytes), inside.depth ≤ Cursor.maxDepth →
    inside.frame = encoding ++ after → inside.rest = encoding ++ after →
    ∃ rest, inner inside = inside.gives frames v rest ∧ (dynamic = false → rest = after)

section Place

variable {dynamic : Bool} {c : Cursor} {rest : Bytes}

/-- A frame that begins here is read in place. -/
theorem readInFrame_here (reads : ReadsFrame inner encoding dynamic frames v)
    (front : c.rest = encoding ++ rest) :
    ∃ left, readInFrame false inner c = c.gives (1 + frames) v left ∧
      (dynamic = false → left = rest) := by
  simp only [readInFrame, Bool.false_eq_true, if_false, Cursor.frameHere?]
  by_cases room : c.depth < Cursor.maxDepth
  · obtain ⟨left, got, behind⟩ := reads ⟨c.rest, c.rest, c.depth + 1⟩ rest room front front
    refine ⟨left, ?_, behind⟩
    simp only [if_pos room, got, Cursor.gives, Nat.add_assoc c.depth 1 frames]
    by_cases fits : c.depth + (1 + frames) ≤ Cursor.maxDepth
    · simp only [if_pos fits]
    · simp only [if_neg fits]
  · have deep : ¬ c.depth + (1 + frames) ≤ Cursor.maxDepth := by omega
    refine ⟨rest, ?_, fun _ => rfl⟩
    simp only [if_neg room, Cursor.gives, if_neg deep]

/-- A frame is read through the offset under which it stands. -/
theorem readInFrame_away (reads : ReadsFrame inner encoding dynamic frames v)
    (h : c.Holds encoding rest true) :
    readInFrame true inner c = c.gives (1 + frames) v rest := by
  cases h with
  | @away before after front small frame =>
    simp only [readInFrame, if_true]
    by_cases room : c.depth < Cursor.maxDepth
    · obtain ⟨left, got, _⟩ := reads
        ⟨encoding ++ after, encoding ++ after, c.depth + 1⟩ after room rfl rfl
      simp only [Cursor.follow?_append front small frame room, got, Cursor.gives,
        Nat.add_assoc c.depth 1 frames]
      by_cases fits : c.depth + (1 + frames) ≤ Cursor.maxDepth
      · simp only [if_pos fits]
      · simp only [if_neg fits]
    · have deep : ¬ c.depth + (1 + frames) ≤ Cursor.maxDepth := by omega
      simp only [Cursor.follow?_eq_none front small room, Cursor.gives, if_neg deep]

theorem readInFrame_holds (reads : ReadsFrame inner encoding dynamic frames v)
    (h : c.Holds encoding rest dynamic) :
    readInFrame dynamic inner c = c.gives (1 + frames) v rest := by
  cases dynamic with
  | true => exact readInFrame_away reads h
  | false =>
    cases h with
    | here front =>
      obtain ⟨left, got, behind⟩ := readInFrame_here reads front
      rw [got, behind rfl]

end Place

/-- Reads as many bytes as a length in front of them says. -/
def readCounted (c : Cursor) : Option (Bytes × Cursor) :=
  match c.count? with
  | none => none
  | some (length, c) => c.take? length

theorem readBytes_eq (c : Cursor) : readBytes c = readInFrame true readCounted c := by
  simp only [readBytes, readInFrame, if_true]
  cases c.follow? with
  | none => rfl
  | some p =>
    simp only [readCounted]
    cases p.1.count? with
    | none => rfl
    | some q =>
      obtain ⟨length, inside⟩ := q
      cases taken : inside.take? length <;> simp only [taken]

theorem readCounted_encodeBytes {bs : Bytes} (short : bs.length < UInt64.size) :
    ReadsFrame readCounted (encodeBytes bs) true 0 bs := by
  intro inside after shallow _ front
  rw [encodeBytes, List.append_assoc] at front
  have taken : Cursor.take? { inside with rest := padRight bs ++ after } bs.length =
      some (bs, { inside with rest := List.replicate ((32 - bs.length % 32) % 32) 0 ++ after }) :=
    Cursor.take?_append (List.append_assoc _ _ _)
  refine ⟨List.replicate ((32 - bs.length % 32) % 32) 0 ++ after, ?_,
    fun static => Bool.noConfusion static⟩
  simp only [readCounted, Cursor.count?_append front short, taken, Cursor.gives, Nat.add_zero,
    if_pos shallow]

end InFrame

/-! ## Members of a frame -/

section Members

variable {c : Cursor} {rest : Bytes}

/-- Wherever a value's encoding stands, the value is read from it. -/
def Member.ReadsBack (m : Member) : Prop :=
  ∀ (c : Cursor) (rest : Bytes), c.depth ≤ Cursor.maxDepth →
    c.Holds (encode m.1 m.2) rest m.1.isDynamic → read m.1 c = c.gives m.frames m.2 rest

theorem readTimes_eq_readAll (t : Ty) (n : Nat) (c : Cursor) :
    readTimes (read t) n c = readAll (List.replicate n t) c := by
  induction n generalizing c with
  | zero => rw [readTimes, List.replicate_zero, readAll]
  | succ n ih =>
    rw [readTimes, List.replicate_succ, readAll]
    cases read t c with
    | none => rfl
    | some p =>
      simp only [ih]
      cases readAll (List.replicate n t) p.2 <;> rfl

/-- A value and those behind it are read if there is room for the frames of each. -/
theorem readAll_cons {t : Ty} {ts : List Ty} {v : Value} {vs : List Value} {behind : Bytes}
    {own others : Nat} (first : read t c = c.gives own v behind)
    (next : readAll ts { c with rest := behind } =
      Cursor.gives { c with rest := behind } others vs rest) :
    readAll (t :: ts) c = c.gives (max own others) (v :: vs) rest := by
  rw [readAll, first]
  unfold Cursor.gives at next ⊢
  by_cases room : c.depth + own ≤ Cursor.maxDepth
  · simp only [if_pos room, next]
    by_cases roomBehind : c.depth + others ≤ Cursor.maxDepth
    · have both : c.depth + max own others ≤ Cursor.maxDepth := by omega
      simp only [if_pos roomBehind, if_pos both]
    · have deep : ¬ c.depth + max own others ≤ Cursor.maxDepth := by omega
      simp only [if_neg roomBehind, if_neg deep]
  · have deep : ¬ c.depth + max own others ≤ Cursor.maxDepth := by omega
    simp only [if_neg room, if_neg deep]

/-- Members are laid out from the cursor on: their heads stand here, and what the offsets in
them point to, further on in the frame. -/
def Cursor.Stands (c : Cursor) (members : List Member) (rest : Bytes) : Prop :=
  ∃ before after, c.rest = (layOut before.length (members.map Member.part)).1 ++ rest ∧
    c.frame = before ++ ((layOut before.length (members.map Member.part)).2 ++ after) ∧
    before.length + (layOut before.length (members.map Member.part)).2.length < UInt64.size ∧
    (layOut before.length (members.map Member.part)).2.length ≤ rest.length

theorem Cursor.stands_nil (h : c.Stands [] rest) : c.rest = rest := by
  obtain ⟨_, _, heads, _⟩ := h
  exact heads

/-- The first of the members is here, and the others are laid out behind its head. -/
theorem Cursor.stands_cons {m : Member} {members : List Member} (h : c.Stands (m :: members) rest) :
    ∃ behind, c.Holds (encode m.1 m.2) behind m.1.isDynamic ∧
      Cursor.Stands { c with rest := behind } members rest ∧
      (encode m.1 m.2).length ≤ c.rest.length := by
  obtain ⟨before, after, heads, tails, short, present⟩ := h
  rw [List.map_cons, Member.part] at heads tails short present
  cases dynamic : m.1.isDynamic with
  | false =>
    simp only [dynamic, layOut, Bool.false_eq_true, if_false, List.append_assoc]
      at heads tails short present
    refine ⟨_, .here heads, ⟨before, after, rfl, tails, short, present⟩, ?_⟩
    rw [heads, List.length_append]
    exact Nat.le_add_right _ _
  | true =>
    simp only [dynamic, layOut, if_true, List.append_assoc, List.length_append]
      at heads tails short present
    have moved : before.length + (encode m.1 m.2).length =
        (before ++ encode m.1 m.2).length := List.length_append.symm
    have holds := Holds.away heads (by omega) tails
    rw [← List.append_assoc before, moved] at tails
    rw [← Nat.add_assoc, moved] at short
    rw [moved] at holds present
    refine ⟨_, holds, ⟨_, after, rfl, tails, short, by omega⟩, ?_⟩
    rw [heads, List.length_append, List.length_append]
    omega

/-- At the start of a frame its members are laid out, before what their offsets point to. -/
theorem Cursor.stands_encodeFrame {members : List Member} {after : Bytes}
    (short : (encodeFrame (members.map Member.part)).length < UInt64.size)
    (frame : c.frame = encodeFrame (members.map Member.part) ++ after)
    (front : c.rest = encodeFrame (members.map Member.part) ++ after) :
    c.Stands members
      ((layOut (headsLength (members.map Member.part)) (members.map Member.part)).2 ++ after) := by
  have size := length_heads (headsLength (members.map Member.part)) (members.map Member.part)
  rw [length_encodeFrame, ← length_layOut (headsLength (members.map Member.part)), size] at short
  rw [encodeFrame, List.append_assoc] at frame front
  refine ⟨(layOut (headsLength (members.map Member.part)) (members.map Member.part)).1, after, ?_⟩
  rw [size]
  refine ⟨front, frame, short, ?_⟩
  rw [List.length_append]
  exact Nat.le_add_right _ _

/-- Members that are laid out are read back one after the other. -/
theorem readAll_stands {members : List Member} (each : ∀ m ∈ members, m.ReadsBack)
    (shallow : c.depth ≤ Cursor.maxDepth) (h : c.Stands members rest) :
    readAll (members.map Prod.fst) c =
      c.gives (deepest (members.map Member.frames)) (members.map Prod.snd) rest := by
  induction members generalizing c with
  | nil =>
    have front := Cursor.stands_nil h
    subst front
    simp only [List.map_nil, readAll, Cursor.gives, deepest, List.foldr_nil, Nat.add_zero,
      if_pos shallow]
  | cons m members ih =>
    obtain ⟨now, later⟩ := List.forall_mem_cons.mp each
    obtain ⟨behind, holds, stands, _⟩ := Cursor.stands_cons h
    exact readAll_cons (now c behind shallow holds) (ih later shallow stands)

/-- A frame is read back if its members are. -/
theorem readAll_encodeFrame {members : List Member} (each : ∀ m ∈ members, m.ReadsBack)
    (short : (encodeFrame (members.map Member.part)).length < UInt64.size) :
    ReadsFrame (readAll (members.map Prod.fst)) (encodeFrame (members.map Member.part))
      ((members.map Member.part).any Prod.fst) (deepest (members.map Member.frames))
      (members.map Prod.snd) := by
  intro inside after shallow frame front
  refine ⟨_, readAll_stands each shallow (Cursor.stands_encodeFrame short frame front), ?_⟩
  intro static
  rw [List.any_eq_false] at static
  rw [tails_eq_nil (fun part mem => Bool.eq_false_iff.mpr (static part mem)), List.nil_append]

/-- Reads a number and then, in a frame of their own, so many values. -/
def readItems (elementWords : Nat) (read : Cursor → Option (Value × Cursor)) (c : Cursor) :
    Option (List Value × Cursor) :=
  match c.count? with
  | none => none
  | some (length, c) =>
    if length = 0 ∨ elementWords = 0 then some ([], c)
    else
      readInFrame false
        (fun items =>
          if length * elementWords ≤ items.wordsLeft then readTimes read length items else none) c

theorem readList_eq (elementWords : Nat) (read : Cursor → Option (Value × Cursor)) (c : Cursor) :
    readList elementWords read c = readInFrame true (readItems elementWords read) c := by
  simp only [readList, readInFrame, if_true, readItems, Bool.false_eq_true, if_false]
  cases c.follow? with
  | none => rfl
  | some p =>
    simp only
    cases p.1.count? with
    | none => rfl
    | some q =>
      simp only
      split
      next => rfl
      next =>
        cases q.2.frameHere? with
        | none => rfl
        | some items =>
          simp only
          split
          next =>
            cases readTimes read q.1 items with
            | none => rfl
            | some r => rfl
          next => rfl

/-- The items of a list are in a frame behind their number. -/
theorem readItems_encode {t : Ty} {vs : List Value} (positive : 0 < t.minWords)
    (each : ∀ m ∈ itemsOf t vs, m.ReadsBack)
    (words : 32 * (vs.length * t.minWords) ≤
      (encodeFrame ((itemsOf t vs).map Member.part)).length)
    (short : (encode (.array t) (.array vs)).length < UInt64.size) :
    ReadsFrame (readItems t.minWords (read t)) (encode (.array t) (.array vs)) true
      (if vs.isEmpty then 0 else 1 + deepest ((itemsOf t vs).map Member.frames)) vs := by
  intro inside after shallow _ front
  rw [encode_array, List.length_append, length_wordOf] at short
  rw [encode_array, List.append_assoc] at front
  have few : vs.length < UInt64.size := by
    have : vs.length ≤ vs.length * t.minWords := Nat.le_mul_of_pos_right _ positive
    omega
  have counted := Cursor.count?_append front few
  cases vs with
  | nil =>
    refine ⟨encodeFrame ((itemsOf t []).map Member.part) ++ after, ?_,
      fun static => Bool.noConfusion static⟩
    simp only [readItems, counted, List.length_nil, true_or, if_true, List.isEmpty_nil,
      Cursor.gives, Nat.add_zero, if_pos shallow]
  | cons v rest =>
    have items : ¬ ((v :: rest).length = 0 ∨ t.minWords = 0) := by
      rw [List.length_cons]
      omega
    -- there are as many words as the items take at least
    have reads : ReadsFrame (fun items : Cursor =>
          if (v :: rest).length * t.minWords ≤ items.wordsLeft then
            readTimes (read t) (v :: rest).length items else none)
        (encodeFrame ((itemsOf t (v :: rest)).map Member.part))
        (((itemsOf t (v :: rest)).map Member.part).any Prod.fst)
        (deepest ((itemsOf t (v :: rest)).map Member.frames)) (v :: rest) := by
      intro items behind shallow frame front
      have enough : (v :: rest).length * t.minWords ≤ items.wordsLeft := by
        rw [Cursor.wordsLeft, front, List.length_append]
        omega
      have all := readAll_encodeFrame each (by omega) items behind shallow frame front
      rw [map_fst_itemsOf, map_snd_itemsOf, ← readTimes_eq_readAll] at all
      simp only [if_pos enough]
      exact all
    have begins : Cursor.rest { inside with
        rest := encodeFrame ((itemsOf t (v :: rest)).map Member.part) ++ after } =
      encodeFrame ((itemsOf t (v :: rest)).map Member.part) ++ after := rfl
    obtain ⟨left, got, _⟩ := readInFrame_here reads begins
    refine ⟨left, ?_, fun static => Bool.noConfusion static⟩
    simp only [readItems, counted, if_neg items, got, List.isEmpty_cons, Bool.false_eq_true,
      if_false, Cursor.gives]

end Members

/-! ## Values -/

/-- What follows the reading of a value's parts, whether or not there is room for them. -/
theorem Cursor.map_gives {α β : Type} (c : Cursor) (frames : Nat) (v : α) (rest : Bytes)
    (wrap : α → β) :
    (c.gives frames v rest).map (Prod.map wrap id) = c.gives frames (wrap v) rest := by
  unfold Cursor.gives
  by_cases room : c.depth + frames ≤ maxDepth
  · simp only [if_pos room, Option.map_some, Prod.map, id]
  · simp only [if_neg room, Option.map_none]

theorem read_bytes (c : Cursor) : read .bytes c = (readBytes c).map (Prod.map .bytes id) := by
  rw [read]
  cases readBytes c <;> rfl

theorem read_string (c : Cursor) :
    read .string c =
      (readBytes c).map (Prod.map (fun bs => .string (String.ofList (Text.decodeUtf8 bs))) id) := by
  rw [read]
  cases readBytes c <;> rfl

theorem read_array (t : Ty) (c : Cursor) :
    read (.array t) c = (readList t.minWords (read t) c).map (Prod.map .array id) := by
  rw [read]
  cases readList t.minWords (read t) c <;> rfl

theorem read_fixedArray (t : Ty) (n : Nat) (c : Cursor) :
    read (.fixedArray t n) c =
      (readInFrame t.isDynamic (readAll (List.replicate n t)) c).map (Prod.map .array id) := by
  rw [read, funext (readTimes_eq_readAll t n)]
  cases readInFrame t.isDynamic (readAll (List.replicate n t)) c <;> rfl

theorem read_tuple (ts : List Ty) (c : Cursor) :
    read (.tuple ts) c =
      (readInFrame (Ty.anyDynamic ts) (readAll ts) c).map (Prod.map .tuple id) := by
  rw [read]
  cases readInFrame (Ty.anyDynamic ts) (readAll ts) c <;> rfl

theorem read_of_isWord {t : Ty} (h : t.isWord = true) (c : Cursor) : read t c = readWord t c := by
  cases t with
  | bytes => cases h
  | string => cases h
  | array t => cases h
  | fixedArray t n => cases h
  | tuple ts => cases h
  | _ => rw [read] <;> nofun

theorem Ty.frames_of_isWord {t : Ty} (h : t.isWord = true) (v : Value) : t.frames v = 0 := by
  cases t with
  | bytes => cases h
  | string => cases h
  | array t => cases h
  | fixedArray t n => cases h
  | tuple ts => cases h
  | _ => rw [frames] <;> nofun

theorem map_frames_itemsOf (t : Ty) (vs : List Value) :
    (itemsOf t vs).map Member.frames = vs.map t.frames := by
  rw [itemsOf, List.map_map]
  rfl

theorem readBytes_encodeBytes {bs : Bytes} {c : Cursor} {rest : Bytes}
    (short : (encodeBytes bs).length < UInt64.size) (h : c.Holds (encodeBytes bs) rest true) :
    readBytes c = c.gives 1 bs rest := by
  have few : bs.length < UInt64.size := by
    rw [encodeBytes, padRight, List.length_append, List.length_append] at short
    omega
  rw [readBytes_eq]
  exact readInFrame_away (readCounted_encodeBytes few) h

/-- The members of a short frame are short. -/
theorem Member.forall_readsBack {members : List Member}
    (each : ∀ m ∈ members, (encode m.1 m.2).length < UInt64.size → m.ReadsBack)
    (short : (encodeFrame (members.map part)).length < UInt64.size) :
    ∀ m ∈ members, m.ReadsBack := by
  intro m mem
  have le : m.part.2.length ≤ _ := length_le_encodeFrame (List.mem_map_of_mem mem)
  exact each m mem (Nat.lt_of_le_of_lt le short)

/-- A value of a type in which every type takes bytes is read back from its encoding. -/
theorem readsBack_of_fits {t : Ty} {v : Value} (h : t.Fits v)
    (short : (encode t v).length < UInt64.size) : Member.ReadsBack (t, v) := by
  induction h with
  | @word t v isWord sized admits =>
    intro c rest shallow holds
    obtain ⟨w, written, value⟩ := exists_word_encode isWord sized admits
    dsimp only at holds
    rw [Ty.isDynamic_of_isWord isWord, written] at holds
    cases holds with
    | here front =>
      dsimp only [Member.frames]
      rw [read_of_isWord isWord, Ty.frames_of_isWord isWord, Cursor.gives, Nat.add_zero,
        if_pos shallow]
      simp only [readWord, Cursor.word?_append front, value]
  | bytes bs =>
    intro c rest shallow holds
    rw [read_bytes, readBytes_encodeBytes short holds, Cursor.map_gives]
    rfl
  | string s =>
    intro c rest shallow holds
    rw [read_string, readBytes_encodeBytes short holds, Cursor.map_gives, Text.decodeUtf8_utf8,
      String.ofList_toList]
    rfl
  | @array t vs positive each ih =>
    have short' := short
    rw [encode_array, List.length_append, length_wordOf] at short'
    have parts := Member.forall_readsBack (forall_mem_itemsOf.mpr ih) (by omega)
    have words : 32 * (vs.length * t.minWords) ≤
        (encodeFrame ((itemsOf t vs).map Member.part)).length := by
      rw [← Ty.Fits.minWordsAll_replicate, ← map_fst_itemsOf]
      exact Ty.Fits.minWordsAll_le (forall_mem_itemsOf.mpr fun v mem => (each v mem).minWords_le)
    intro c rest shallow holds
    have reads := readItems_encode positive parts words short
    rw [read_array, readList_eq, readInFrame_away reads holds, Cursor.map_gives,
      map_frames_itemsOf]
    have frames : (1 + if vs.isEmpty then 0 else 1 + deepest (vs.map t.frames)) =
        (t.array).frames (.array vs) := by
      rw [Ty.frames]
      split
      · rfl
      · rw [← Nat.add_assoc]
    rw [frames]
    rfl
  | @fixedArray t vs some each ih =>
    rw [encode_fixedArray] at short
    have parts := Member.forall_readsBack (forall_mem_itemsOf.mpr ih) short
    have reads := readAll_encodeFrame parts short
    rw [map_fst_itemsOf, map_snd_itemsOf, map_frames_itemsOf] at reads
    rw [any_dynamic_itemsOf t some] at reads
    intro c rest shallow holds
    dsimp only at holds
    rw [encode_fixedArray, Ty.isDynamic] at holds
    rw [read_fixedArray, readInFrame_holds reads holds, Cursor.map_gives]
    rfl
  | @tuple members each ih =>
    rw [encode_tuple] at short
    have parts := Member.forall_readsBack ih short
    have reads := readAll_encodeFrame parts short
    intro c rest shallow holds
    dsimp only at holds
    rw [encode_tuple, Ty.isDynamic, Member.anyDynamic_eq] at holds
    rw [read_tuple, Member.anyDynamic_eq, readInFrame_holds reads holds, Cursor.map_gives,
      ← framesAll_eq]
    rfl

/-! ## Parameters -/

/-- Where members are laid out there are always as many words as is asked for, so parameters are
read as the members of any frame are. -/
theorem readParams_eq_readAll {members : List Member} {c : Cursor} {rest : Bytes}
    (each : ∀ m ∈ members, m.1.sized = true ∧ m.1.Fits m.2 ∧ m.ReadsBack)
    (shallow : c.depth ≤ Cursor.maxDepth) (h : c.Stands members rest) :
    readParams (members.map Prod.fst) c = (readAll (members.map Prod.fst) c).map Prod.fst := by
  induction members generalizing c with
  | nil => rfl
  | cons m members ih =>
    obtain ⟨⟨sized, fits, reads⟩, later⟩ := List.forall_mem_cons.mp each
    obtain ⟨behind, holds, stands, present⟩ := Cursor.stands_cons h
    have enough : m.1.minWords ≤ c.wordsLeft := by
      have least := fits.minWords_le
      rw [Cursor.wordsLeft]
      omega
    rw [List.map_cons, readParams, if_neg (Bool.eq_false_iff.mp (Ty.isEmpty_of_sized sized)),
      if_pos enough, readAll, reads c behind shallow holds, Cursor.gives]
    by_cases room : c.depth + m.frames ≤ Cursor.maxDepth
    · have next := ih (c := { c with rest := behind }) later shallow stands
      simp only [if_pos room, next]
      cases readAll (members.map Prod.fst) { c with rest := behind } <;> rfl
    · simp only [if_neg room, Option.map_none]

section Params

variable {types : List Ty} {values : List Value}

/-- Encoded values are laid out from the start of their data on, and each of them is read back. -/
theorem exists_stands (regular : Ty.allRegular types = true)
    (admits : Ty.admitsAll types values = true)
    (short : (encodeParams types values).length < UInt64.size) :
    ∃ (members : List Member) (rest : Bytes),
      members.map Prod.fst = types ∧ members.map Prod.snd = values ∧
      (∀ m ∈ members, m.1 ∈ types ∧ m.1.Fits m.2 ∧ m.ReadsBack) ∧
      (Cursor.start (encodeParams types values)).Stands members rest := by
  obtain ⟨members, rfl, rfl, fits⟩ := exists_fits regular admits
  rw [encodeParams, Member.encodeParts_eq] at short ⊢
  have reads := Member.forall_readsBack (fun m mem => readsBack_of_fits (fits m mem).2) short
  have stands := Cursor.stands_encodeFrame
    (c := .start (encodeFrame (members.map Member.part))) short (List.append_nil _).symm
    (List.append_nil _).symm
  exact ⟨members, _, rfl, rfl, fun m mem => ⟨(fits m mem).1, (fits m mem).2, reads m mem⟩, stands⟩

/-- Values are read from the start of their encoding, up to sixteen frames deep. -/
theorem map_fst_readAll_start {members : List Member} {data rest : Bytes}
    (each : ∀ m ∈ members, m.ReadsBack) (stands : (Cursor.start data).Stands members rest) :
    (readAll (members.map Prod.fst) (.start data)).map Prod.fst =
      if deepest (members.map Member.frames) ≤ Cursor.maxDepth then
        some (members.map Prod.snd)
      else none := by
  rw [readAll_stands each (Nat.zero_le _) stands, Cursor.gives, Cursor.start, Nat.zero_add]
  split <;> rfl

/-- Parameters are read back from their encoding, up to sixteen frames deep. -/
theorem decodeParams_encodeParams
    (sized : Ty.allSized types = true) (admits : Ty.admitsAll types values = true)
    (short : (encodeParams types values).length < UInt64.size) :
    decodeParams types (encodeParams types values) =
      if deepest (Ty.framesAll types values) ≤ Cursor.maxDepth then some values else none := by
  obtain ⟨members, rest, rfl, rfl, fits, stands⟩ :=
    exists_stands (Ty.allRegular_of_allSized sized) admits short
  have each : ∀ m ∈ members, m.1.sized = true ∧ m.1.Fits m.2 ∧ m.ReadsBack := fun m mem =>
    ⟨Ty.allSized_iff.mp sized m.1 (fits m mem).1, (fits m mem).2⟩
  rw [decodeParams, framesAll_eq, readParams_eq_readAll each (Nat.zero_le _) stands,
    map_fst_readAll_start (fun m mem => (fits m mem).2.2) stands]

/-- So are the parameters in the data of an event, unless all that it keeps there are empty
tuples. -/
theorem decodeBody_encodeParams (regular : Ty.allRegular types = true)
    (keeps : Ty.allEmpty types = true → types = []) (admits : Ty.admitsAll types values = true)
    (short : (encodeParams types values).length < UInt64.size) :
    decodeBody types (encodeParams types values) =
      if deepest (Ty.framesAll types values) ≤ Cursor.maxDepth then some values else none := by
  have words := minWordsAll_le_encodeParams regular admits
  have enough : Ty.minWordsAll types ≤ (Cursor.start (encodeParams types values)).wordsLeft := by
    show Ty.minWordsAll types ≤ (encodeParams types values).length / 32
    omega
  obtain ⟨members, rest, rfl, rfl, fits, stands⟩ := exists_stands regular admits short
  have read := map_fst_readAll_start (fun m mem => (fits m mem).2.2) stands
  rw [← framesAll_eq] at read
  by_cases nothing : Ty.allEmpty (members.map Prod.fst) = true
  · have none : members = [] := List.map_eq_nil_iff.mp (keeps nothing)
    subst none
    rfl
  · rw [decodeBody, if_neg nothing, if_pos enough, read]

end Params

end EvmInspect.Abi
