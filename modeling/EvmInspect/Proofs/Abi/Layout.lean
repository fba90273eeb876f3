import EvmInspect.Abi.Decode
import EvmInspect.Abi.Encode

/-!
# The layout of encoded values

A frame is the heads of its members and then what their offsets point to, so it is as long as
its members take together (`length_encodeFrame`), and of a frame without dynamic members there
are heads only (`tails_eq_nil`).

`Ty.Fits` is what a value of a type looks like when each type in it takes bytes: the laws of
encoded values go by induction on it. Arrays and tuples are both frames of `Member`s there. No
encoding is shorter than its type says (`Fits.minWords_le`).
-/

namespace EvmInspect.Abi

/-! ## Frames -/

/-- How much of its frame a member takes: its head, and what the offset there points to. -/
def partLength : Bool × Bytes → Nat
  | (dynamic, encoding) => if dynamic then 32 + encoding.length else encoding.length

/-- How much the members take together. -/
def partsLength : List (Bool × Bytes) → Nat
  | [] => 0
  | part :: rest => partLength part + partsLength rest

@[simp] theorem length_wordOf (n : Nat) : (wordOf n).length = 32 := BigEndian.length_numeral 32 n

theorem length_heads (offset : Nat) (parts : List (Bool × Bytes)) :
    (layOut offset parts).1.length = headsLength parts := by
  induction parts generalizing offset with
  | nil => rfl
  | cons part rest ih =>
    obtain ⟨dynamic, encoding⟩ := part
    cases dynamic with
    | false => simp only [layOut, headsLength, Bool.false_eq_true, if_false, List.length_append, ih]
    | true => simp only [layOut, headsLength, if_true, List.length_append, length_wordOf, ih]

theorem length_layOut (offset : Nat) (parts : List (Bool × Bytes)) :
    (layOut offset parts).1.length + (layOut offset parts).2.length = partsLength parts := by
  induction parts generalizing offset with
  | nil => rfl
  | cons part rest ih =>
    obtain ⟨dynamic, encoding⟩ := part
    rw [partsLength]
    cases dynamic with
    | false =>
      rw [← ih offset]
      simp only [layOut, partLength, Bool.false_eq_true, if_false, List.length_append]
      omega
    | true =>
      rw [← ih (offset + encoding.length)]
      simp only [layOut, partLength, if_true, List.length_append, length_wordOf]
      omega

theorem length_encodeFrame (parts : List (Bool × Bytes)) :
    (encodeFrame parts).length = partsLength parts := by
  rw [← length_layOut (headsLength parts) parts]
  exact List.length_append

/-- No member is longer than its frame. -/
theorem length_le_encodeFrame {part : Bool × Bytes} {parts : List (Bool × Bytes)}
    (mem : part ∈ parts) : part.2.length ≤ (encodeFrame parts).length := by
  have own : part.2.length ≤ partLength part := by
    obtain ⟨dynamic, encoding⟩ := part
    cases dynamic with
    | false => exact Nat.le_refl _
    | true => exact Nat.le_add_left _ _
  rw [length_encodeFrame]
  induction parts with
  | nil => cases mem
  | cons head rest ih =>
    rw [partsLength]
    rcases List.mem_cons.mp mem with rfl | later
    · exact Nat.le_trans own (Nat.le_add_right _ _)
    · exact Nat.le_trans (ih later) (Nat.le_add_left _ _)

/-- Offsets are only needed for dynamic members. -/
theorem tails_eq_nil {parts : List (Bool × Bytes)} (static : ∀ part ∈ parts, part.1 = false)
    (offset : Nat) : (layOut offset parts).2 = [] := by
  induction parts generalizing offset with
  | nil => rfl
  | cons part rest ih =>
    obtain ⟨dynamic, encoding⟩ := part
    obtain ⟨now, later⟩ := List.forall_mem_cons.mp static
    cases now
    simp only [layOut, Bool.false_eq_true, if_false]
    exact ih later offset

/-! ## Types that take bytes -/

namespace Ty

mutual

/-- Whether every value of the type takes bytes, and every value of each type in it. -/
def sized : Ty → Bool
  | fixedBytes n => 0 < n
  | array t => sized t
  | fixedArray t n => 0 < n && sized t
  | tuple ts => !ts.isEmpty && allSized ts
  | _ => true

/-- Whether each type of a list is such a type. -/
def allSized : List Ty → Bool
  | [] => true
  | t :: ts => sized t && allSized ts

end

mutual

/-- Whether the items of every array in the type take bytes. Elsewhere a tuple may be empty. -/
def regular : Ty → Bool
  | fixedBytes n => 0 < n
  | array t => 0 < t.minWords && regular t
  | fixedArray t n => 0 < n && regular t
  | tuple ts => allRegular ts
  | _ => true

/-- Whether each type of a list is such a type. -/
def allRegular : List Ty → Bool
  | [] => true
  | t :: ts => regular t && allRegular ts

end

theorem minWords_of_isWord {t : Ty} (h : t.isWord = true) : t.minWords = 1 := by
  cases t with
  | fixedArray t n => cases h
  | tuple ts => cases h
  | _ => rfl

theorem isDynamic_of_isWord {t : Ty} (h : t.isWord = true) : t.isDynamic = false := by
  cases t with
  | bytes => cases h
  | string => cases h
  | array t => cases h
  | fixedArray t n => cases h
  | tuple ts => cases h
  | _ => rfl

theorem sized_of_isWord {t : Ty} (h : t.isWord = true) (regular : t.regular = true) :
    t.sized = true := by
  cases t with
  | fixedBytes n => exact regular
  | array t => cases h
  | fixedArray t n => cases h
  | tuple ts => cases h
  | _ => rfl

theorem allRegular_iff {ts : List Ty} : allRegular ts = true ↔ ∀ t ∈ ts, t.regular = true := by
  induction ts with
  | nil => simp [allRegular]
  | cons t ts ih => simp [allRegular, ih]

theorem allSized_iff {ts : List Ty} : allSized ts = true ↔ ∀ t ∈ ts, t.sized = true := by
  induction ts with
  | nil => simp [allSized]
  | cons t ts ih => simp [allSized, ih]

mutual

theorem minWords_pos : {t : Ty} → t.sized = true → 0 < t.minWords
  | uint _, _ => Nat.one_pos
  | int _, _ => Nat.one_pos
  | address, _ => Nat.one_pos
  | bool, _ => Nat.one_pos
  | fixedBytes _, _ => Nat.one_pos
  | function, _ => Nat.one_pos
  | bytes, _ => Nat.one_pos
  | string, _ => Nat.one_pos
  | array _, _ => Nat.one_pos
  | fixedArray t n, h => by
    simp only [sized, Bool.and_eq_true, decide_eq_true_eq] at h
    exact Nat.mul_pos h.1 (minWords_pos h.2)
  | tuple ts, h => by
    simp only [sized, Bool.and_eq_true, Bool.not_eq_true'] at h
    exact minWordsAll_pos h.1 h.2

theorem minWordsAll_pos : {ts : List Ty} → ts.isEmpty = false → allSized ts = true →
    0 < minWordsAll ts
  | t :: ts, _, h => by
    simp only [allSized, Bool.and_eq_true] at h
    exact Nat.add_pos_left (minWords_pos h.1) _

end

mutual

theorem regular_of_sized : {t : Ty} → t.sized = true → t.regular = true
  | uint _, _ => rfl
  | int _, _ => rfl
  | address, _ => rfl
  | bool, _ => rfl
  | fixedBytes _, h => h
  | function, _ => rfl
  | bytes, _ => rfl
  | string, _ => rfl
  | array t, h => by
    rw [regular, Bool.and_eq_true, decide_eq_true_eq]
    exact ⟨minWords_pos (t := t) h, regular_of_sized (t := t) h⟩
  | fixedArray t n, h => by
    rw [sized, Bool.and_eq_true] at h
    rw [regular, Bool.and_eq_true]
    exact ⟨h.1, regular_of_sized h.2⟩
  | tuple ts, h => by
    rw [sized, Bool.and_eq_true] at h
    exact allRegular_of_allSized h.2

theorem allRegular_of_allSized : {ts : List Ty} → allSized ts = true → allRegular ts = true
  | [], _ => rfl
  | t :: ts, h => by
    rw [allSized, Bool.and_eq_true] at h
    rw [allRegular, Bool.and_eq_true]
    exact ⟨regular_of_sized h.1, allRegular_of_allSized h.2⟩

end

mutual

/-- A type that takes bytes is not made of empty tuples. -/
theorem isEmpty_of_sized : {t : Ty} → t.sized = true → t.isEmpty = false
  | uint _, _ => rfl
  | int _, _ => rfl
  | address, _ => rfl
  | bool, _ => rfl
  | fixedBytes _, _ => rfl
  | function, _ => rfl
  | bytes, _ => rfl
  | string, _ => rfl
  | array t, h => isEmpty_of_sized (t := t) h
  | fixedArray t n, h => by
    simp only [sized, Bool.and_eq_true] at h
    exact isEmpty_of_sized (t := t) h.2
  | tuple ts, h => by
    simp only [sized, Bool.and_eq_true, Bool.not_eq_true'] at h
    exact allEmpty_of_sized h.1 h.2

theorem allEmpty_of_sized : {ts : List Ty} → ts.isEmpty = false → allSized ts = true →
    allEmpty ts = false
  | t :: ts, _, h => by
    simp only [allSized, Bool.and_eq_true] at h
    simp only [allEmpty, isEmpty_of_sized h.1, Bool.false_and]

end

end Ty

/-! ## Members -/

/-- A value in a frame, with its type. -/
abbrev Member := Ty × Value

namespace Member

/-- The encoding of a member, with whether it is reached through an offset. -/
def part (m : Member) : Bool × Bytes := (m.1.isDynamic, encode m.1 m.2)

theorem encodeParts_eq (members : List Member) :
    encodeParts (members.map Prod.fst) (members.map Prod.snd) = members.map part := by
  induction members with
  | nil => rfl
  | cons m rest ih => simp only [List.map_cons, encodeParts, ih, part]

theorem anyDynamic_eq (members : List Member) :
    Ty.anyDynamic (members.map Prod.fst) = (members.map part).any Prod.fst := by
  induction members with
  | nil => rfl
  | cons m rest ih => simp only [List.map_cons, Ty.anyDynamic, List.any_cons, ih, part]

end Member

/-! ## What values look like -/

/-- A value belongs to a type in which every type takes bytes. -/
inductive Ty.Fits : Ty → Value → Prop
  | word {t v} : t.isWord = true → t.sized = true → t.admits v = true → Fits t v
  | bytes (bs) : Fits .bytes (.bytes bs)
  | string (s) : Fits .string (.string s)
  | array {t vs} : 0 < t.minWords → (∀ v ∈ vs, Fits t v) → Fits (.array t) (.array vs)
  | fixedArray {t vs} : vs ≠ [] → (∀ v ∈ vs, Fits t v) →
      Fits (.fixedArray t vs.length) (.array vs)
  | tuple {members : List Member} : (∀ m ∈ members, Fits m.1 m.2) →
      Fits (.tuple (members.map Prod.fst)) (.tuple (members.map Prod.snd))

/-! ## Words -/

/-- A number is written as the word of its remainder. -/
theorem wordOf_eq (n : Nat) : wordOf n = Word.toBytes (BitVec.ofNat 256 n) := by
  have cycle : BigEndian.span 32 = Nat.pow 2 256 := by decide
  apply BigEndian.numeral_congr
  rw [BitVec.toNat_ofNat, cycle]
  exact (Nat.mod_mod _ _).symm

theorem toNat_word {n : Nat} (h : n < Word.count) : (BitVec.ofNat 256 n).toNat = n := by
  rw [BitVec.toNat_ofNat]
  exact Nat.mod_eq_of_lt (Nat.lt_of_lt_of_eq h (by decide))

theorem length_padRight {bs : Bytes} (some : 0 < bs.length) (most : bs.length ≤ 32) :
    (padRight bs).length = 32 := by
  rw [padRight, List.length_append, List.length_replicate]
  omega

/-- At most 32 bytes with zeros after them are a word that begins with them. -/
theorem exists_word_padRight {bs : Bytes} (some : 0 < bs.length) (most : bs.length ≤ 32) :
    ∃ w : Word, padRight bs = w.toBytes ∧ w.toBytes.take bs.length = bs := by
  have whole := Word.toBytes_ofBytes (length_padRight some most)
  refine ⟨Word.ofBytes (padRight bs), whole.symm, ?_⟩
  rw [whole, padRight, List.take_left]

/-- A value of a word type is encoded as the word that it is read from. -/
theorem exists_word_encode {t : Ty} {v : Value} (isWord : t.isWord = true)
    (sized : t.sized = true) (admits : t.admits v = true) :
    ∃ w : Word, encode t v = w.toBytes ∧ ofWord? t w = some v := by
  cases t with
  | uint bits =>
    cases v with
    | uint w => exact ⟨w, rfl, rfl⟩
    | _ => cases admits
  | int bits =>
    cases v with
    | int w => exact ⟨w, rfl, rfl⟩
    | _ => cases admits
  | address =>
    cases v with
    | address a =>
      have small : a.toNat < Word.count := Nat.lt_trans a.toNat_lt_count (by decide)
      have same : Address.ofNat a.toNat = a := Address.toNat_inj (Nat.mod_eq_of_lt a.value.isLt)
      refine ⟨BitVec.ofNat 256 a.toNat, wordOf_eq a.toNat, ?_⟩
      rw [ofWord?, toNat_word small, same]
    | _ => cases admits
  | bool =>
    cases v with
    | bool b =>
      refine ⟨BitVec.ofNat 256 (if b then 1 else 0), wordOf_eq _, ?_⟩
      cases b <;> rfl
    | _ => cases admits
  | fixedBytes n =>
    cases v with
    | fixedBytes bs =>
      simp only [Ty.admits, Bool.and_eq_true, beq_iff_eq, decide_eq_true_eq] at admits
      simp only [Ty.sized, decide_eq_true_eq] at sized
      obtain ⟨rfl, most⟩ := admits
      obtain ⟨w, written, front⟩ := exists_word_padRight sized most
      exact ⟨w, written, by rw [ofWord?, front]⟩
    | _ => cases admits
  | function =>
    cases v with
    | function bs =>
      have size : bs.length = 24 := beq_iff_eq.mp admits
      have some : 0 < bs.length := by omega
      obtain ⟨w, written, front⟩ := exists_word_padRight some (by omega)
      rw [size] at front
      exact ⟨w, written, by rw [ofWord?, front]⟩
    | _ => cases admits
  | _ => cases isWord

/-! ## Values of types that take bytes -/

/-- Values of a list of types are members of a frame. -/
theorem exists_members {ts : List Ty} {vs : List Value} (admits : Ty.admitsAll ts vs = true) :
    ∃ members : List Member, members.map Prod.fst = ts ∧ members.map Prod.snd = vs ∧
      ∀ m ∈ members, m.1 ∈ ts ∧ m.1.admits m.2 = true := by
  induction ts generalizing vs with
  | nil =>
    cases vs with
    | nil => exact ⟨[], rfl, rfl, fun _ mem => nomatch mem⟩
    | cons v vs => simp [Ty.admitsAll] at admits
  | cons t ts ih =>
    cases vs with
    | nil => simp [Ty.admitsAll] at admits
    | cons v vs =>
      simp only [Ty.admitsAll, Bool.and_eq_true] at admits
      obtain ⟨members, rfl, rfl, each⟩ := ih admits.2
      refine ⟨(t, v) :: members, rfl, rfl, List.forall_mem_cons.mpr ⟨?_, fun m mem => ?_⟩⟩
      · exact ⟨List.mem_cons_self, admits.1⟩
      · exact ⟨List.mem_cons_of_mem _ (each m mem).1, (each m mem).2⟩

theorem length_of_admitsAll {ts : List Ty} {vs : List Value}
    (admits : Ty.admitsAll ts vs = true) : vs.length = ts.length := by
  obtain ⟨members, rfl, rfl, _⟩ := exists_members admits
  rw [List.length_map, List.length_map]

/-- The items of an array as members of a frame. -/
def itemsOf (t : Ty) (vs : List Value) : List Member := vs.map (Prod.mk t)

theorem map_fst_itemsOf (t : Ty) (vs : List Value) :
    (itemsOf t vs).map Prod.fst = List.replicate vs.length t := by
  rw [itemsOf, List.map_map]
  exact List.map_const'

theorem map_snd_itemsOf (t : Ty) (vs : List Value) : (itemsOf t vs).map Prod.snd = vs := by
  rw [itemsOf, List.map_map]
  exact List.map_id vs

theorem forall_mem_itemsOf {P : Member → Prop} {t : Ty} {vs : List Value} :
    (∀ m ∈ itemsOf t vs, P m) ↔ ∀ v ∈ vs, P (t, v) := List.forall_mem_map

/-- All items of an array are dynamic, or none is. -/
theorem any_dynamic_itemsOf (t : Ty) {vs : List Value} (some : vs ≠ []) :
    ((itemsOf t vs).map Member.part).any Prod.fst = t.isDynamic := by
  obtain ⟨v, mem⟩ := List.exists_mem_of_ne_nil vs some
  rw [itemsOf, List.map_map, List.any_map, Bool.eq_iff_iff, List.any_eq_true]
  exact ⟨fun ⟨_, _, dynamic⟩ => dynamic, fun dynamic => ⟨v, mem, dynamic⟩⟩

theorem encode_array (t : Ty) (vs : List Value) :
    encode (.array t) (.array vs) =
      wordOf vs.length ++ encodeFrame ((itemsOf t vs).map Member.part) := by
  rw [encode, itemsOf, List.map_map]
  rfl

theorem encode_fixedArray (t : Ty) (n : Nat) (vs : List Value) :
    encode (.fixedArray t n) (.array vs) = encodeFrame ((itemsOf t vs).map Member.part) := by
  rw [encode, itemsOf, List.map_map]
  rfl

theorem encode_tuple (members : List Member) :
    encode (.tuple (members.map Prod.fst)) (.tuple (members.map Prod.snd)) =
      encodeFrame (members.map Member.part) := by
  rw [encode, Member.encodeParts_eq]

namespace Ty.Fits

/-- What a type admits fits it if the items of each array in it take bytes. -/
theorem of_admits : {t : Ty} → {v : Value} → t.regular = true → t.admits v = true → t.Fits v
  | .uint bits, v, _, admits => .word rfl rfl admits
  | .int bits, v, _, admits => .word rfl rfl admits
  | .address, v, _, admits => .word rfl rfl admits
  | .bool, v, _, admits => .word rfl rfl admits
  | .fixedBytes n, v, regular, admits => .word rfl regular admits
  | .function, v, _, admits => .word rfl rfl admits
  | .bytes, .bytes bs, _, _ => .bytes bs
  | .string, .string s, _, _ => .string s
  | .array t, .array vs, regular, admits => by
    simp only [Ty.regular, Bool.and_eq_true, decide_eq_true_eq] at regular
    simp only [Ty.admits, Bool.and_eq_true, List.all_eq_true] at admits
    exact .array regular.1 fun v mem => of_admits regular.2 (admits.2 v mem)
  | .fixedArray t n, .array vs, regular, admits => by
    simp only [Ty.regular, Bool.and_eq_true, decide_eq_true_eq] at regular
    simp only [Ty.admits, Bool.and_eq_true, beq_iff_eq, List.all_eq_true] at admits
    obtain ⟨rfl, each⟩ := admits
    exact .fixedArray (List.ne_nil_of_length_pos regular.1) fun v mem =>
      of_admits regular.2 (each v mem)
  | .tuple ts, .tuple vs, regular, admits => by
    rw [Ty.regular, allRegular_iff] at regular
    rw [Ty.admits] at admits
    obtain ⟨members, types, values, each⟩ := exists_members admits
    have fits : ∀ m ∈ members, m.1.Fits m.2 := by
      intro m mem
      obtain ⟨among, admits⟩ := each m mem
      have := List.sizeOf_lt_of_mem among
      exact of_admits (regular m.1 among) admits
    rw [← types, ← values]
    exact .tuple fits
termination_by t => sizeOf t

/-- A frame is not shorter than the types of its members say, if no member is. -/
theorem minWordsAll_le {members : List Member}
    (each : ∀ m ∈ members, 32 * m.1.minWords ≤ (encode m.1 m.2).length) :
    32 * minWordsAll (members.map Prod.fst) ≤ (encodeFrame (members.map Member.part)).length := by
  rw [length_encodeFrame]
  induction members with
  | nil => exact Nat.le_refl 0
  | cons m rest ih =>
    obtain ⟨now, later⟩ := List.forall_mem_cons.mp each
    have own : 32 * m.1.minWords ≤ partLength m.part := by
      rw [Member.part, partLength]
      split
      · exact Nat.le_trans now (Nat.le_add_left _ _)
      · exact now
    have others := ih later
    rw [List.map_cons, List.map_cons, partsLength, minWordsAll, Nat.mul_add]
    exact Nat.add_le_add own others

theorem minWordsAll_replicate (t : Ty) (n : Nat) :
    minWordsAll (List.replicate n t) = n * t.minWords := by
  induction n with
  | zero => rw [List.replicate_zero, minWordsAll, Nat.zero_mul]
  | succ n ih => rw [List.replicate_succ, minWordsAll, ih, Nat.succ_mul, Nat.add_comm]

/-- No encoding is shorter than its type says. -/
theorem minWords_le {t : Ty} {v : Value} (h : t.Fits v) :
    32 * t.minWords ≤ (encode t v).length := by
  induction h with
  | @word t v isWord sized admits =>
    obtain ⟨w, written, _⟩ := exists_word_encode isWord sized admits
    have size : (encode t v).length = 32 := by rw [written, Word.length_toBytes]
    have words := minWords_of_isWord isWord
    omega
  | bytes bs =>
    rw [encode, encodeBytes, List.length_append, length_wordOf]
    exact Nat.le_add_right 32 _
  | string s =>
    rw [encode, encodeBytes, List.length_append, length_wordOf]
    exact Nat.le_add_right 32 _
  | @array t vs _ _ _ =>
    rw [encode_array, List.length_append, length_wordOf]
    exact Nat.le_add_right 32 _
  | @fixedArray t vs _ _ ih =>
    have frame := minWordsAll_le (forall_mem_itemsOf.mpr ih)
    rw [map_fst_itemsOf, minWordsAll_replicate] at frame
    rw [encode_fixedArray]
    exact frame
  | tuple _ ih =>
    rw [encode_tuple]
    exact minWordsAll_le ih

end Ty.Fits

/-! ## Values of parameters -/

section Params

variable {types : List Ty} {values : List Value}

/-- Values of types whose arrays have items that take bytes are members of a frame that fit. -/
theorem exists_fits (regular : Ty.allRegular types = true)
    (admits : Ty.admitsAll types values = true) :
    ∃ members : List Member, members.map Prod.fst = types ∧ members.map Prod.snd = values ∧
      ∀ m ∈ members, m.1 ∈ types ∧ m.1.Fits m.2 := by
  obtain ⟨members, fst, snd, each⟩ := exists_members admits
  refine ⟨members, fst, snd, fun m mem => ?_⟩
  obtain ⟨among, admits⟩ := each m mem
  exact ⟨among, .of_admits (Ty.allRegular_iff.mp regular m.1 among) admits⟩

theorem minWordsAll_le_encodeParams (regular : Ty.allRegular types = true)
    (admits : Ty.admitsAll types values = true) :
    32 * Ty.minWordsAll types ≤ (encodeParams types values).length := by
  obtain ⟨members, rfl, rfl, each⟩ := exists_fits regular admits
  rw [encodeParams, Member.encodeParts_eq]
  exact Ty.Fits.minWordsAll_le fun m mem => (each m mem).2.minWords_le

end Params

end EvmInspect.Abi
