import EvmInspect.Address.Text
import EvmInspect.Proofs.Bytes.HexTexts
import Mathlib.Data.List.TakeDrop
import Mathlib.Data.List.TakeWhile

/-!
# Spellings of an address

An address may be spelled in many ways: with blanks around it, with a mark in front or none, and
with the letters of its digits in either case. What is common to all of them is the values of its
digits (`Spelled`), and these alone decide what is read: the address that forty digits write, the
length in bytes where an even number of digits are not forty, and otherwise an error that the text
is not hexadecimal (`parse_spelled`, `parse_unspelled`).

The two forms in which an address is written are two of its spellings. Which letters of the second
are capitals is decided by a hash, and nothing is asked of the hash but its length
(`map_toLower_checksumDigits`).
-/

namespace EvmInspect

/-! ## Blanks -/

namespace Text

section Trim

variable {before core after : List Char}

theorem dropWhile_isBlank_of_solid (solid : ∀ c ∈ core, isBlank c = false) :
    core.dropWhile isBlank = core := by
  cases core with
  | nil => rfl
  | cons c core =>
    have first := solid c List.mem_cons_self
    exact List.dropWhile_cons_of_neg (by rw [first]; exact Bool.false_ne_true)

/-- Blanks around a text without blanks are taken away. -/
theorem trim_blanks (front : ∀ c ∈ before, isBlank c = true) (solid : ∀ c ∈ core, isBlank c = false)
    (back : ∀ c ∈ after, isBlank c = true) : trim (before ++ core ++ after) = core := by
  have backwards : ∀ c ∈ after.reverse, isBlank c = true := by simpa using back
  have solid' : ∀ c ∈ core.reverse, isBlank c = false := by simpa using solid
  unfold trim
  rw [List.append_assoc, List.dropWhile_append_of_pos front]
  cases core with
  | nil =>
    rw [List.nil_append, List.dropWhile_eq_nil_iff.mpr back]
    rfl
  | cons c core =>
    have first : ¬ isBlank c = true := by
      rw [solid c List.mem_cons_self]
      exact Bool.false_ne_true
    rw [List.cons_append, List.dropWhile_cons_of_neg first, ← List.cons_append,
      List.reverse_append, List.dropWhile_append_of_pos backwards,
      dropWhile_isBlank_of_solid solid', List.reverse_reverse]

/-- What is trimmed away is blank. -/
theorem exists_trim (cs : List Char) :
    ∃ before after, (∀ c ∈ before, isBlank c = true) ∧ (∀ c ∈ after, isBlank c = true) ∧
      cs = before ++ trim cs ++ after := by
  refine ⟨cs.takeWhile isBlank,
    ((cs.dropWhile isBlank).reverse.takeWhile isBlank).reverse,
    fun c mem => ?_, fun c mem => ?_, ?_⟩
  · exact List.mem_takeWhile_imp mem
  · exact List.mem_takeWhile_imp (List.mem_reverse.mp mem)
  · rw [trim, List.append_assoc, ← List.reverse_append, List.takeWhile_append_dropWhile,
      List.reverse_reverse, List.takeWhile_append_dropWhile]

end Trim

/-- A hexadecimal digit is not blank. -/
theorem isBlank_digit {c : Char} {d : Nat} (h : Hex.digitValue? c.toNat = some d) :
    isBlank c = false := by
  have value := Hex.digitValue?_eq_some h
  simp only [isBlank, Bool.or_eq_false_iff, Bool.and_eq_false_iff, decide_eq_false_iff_not,
    beq_eq_false_iff_ne]
  omega

theorem isBlank_spells {cs : List Char} {ds : List Nat} (h : Hex.Spells cs ds) :
    ∀ c ∈ cs, isBlank c = false := by
  induction h with
  | nil => exact nofun
  | cons first _ ih => exact List.forall_mem_cons.mpr ⟨isBlank_digit first, ih⟩

theorem isBlank_marked {cs text : List Char} (marked : Hex.Marked cs text)
    (solid : ∀ c ∈ cs, isBlank c = false) : ∀ c ∈ text, isBlank c = false := by
  have mark : isBlank '0' = false ∧ isBlank 'x' = false ∧ isBlank 'X' = false := by decide
  cases marked with
  | bare => exact solid
  | lower => exact List.forall_mem_cons.mpr ⟨mark.1, List.forall_mem_cons.mpr ⟨mark.2.1, solid⟩⟩
  | upper => exact List.forall_mem_cons.mpr ⟨mark.1, List.forall_mem_cons.mpr ⟨mark.2.2, solid⟩⟩

end Text

namespace Address

/-! ## Spellings -/

/-- The text is `cs` with blanks around it and a mark in front of it or none. -/
inductive Encloses (text : String) (cs : List Char) : Prop
  | intro {before marked after : List Char} :
      (∀ c ∈ before, Text.isBlank c = true) → Hex.Marked cs marked →
      (∀ c ∈ after, Text.isBlank c = true) → text.toList = before ++ marked ++ after →
      Encloses text cs

/-- The text is hexadecimal digits with these values, with blanks around them and a mark in front
of them or none. -/
def Spelled (text : String) (ds : List Nat) : Prop :=
  ∃ cs, Encloses text cs ∧ Hex.Spells cs ds

section Spelled

variable {text : String} {cs : List Char} {ds : List Nat}

theorem encloses_stripMark (text : String) :
    Encloses text (Hex.stripMark (Text.trim text.toList)) := by
  obtain ⟨before, after, front, back, whole⟩ := Text.exists_trim text.toList
  exact .intro front (Hex.marked_stripMark _) back whole

theorem Encloses.stripMark_eq (h : Encloses text cs) (spells : Hex.Spells cs ds) :
    Hex.stripMark (Text.trim text.toList) = cs := by
  obtain ⟨front, marked, back, whole⟩ := h
  rw [whole, Text.trim_blanks front (Text.isBlank_marked marked (Text.isBlank_spells spells)) back]
  exact marked.stripMark_eq spells

/-- The digits of a text are those that are read, which are looked at in lowercase. -/
theorem spelled_iff : Spelled text ds ↔ Hex.Spells (textDigits text) ds := by
  rw [textDigits, Hex.spells_map_toLower]
  constructor
  · rintro ⟨cs, encloses, spells⟩
    rw [encloses.stripMark_eq spells]
    exact spells
  · exact fun spells => ⟨_, encloses_stripMark text, spells⟩

theorem Spelled.unique {ds' : List Nat} (h : Spelled text ds) (h' : Spelled text ds') : ds = ds' :=
  Option.some.inj ((spelled_iff.mp h).mapM_eq.symm.trans (spelled_iff.mp h').mapM_eq)

end Spelled

/-! ## Reading -/

section Reading

variable {text : String} {ds : List Nat}

theorem toNat_ofBytes {bs : Bytes} (h : bs.length = 20) :
    (ofBytes bs).toNat = BigEndian.value bs := by
  have small := BigEndian.value_lt bs
  rw [h] at small
  exact Nat.mod_eq_of_lt (Nat.lt_of_lt_of_eq small (by decide))

/-- An even number of digits is read by that number alone. -/
theorem parse_spelled (h : Spelled text ds) (even : ds.length % 2 = 0) :
    parse text =
      if ds.length = 40 then .ok (ofBytes (Hex.pack ds))
      else .error (.invalidLength text (ds.length / 2)) := by
  have bytes : Hex.decodeStrict (Hex.utf8 (textDigits text)) = .ok (Hex.pack ds) :=
    Hex.decodeStrict_eq_ok_iff.mpr ⟨ds, spelled_iff.mp h, even, rfl⟩
  have twenty : ds.length / 2 = 20 ↔ ds.length = 40 := by omega
  unfold parse
  rw [bytes]
  dsimp only
  rw [Hex.length_pack]
  simp only [twenty]

theorem parse_unspelled (h : ¬ ∃ ds, Spelled text ds ∧ ds.length % 2 = 0) :
    ∃ cause, parse text = .error (.invalidHex text cause) := by
  unfold parse
  cases decoded : Hex.decodeStrict (Hex.utf8 (textDigits text)) with
  | error cause => exact ⟨cause, rfl⟩
  | ok bs =>
    obtain ⟨ds, spells, even, _⟩ := Hex.decodeStrict_eq_ok_iff.mp decoded
    exact absurd ⟨ds, spelled_iff.mpr spells, even⟩ h

theorem toNat_ofBytes_pack (h : Spelled text ds) (forty : ds.length = 40) :
    (ofBytes (Hex.pack ds)).toNat = Hex.number 0 ds := by
  have even : ds.length % 2 = 0 := by omega
  have twenty : (Hex.pack ds).length = 20 := by
    rw [Hex.length_pack, forty]
  rw [toNat_ofBytes twenty, Hex.value_pack (spelled_iff.mp h).lt even]

theorem parse_eq_ok_iff {a : Address} :
    parse text = .ok a ↔
      ∃ ds, Spelled text ds ∧ ds.length = 40 ∧ a.toNat = Hex.number 0 ds := by
  constructor
  · intro read
    by_cases spelled : ∃ ds, Spelled text ds ∧ ds.length % 2 = 0
    · obtain ⟨ds, h, even⟩ := spelled
      rw [parse_spelled h even] at read
      split at read
      next forty =>
        cases read
        exact ⟨ds, h, forty, toNat_ofBytes_pack h forty⟩
      next => cases read
    · obtain ⟨cause, refused⟩ := parse_unspelled spelled
      rw [refused] at read
      cases read
  · rintro ⟨ds, h, forty, value⟩
    rw [parse_spelled h (by omega), if_pos forty]
    exact congrArg Except.ok (toNat_inj ((toNat_ofBytes_pack h forty).trans value.symm))

theorem parse_eq_invalidLength_iff {n : Nat} :
    parse text = .error (.invalidLength text n) ↔
      ∃ ds, Spelled text ds ∧ ds.length = 2 * n ∧ n ≠ 20 := by
  constructor
  · intro refused
    by_cases spelled : ∃ ds, Spelled text ds ∧ ds.length % 2 = 0
    · obtain ⟨ds, h, even⟩ := spelled
      rw [parse_spelled h even] at refused
      split at refused
      next => cases refused
      next other =>
        cases refused
        exact ⟨ds, h, by omega, by omega⟩
    · obtain ⟨cause, other⟩ := parse_unspelled spelled
      rw [other] at refused
      cases refused
  · rintro ⟨ds, h, length, other⟩
    rw [parse_spelled h (by omega), if_neg (by omega), length,
      Nat.mul_div_cancel_left n (by decide)]

theorem exists_invalidHex_iff :
    (∃ cause, parse text = .error (.invalidHex text cause)) ↔
      ¬ ∃ ds, Spelled text ds ∧ ds.length % 2 = 0 := by
  refine ⟨?_, parse_unspelled⟩
  rintro ⟨cause, refused⟩ ⟨ds, h, even⟩
  rw [parse_spelled h even] at refused
  split at refused <;> cases refused

end Reading

/-! ## The written forms -/

section Writing

variable {text : String} {cs cs' : List Char} {a : Address}

/-- Texts whose digits are the same but for their case are read as the same address. -/
theorem Encloses.parse_congr {text' : String} {ds : List Nat} (h : Encloses text cs)
    (h' : Encloses text' cs') (spells : Hex.Spells cs ds)
    (alike : cs.map Char.toLower = cs'.map Char.toLower) :
    parse text = .ok a ↔ parse text' = .ok a := by
  have spells' : Hex.Spells cs' ds := by
    rw [← Hex.spells_map_toLower, ← alike, Hex.spells_map_toLower]
    exact spells
  have same : Spelled text ds := ⟨cs, h, spells⟩
  have same' : Spelled text' ds := ⟨cs', h', spells'⟩
  rw [parse_eq_ok_iff, parse_eq_ok_iff]
  constructor
  · rintro ⟨ds', spelled, value⟩
    cases spelled.unique same
    exact ⟨ds, same', value⟩
  · rintro ⟨ds', spelled, value⟩
    cases spelled.unique same'
    exact ⟨ds, same, value⟩

/-- The digits of an address in any case are read as the address. -/
theorem parse_of_digits (h : Encloses text cs)
    (alike : cs.map Char.toLower = Hex.digits a.toBytes) : parse text = .ok a := by
  have written := Hex.spells_digits a.toBytes
  rw [← alike, Hex.spells_map_toLower] at written
  have forty : (Hex.unpack a.toBytes).length = 40 := by
    rw [Hex.length_unpack, length_toBytes]
  rw [parse_spelled ⟨cs, h, written⟩ (by omega), if_pos forty, Hex.pack_unpack, ofBytes_toBytes]

theorem encloses_marked (cs : List Char) : Encloses (String.ofList ('0' :: 'x' :: cs)) cs := by
  have whole : (String.ofList ('0' :: 'x' :: cs)).toList = [] ++ ('0' :: 'x' :: cs) ++ [] := by
    rw [String.toList_ofList, List.nil_append, List.append_nil]
  exact .intro (List.forall_mem_nil _) .lower (List.forall_mem_nil _) whole

/-! The hash sets the case of the digits and is asked for nothing else. -/

theorem length_nibbles (bs : Bytes) : (nibbles bs).length = 2 * bs.length := Hex.length_unpack bs

theorem toLower_digit : ∀ n < 16, (Hex.digit n).toLower = Hex.digit n ∧
    (Hex.digit n).toUpper.toLower = Hex.digit n := by decide

theorem mem_digits {bs : Bytes} {c : Char} (mem : c ∈ Hex.digits bs) :
    ∃ n < 16, c = Hex.digit n := by
  obtain ⟨b, _, here⟩ := List.mem_flatMap.mp mem
  have byte := b.toNat_lt
  rcases List.mem_pair.mp here with rfl | rfl
  · exact ⟨_, by omega, rfl⟩
  · exact ⟨_, by omega, rfl⟩

/-- Whatever decides which letters are capitals, they are the same letters. -/
theorem map_toLower_zipWith {cs : List Char} {ns : List Nat}
    (digits : ∀ c ∈ cs, ∃ n < 16, c = Hex.digit n) (enough : cs.length ≤ ns.length) :
    (List.zipWith (fun c n => if 8 ≤ n then c.toUpper else c) cs ns).map Char.toLower = cs := by
  induction cs generalizing ns with
  | nil => rfl
  | cons c cs ih =>
    cases ns with
    | nil => exact absurd enough (Nat.not_succ_le_zero _)
    | cons n ns =>
      obtain ⟨⟨d, small, rfl⟩, later⟩ := List.forall_mem_cons.mp digits
      obtain ⟨lower, upper⟩ := toLower_digit d small
      rw [List.zipWith_cons_cons, List.map_cons, ih later (Nat.le_of_succ_le_succ enough)]
      split
      · rw [upper]
      · rw [lower]

theorem map_toLower_checksumDigits (a : Address) :
    a.checksumDigits.map Char.toLower = Hex.digits a.toBytes := by
  refine map_toLower_zipWith (fun c mem => mem_digits mem) ?_
  rw [length_nibbles, Hash.length_eq, (Hex.spells_digits _).length_eq, Hex.length_unpack,
    length_toBytes]
  omega

end Writing

/-! ## What an address text means -/

/-- An address is read from forty hexadecimal digits of any case, with blanks around them and a mark
in front or none, and is the number that they write. An even number of other digits is refused with
the number of bytes that they make, and all else is no hexadecimal text. So nothing but the digits
counts, and both forms in which an address is written are read as the address, as is any text that
differs from them in the case of letters, in blanks and in the mark. -/
theorem parse_follows_spelling :
    (∀ text a, parse text = .ok a ↔
      ∃ ds, Spelled text ds ∧ ds.length = 40 ∧ a.toNat = Hex.number 0 ds) ∧
    (∀ text n, parse text = .error (.invalidLength text n) ↔
      ∃ ds, Spelled text ds ∧ ds.length = 2 * n ∧ n ≠ 20) ∧
    (∀ text, (∃ cause, parse text = .error (.invalidHex text cause)) ↔
      ¬ ∃ ds, Spelled text ds ∧ ds.length % 2 = 0) ∧
    (∀ text text' cs cs' ds a, Encloses text cs → Encloses text' cs' → Hex.Spells cs ds →
      cs.map Char.toLower = cs'.map Char.toLower → (parse text = .ok a ↔ parse text' = .ok a)) ∧
    (∀ a, parse a.hex = .ok a ∧ parse a.checksum = .ok a ∧
      ∀ text cs, Encloses text cs → cs.map Char.toLower = Hex.digits a.toBytes →
        parse text = .ok a) := by
  refine ⟨fun text a => parse_eq_ok_iff, fun text n => parse_eq_invalidLength_iff,
    fun text => exists_invalidHex_iff,
    fun text text' cs cs' ds a h h' spells alike => h.parse_congr h' spells alike,
    fun a => ⟨?_, ?_, fun text cs h alike => parse_of_digits h alike⟩⟩
  · exact parse_of_digits (encloses_marked _) (Hex.map_toLower_digits _)
  · exact parse_of_digits (encloses_marked _) (map_toLower_checksumDigits a)

/-- One address in two spellings: with capitals, a mark and blanks around it, and without. -/
theorem spellings_with_blanks_agree :
    parse "\t0X00000000000000000000000000000000000000Fe " = .ok (ofNat 254) ∧
      parse "00000000000000000000000000000000000000fE" = .ok (ofNat 254) := by
  obtain ⟨_, _, _, agree, writes⟩ := parse_follows_spelling
  have capitals : Encloses "\t0X00000000000000000000000000000000000000Fe "
      (List.replicate 38 '0' ++ ['F', 'e']) :=
    .intro (List.forall_mem_singleton.mpr rfl) .upper (List.forall_mem_singleton.mpr rfl) rfl
  have bare : Encloses "00000000000000000000000000000000000000fE"
      (List.replicate 38 '0' ++ ['f', 'E']) :=
    .intro (List.forall_mem_nil _) .bare (List.forall_mem_nil _) rfl
  have written : (List.replicate 38 '0' ++ ['F', 'e']).map Char.toLower =
      Hex.digits (ofNat 254).toBytes := by decide
  have spells := Hex.spells_digits (ofNat 254).toBytes
  rw [← written, Hex.spells_map_toLower] at spells
  have read := (writes (ofNat 254)).2.2 _ _ capitals written
  exact ⟨read, (agree _ _ _ _ _ _ capitals bare spells (by decide)).mp read⟩

end Address

end EvmInspect
