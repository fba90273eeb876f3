import EvmInspect.Json.Printer
import EvmInspect.Json.Reading
import EvmInspect.Proofs.Bytes.HexTexts
import EvmInspect.Proofs.Node.Envelope
import EvmInspect.Trace.Document

/-!
# Bytes in documents

Bytes stand in a document as hexadecimal text, alone or in a list, so documents carry them as
faithfully as the text does. Writing and reading are not inverse to each other: many texts are read
as the same bytes. They are a retraction: what was written is read back, what was read is written in
one way only, and that way depends on the digits alone (`hexadecimal_retracts`). The same holds for
what is made of bytes (`Payload`), with the text of the document in between (`parse?_toText`).
-/

namespace EvmInspect.Json

/-! ## Payloads -/

/-- Byte strings one after the other, as they are written. -/
def ofChunks (chunks : List Bytes) : Json := .array (chunks.map Trace.bytesDocument)

/-- A record of bytes, and of bytes in chunks. -/
structure Payload where
  data : Bytes
  chunks : List Bytes
deriving DecidableEq

namespace Payload

/-- Both fields of a payload have to be there. -/
def read : Reader Payload := fun document => do
  match ← fields ["data", "chunks"] document with
  | [data, chunks] =>
    some {
      data := ← required readBytes data
      chunks := ← required (readList readBytes) chunks }
  | _ => none

def document (p : Payload) : Json :=
  .object [("data", Trace.bytesDocument p.data), ("chunks", ofChunks p.chunks)]

end Payload

/-! ## Reading -/

section Reading

variable {document : Json} {bs : Bytes} {chunks : List Bytes}

theorem readBytes_eq_some_iff :
    readBytes document = some bs ↔ ∃ text, document = .string text ∧ Hex.decode text = .ok bs := by
  cases document with
  | string text =>
    constructor
    · intro read
      refine ⟨text, rfl, ?_⟩
      rw [readBytes] at read
      cases decoded : Hex.decode text with
      | ok bs' =>
        rw [decoded] at read
        exact congrArg Except.ok (Option.some.inj read)
      | error cause =>
        rw [decoded] at read
        cases read
    · rintro ⟨_, ⟨⟩, decoded⟩
      rw [readBytes, decoded]
      rfl
  | _ => exact iff_of_false nofun nofun

theorem mapM_readBytes_eq_some_iff {items : List Json} :
    items.mapM readBytes = some chunks ↔
      List.Forall₂ (fun item bs => readBytes item = some bs) items chunks := by
  induction items generalizing chunks with
  | nil => simp [eq_comm]
  | cons item items ih =>
    rw [List.mapM_cons]
    constructor
    · intro read
      obtain ⟨bs, first, later⟩ := Option.bind_eq_some_iff.mp read
      obtain ⟨rest, all, same⟩ := Option.bind_eq_some_iff.mp later
      cases same
      exact .cons first (ih.mp all)
    · rintro (_ | ⟨first, rest⟩)
      rw [first, ih.mpr rest]
      rfl

/-- A list of byte strings is read exactly from the lists of which every item is read. -/
theorem readChunks_eq_some_iff :
    readList readBytes document = some chunks ↔
      ∃ items, document = .array items ∧
        List.Forall₂ (fun item bs => readBytes item = some bs) items chunks := by
  cases document with
  | array items =>
    rw [readList, mapM_readBytes_eq_some_iff]
    constructor
    · exact fun each => ⟨items, rfl, each⟩
    · rintro ⟨_, ⟨⟩, each⟩
      exact each
  | _ => exact iff_of_false nofun nofun

theorem exists_chunks_iff {items : List Json} :
    (∃ chunks, List.Forall₂ (fun item bs => readBytes item = some bs) items chunks) ↔
      ∀ item ∈ items, ∃ bs, readBytes item = some bs := by
  induction items with
  | nil => exact iff_of_true ⟨[], .nil⟩ nofun
  | cons item items ih =>
    rw [List.forall_mem_cons, ← ih]
    constructor
    · rintro ⟨_, _ | ⟨first, rest⟩⟩
      exact ⟨⟨_, first⟩, _, rest⟩
    · rintro ⟨⟨bs, first⟩, chunks, rest⟩
      exact ⟨bs :: chunks, .cons first rest⟩

theorem readBytes_bytesDocument (bs : Bytes) : readBytes (Trace.bytesDocument bs) = some bs :=
  readBytes_eq_some_iff.mpr ⟨_, rfl, Hex.decode_encode bs⟩

theorem readChunks_ofChunks (chunks : List Bytes) :
    readList readBytes (ofChunks chunks) = some chunks := by
  refine readChunks_eq_some_iff.mpr ⟨_, rfl, ?_⟩
  rw [List.forall₂_map_left_iff]
  exact List.forall₂_same.mpr fun bs _ => readBytes_bytesDocument bs

/-- A payload is read back from its document. -/
theorem Payload.read_document (p : Payload) : Payload.read p.document = some p := by
  have fields : Json.fields ["data", "chunks"] p.document =
      some [some (Trace.bytesDocument p.data), some (ofChunks p.chunks)] := rfl
  simp only [Payload.read, fields, Option.bind_eq_bind, Option.bind_some, required,
    readBytes_bytesDocument, readChunks_ofChunks]

end Reading

/-! ## Texts -/

section Texts

variable {s : String} {strings : List String}

theorem writtenString_plain (plain : ∀ c ∈ s.toList, IsPlain c) : writtenString s = quoted s := by
  have itself : ∀ c ∈ s.toList, writtenChar c = [c] := by
    intro c mem
    obtain ⟨quote, backslash, printable⟩ := plain c mem
    have other : ∀ control : Char, control.toNat < 32 → c ≠ control := by
      rintro control low rfl
      omega
    rw [writtenChar, if_neg quote, if_neg backslash, if_neg (other _ (by decide)),
      if_neg (other _ (by decide)), if_neg (other _ (by decide)), if_neg (other _ (by decide)),
      if_neg (other _ (by decide)), if_neg (Nat.not_lt.mpr printable)]
  have whole : s.toList.flatMap writtenChar = s.toList := by
    rw [List.flatMap_congr itself, List.flatMap_singleton']
  rw [writtenString, whole]
  rfl

/-- The tokens of strings, each after a comma. -/
def laterTokens (strings : List String) : List Token :=
  strings.flatMap fun s => [.comma, .text (some s)]

/-- The tokens of a list of strings. -/
def listTokens : List String → List Token
  | [] => [.openArray, .closeArray]
  | s :: rest => .openArray :: .text (some s) :: (laterTokens rest ++ [.closeArray])

theorem compactItems_cons (item : Json) (items : List Json) :
    compactItems (item :: items) =
      compact item ++ items.flatMap fun item => ',' :: compact item := by
  induction items generalizing item with
  | nil => rw [compactItems, List.flatMap_nil, List.append_nil]
  | cons next items ih =>
    rw [compactItems, ih, List.flatMap_cons, List.cons_append]
    exact List.cons_ne_nil next items

theorem lexFrom_later (plain : ∀ s ∈ strings, ∀ c ∈ s.toList, IsPlain c)
    (tokens : List Token) (rest : List Char) :
    lexFrom tokens .between ((strings.flatMap fun s => ',' :: writtenString s) ++ rest) =
      lexFrom ((laterTokens strings).reverse ++ tokens) .between rest := by
  induction strings generalizing tokens with
  | nil => rfl
  | cons s strings ih =>
    obtain ⟨first, later⟩ := List.forall_mem_cons.mp plain
    have comma : ∀ cs, lexFrom tokens .between (',' :: cs) =
        lexFrom (.comma :: tokens) .between cs := fun _ => rfl
    rw [List.flatMap_cons, List.append_assoc, List.cons_append, comma, writtenString_plain first,
      lexFrom_quoted first, ih later]
    simp [laterTokens]

/-- A list of plain strings is lexed string by string. -/
theorem lexFrom_list (plain : ∀ s ∈ strings, ∀ c ∈ s.toList, IsPlain c)
    (tokens : List Token) (rest : List Char) :
    lexFrom tokens .between (compact (.array (strings.map .string)) ++ rest) =
      lexFrom ((listTokens strings).reverse ++ tokens) .between rest := by
  have closed : ∀ tokens, lexFrom tokens .between (']' :: rest) =
      lexFrom (.closeArray :: tokens) .between rest := fun _ => rfl
  have opened : ∀ cs, lexFrom tokens .between ('[' :: cs) =
      lexFrom (.openArray :: tokens) .between cs := fun _ => rfl
  cases strings with
  | nil => rfl
  | cons s strings =>
    obtain ⟨first, later⟩ := List.forall_mem_cons.mp plain
    have items : compact (.array ((s :: strings).map .string)) ++ rest =
        '[' :: (quoted s ++
          ((strings.flatMap fun s => ',' :: writtenString s) ++ ']' :: rest)) := by
      rw [compact, List.map_cons, compactItems_cons, List.flatMap_map, compact,
        writtenString_plain first]
      simp only [compact, List.cons_append, List.append_assoc, List.nil_append]
    rw [items, opened, lexFrom_quoted first, lexFrom_later later, closed]
    simp [listTokens]

/-- After an item of an array, the rest of its strings and its end. -/
theorem parseFrom_later (strings : List String) (items : List Json) (outer : List Frame)
    (depth : Nat) (rest : List Token) :
    parseFrom (.array items :: outer) depth .afterItem
        (laterTokens strings ++ .closeArray :: rest) =
      parseFrom (put (atDepth depth (.array (items.reverse ++ strings.map .string))) outer).1
        (depth - 1) (put (atDepth depth (.array (items.reverse ++ strings.map .string))) outer).2
        rest := by
  induction strings generalizing items with
  | nil =>
    rw [List.map_nil, List.append_nil]
    rfl
  | cons s strings ih =>
    have step : parseFrom (.array items :: outer) depth .afterItem
        (laterTokens (s :: strings) ++ .closeArray :: rest) =
      parseFrom (.array (.string s :: items) :: outer) depth .afterItem
        (laterTokens strings ++ .closeArray :: rest) := rfl
    rw [step, ih, List.reverse_cons, List.append_assoc]
    rfl

/-- A list of strings is parsed from its tokens. -/
theorem parseFrom_list (strings : List String) (frames : List Frame) (depth : Nat)
    (rest : List Token) :
    parseFrom frames depth .value (listTokens strings ++ rest) =
      parseFrom (put (atDepth (depth + 1) (.array (strings.map .string))) frames).1 depth
        (put (atDepth (depth + 1) (.array (strings.map .string))) frames).2 rest := by
  cases strings with
  | nil => rfl
  | cons s strings =>
    have first : parseFrom frames depth .value (listTokens (s :: strings) ++ rest) =
        parseFrom (.array [.string s] :: frames) (depth + 1) .afterItem
          (laterTokens strings ++ .closeArray :: rest) := by
      rw [listTokens, List.cons_append, List.cons_append, List.append_assoc]
      rfl
    rw [first, parseFrom_later]
    rfl

theorem itemsReadable_strings (strings : List String) :
    itemsReadable (strings.map .string) = true := by
  induction strings with
  | nil => rfl
  | cons s strings ih => exact ih

/-- What stands in the text of a payload in front of its data. -/
def dataFront : List Char := "\x7b\"data\":".toList

/-- What stands in the text of a payload between its data and its chunks. -/
def chunksFront : List Char := ",\"chunks\":".toList

theorem lexFrom_dataFront (rest : List Char) :
    lexFrom [] .between (dataFront ++ rest) =
      lexFrom [.colon, .text (some "data"), .openObject] .between rest := rfl

theorem lexFrom_chunksFront (tokens : List Token) (rest : List Char) :
    lexFrom tokens .between (chunksFront ++ rest) =
      lexFrom (.colon :: .text (some "chunks") :: .comma :: tokens) .between rest := rfl

/-- The text of a payload's document is parsed as the document. -/
theorem Payload.parse?_toText (p : Payload) : parse? p.document.toText = some p.document := by
  have strings : p.chunks.map Trace.bytesDocument = (p.chunks.map Hex.encode).map .string := by
    rw [List.map_map]
    rfl
  have plain : ∀ s ∈ p.chunks.map Hex.encode, ∀ c ∈ s.toList, IsPlain c := by
    intro s mem
    obtain ⟨bs, _, rfl⟩ := List.mem_map.mp mem
    exact Hex.plain_encode bs
  have data := Hex.plain_encode p.data
  have written : compact p.document =
      dataFront ++ (quoted (Hex.encode p.data) ++ (chunksFront ++
        (compact (.array ((p.chunks.map Hex.encode).map .string)) ++ ['\x7d']))) := by
    rw [← writtenString_plain data, ← strings]
    simp only [document, ofChunks, Trace.bytesDocument, compact, compactMembers,
      List.append_assoc, List.cons_append]
    rfl
  have lexed : lex (compact p.document) = some (.openObject :: .text (some "data") :: .colon ::
      .text (some (Hex.encode p.data)) :: .comma :: .text (some "chunks") :: .colon ::
        (listTokens (p.chunks.map Hex.encode) ++ [.closeObject])) := by
    have closed : ∀ tokens, lexFrom tokens .between ['\x7d'] =
        some (.closeObject :: tokens : List Token).reverse := fun _ => rfl
    rw [lex, written, lexFrom_dataFront, lexFrom_quoted data, lexFrom_chunksFront,
      lexFrom_list plain, closed]
    simp
  have parsed : outline? p.document.toText = some p.document := by
    have opened : ∀ tokens, parseFrom [] 0 .value (.openObject :: .text (some "data") :: .colon ::
        .text (some (Hex.encode p.data)) :: .comma :: .text (some "chunks") :: .colon :: tokens) =
      parseFrom [.object [(some "data", .string (Hex.encode p.data))] (some "chunks")] 1 .value
        tokens := fun _ => rfl
    rw [outline?, toText, String.toList_ofList, lexed]
    dsimp only
    rw [opened, parseFrom_list, ← strings]
    rfl
  rw [parse?, parsed]
  refine Option.filter_eq_some_iff.mpr ⟨rfl, ?_⟩
  show (true && (itemsReadable (p.chunks.map Trace.bytesDocument) && true)) = true
  rw [strings, itemsReadable_strings]
  rfl

end Texts

/-! ## The retraction -/

/-- A text is read, and what was read is written. -/
def rewritten? (text : String) : Option String := (Hex.decode text).toOption.map Hex.encode

theorem rewritten?_of_decode {text : String} {bs : Bytes} (read : Hex.decode text = .ok bs) :
    rewritten? text = some (Hex.encode bs) := by
  rw [rewritten?, read]
  rfl

/-- What was written is written as it stands. -/
theorem rewritten?_idem {text written : String} (h : rewritten? text = some written) :
    rewritten? written = some written := by
  obtain ⟨bs, _, rfl⟩ := Option.map_eq_some_iff.mp h
  exact rewritten?_of_decode (Hex.decode_encode bs)

/-- Hexadecimal text is a retraction of bytes, and so are the documents that carry it. What was
written is read back. What is read is digits with a mark or without, and it is written with these
digits in lowercase, a zero in front of an odd number of them; neither the mark nor the case of the
digits counts. A list is read exactly if each of its items is. -/
theorem hexadecimal_retracts :
    (∀ bs, Hex.decode (Hex.encode bs) = .ok bs) ∧
    (∀ text, (∃ bs, Hex.decode text = .ok bs) ↔ ∃ cs, Hex.IsTextOf cs text) ∧
    (∀ cs text, Hex.IsTextOf cs text →
      ∃ bs, Hex.decode text = .ok bs ∧ Hex.encode bs = Hex.canonical cs) ∧
    (∀ cs cs' text text', Hex.IsTextOf cs text → Hex.IsTextOf cs' text' →
      cs.map Char.toLower = cs'.map Char.toLower → Hex.decode text = Hex.decode text') ∧
    (∀ text written, rewritten? text = some written → rewritten? written = some written) ∧
    (∀ p : Payload, Payload.read p.document = some p ∧
      (parse? p.document.toText).bind Payload.read = some p) ∧
    (∀ document, (∃ chunks, readList readBytes document = some chunks) ↔
      ∃ items, document = .array items ∧ ∀ item ∈ items, ∃ bs, readBytes item = some bs) := by
  refine ⟨Hex.decode_encode, fun text => Hex.exists_decode_iff, fun cs text h => h.exists_decode,
    fun cs cs' text text' h h' alike => h.decode_congr h' alike,
    fun text written => rewritten?_idem, fun p => ⟨p.read_document, ?_⟩, fun document => ?_⟩
  · rw [p.parse?_toText, Option.bind_some, p.read_document]
  · constructor
    · rintro ⟨chunks, read⟩
      obtain ⟨items, same, each⟩ := readChunks_eq_some_iff.mp read
      exact ⟨items, same, exists_chunks_iff.mp ⟨chunks, each⟩⟩
    · rintro ⟨items, same, each⟩
      obtain ⟨chunks, all⟩ := exists_chunks_iff.mpr each
      exact ⟨chunks, readChunks_eq_some_iff.mpr ⟨items, same, all⟩⟩

/-- Three digits after a mark are read as the same digits without one in the other case, and are
written with a zero in front. -/
theorem odd_capitals_retract :
    Hex.decode "0XaBc" = Hex.decode "AbC" ∧ rewritten? "0XaBc" = some "0x0abc" ∧
      rewritten? "0x0abc" = some "0x0abc" := by
  obtain ⟨_, _, reads, congr, idem, _⟩ := hexadecimal_retracts
  have marked : Hex.IsTextOf ['a', 'B', 'c'] "0XaBc" :=
    ⟨.upper, [10, 11, 12], .cons rfl (.cons rfl (.cons rfl .nil))⟩
  have bare : Hex.IsTextOf ['A', 'b', 'C'] "AbC" :=
    ⟨.bare, [10, 11, 12], .cons rfl (.cons rfl (.cons rfl .nil))⟩
  have alike : ['a', 'B', 'c'].map Char.toLower = ['A', 'b', 'C'].map Char.toLower := by decide
  obtain ⟨bs, read, written⟩ := reads _ _ marked
  have again : rewritten? "0XaBc" = some "0x0abc" := by
    rw [rewritten?_of_decode read, written]
    rfl
  exact ⟨congr _ _ _ _ marked bare alike, again, idem _ _ again⟩

end EvmInspect.Json
