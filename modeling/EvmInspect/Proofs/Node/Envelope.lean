import EvmInspect.Proofs.Node.Answers

/-!
# Responses as text

A node that follows the protocol writes its answers as text. Here is such a text for each
answer, in an envelope with the answer as its result (`responseText`), and the client's parser
finds the answer in it (`answers_responseText`). The only part of the text that varies is a
hexadecimal string, which the lexer takes as it stands (`lexFrom_plain`). A block may be told with
other members too, and then the text can be well written without being readable
(`outline_hugeMember`).
-/

namespace EvmInspect

namespace Json

/-- A character that stands for itself in a string. -/
def IsPlain (c : Char) : Prop := c ≠ '"' ∧ c ≠ '\\' ∧ 32 ≤ c.toNat

/-- A string of plain characters, as it is written. -/
def quoted (s : String) : List Char := '"' :: (s.toList ++ ['"'])

theorem lexFrom_plain {cs : List Char} (plain : ∀ c ∈ cs, IsPlain c) (tokens : List Token)
    (soFar : List Piece) (rest : List Char) :
    lexFrom tokens (.text soFar) (cs ++ '"' :: rest) =
      lexFrom (textToken ((cs.map Piece.char).reverse ++ soFar) :: tokens) .between rest := by
  induction cs generalizing soFar with
  | nil => rfl
  | cons c cs ih =>
    obtain ⟨⟨quote, backslash, printable⟩, later⟩ := List.forall_mem_cons.mp plain
    have step : step tokens (.text soFar) c = some (tokens, .text (.char c :: soFar)) := by
      simp only [Json.step, if_neg quote, if_neg backslash, if_neg (Nat.not_lt.mpr printable)]
    rw [List.cons_append, lexFrom, step]
    dsimp only
    rw [ih later, List.map_cons, List.reverse_cons, List.append_assoc]
    rfl

theorem characters?_map_char (cs : List Char) : Piece.characters? (cs.map Piece.char) = some cs := by
  induction cs with
  | nil => rfl
  | cons c cs ih => rw [List.map_cons, Piece.characters?, ih, Option.map_some]

/-- A string of plain characters is one token. -/
theorem lexFrom_quoted {s : String} (plain : ∀ c ∈ s.toList, IsPlain c) (tokens : List Token)
    (rest : List Char) :
    lexFrom tokens .between (quoted s ++ rest) =
      lexFrom (.text (some s) :: tokens) .between rest := by
  have opened : lexFrom tokens .between (quoted s ++ rest) =
      lexFrom tokens (.text []) (s.toList ++ '"' :: rest) := by
    rw [quoted, List.cons_append, List.append_assoc]
    rfl
  rw [opened, lexFrom_plain plain, List.append_nil, textToken, List.reverse_reverse,
    characters?_map_char, Option.map_some, String.ofList_toList]

end Json

namespace Hex

theorem isPlain_digit {c : Char} {d : Nat} (h : digitValue? c.toNat = some d) :
    Json.IsPlain c := by
  have value := digitValue?_eq_some h
  refine ⟨?_, ?_, by omega⟩
  · rintro rfl
    cases h
  · rintro rfl
    cases h

theorem Spells.plain {cs : List Char} {ds : List Nat} (h : Spells cs ds) :
    ∀ c ∈ cs, Json.IsPlain c := by
  induction h with
  | nil => exact fun _ mem => nomatch mem
  | cons first _ ih => exact List.forall_mem_cons.mpr ⟨isPlain_digit first, ih⟩

/-- Digits after a mark are plain. -/
theorem plain_marked {cs : List Char} {ds : List Nat} (h : Spells cs ds) :
    ∀ c ∈ (String.ofList ('0' :: 'x' :: cs)).toList, Json.IsPlain c := by
  have mark : Json.IsPlain '0' ∧ Json.IsPlain 'x' := by
    unfold Json.IsPlain
    decide
  rw [String.toList_ofList]
  exact List.forall_mem_cons.mpr ⟨mark.1, List.forall_mem_cons.mpr ⟨mark.2, h.plain⟩⟩

theorem plain_encode (bs : Bytes) : ∀ c ∈ (encode bs).toList, Json.IsPlain c :=
  plain_marked (spells_digits bs)

theorem plain_hex (n : Nat) : ∀ c ∈ (Numeral.hex n).toList, Json.IsPlain c := by
  obtain ⟨_, spells, _⟩ := exists_spells_toDigits n
  exact plain_marked spells

end Hex

namespace Node

open Ledger (Query Chain)

/-! ## The envelope -/

/-- What stands in an envelope in front of its result. -/
def envelopeFront : List Char := "\x7b\"jsonrpc\":\"2.0\",\"id\":1,\"result\":".toList

/-- The text of an envelope with a result. -/
def envelopeText (result : List Char) : String :=
  String.ofList (envelopeFront ++ (result ++ ['\x7d']))

/-- The tokens of an envelope in front of its result, the last one first. -/
def frontTokens : List Json.Token :=
  [.colon, .text (some "result"), .comma, .leaf (.integer 1), .colon, .text (some "id"), .comma,
    .text (some "2.0"), .colon, .text (some "jsonrpc"), .openObject]

theorem lexFrom_front (rest : List Char) :
    Json.lexFrom [] .between (envelopeFront ++ rest) = Json.lexFrom frontTokens .between rest := by
  unfold frontTokens
  rfl

theorem lex_envelopeText (result : List Char) :
    Json.lex (envelopeText result).toList =
      Json.lexFrom frontTokens .between (result ++ ['\x7d']) := by
  rw [envelopeText, String.toList_ofList, Json.lex, lexFrom_front]

/-- An envelope whose result is a string. -/
theorem parse_string {s : String} (plain : ∀ c ∈ s.toList, Json.IsPlain c) :
    Json.parse? (envelopeText (Json.quoted s)) =
      some (.object [("jsonrpc", .string "2.0"), ("id", .integer 1), ("result", .string s)]) := by
  rw [Json.parse?, Json.outline?, lex_envelopeText, Json.lexFrom_quoted plain]
  rfl

/-- The text of a block with its hash and, after a comma if there are any, other members. -/
def blockText (hash : String) (others : List Char) : List Char :=
  '\x7b' :: Json.quoted "hash" ++ ':' :: (Json.quoted hash ++ (others ++ ['\x7d']))

theorem lex_block {hash : String} (plain : ∀ c ∈ hash.toList, Json.IsPlain c)
    (others : List Char) :
    Json.lex (envelopeText (blockText hash others)).toList =
      Json.lexFrom (.text (some hash) :: .colon :: .text (some "hash") :: .openObject :: frontTokens)
        .between (others ++ ['\x7d'] ++ ['\x7d']) := by
  have opened : Json.lexFrom frontTokens .between (blockText hash others ++ ['\x7d']) =
      Json.lexFrom (.colon :: .text (some "hash") :: .openObject :: frontTokens) .between
        (Json.quoted hash ++ (others ++ ['\x7d'] ++ ['\x7d'])) := by
    rw [blockText, List.append_assoc, List.cons_append, List.cons_append, List.append_assoc]
    rfl
  rw [lex_envelopeText, opened, Json.lexFrom_quoted plain]

/-- A block of which only the hash is told. -/
theorem parse_block {hash : String} (plain : ∀ c ∈ hash.toList, Json.IsPlain c) :
    Json.parse? (envelopeText (blockText hash [])) =
      some (.object [("jsonrpc", .string "2.0"), ("id", .integer 1),
        ("result", .object [("hash", .string hash)])]) := by
  rw [Json.parse?, Json.outline?, lex_block plain]
  rfl

/-- A member whose number is beyond the floating format. -/
def hugeMember : List Char := ",\"totalDifficulty\":1e400".toList

/-- A block with a number that is too large is well written. -/
theorem outline_hugeMember {hash : String} (plain : ∀ c ∈ hash.toList, Json.IsPlain c) :
    Json.outline? (envelopeText (blockText hash hugeMember)) =
      some (.object [("jsonrpc", .string "2.0"), ("id", .integer 1),
        ("result", .object [("hash", .string hash), ("totalDifficulty", .unreadable)])]) := by
  rw [Json.outline?, lex_block plain]
  rfl

/-- The text of a response with the answer to a question. -/
def responseText : (q : Query) → q.Answer → String
  | .balance _, balance => envelopeText (Json.quoted (Numeral.hex balance.toNat))
  | .code _, code => envelopeText (Json.quoted (Hex.encode code))
  | .nonce _, nonce => envelopeText (Json.quoted (Numeral.hex nonce.toNat))
  | .slot _ _, value => envelopeText (Json.quoted (Hex.encode value))
  | .blockHash _, hash => envelopeText (blockText (Hex.encode hash.bytes) [])

/-- The text of a response is one with the answer. -/
theorem answers_responseText (q : Query) (answer : q.Answer) :
    (Reply.response 200 none (responseText q answer)).Answers q answer := by
  refine ⟨by decide, ?_⟩
  cases q with
  | balance a => exact ⟨_, _, parse_string (Hex.plain_hex _), rfl, rfl, rfl⟩
  | code a => exact ⟨_, _, parse_string (Hex.plain_encode _), rfl, rfl, rfl⟩
  | nonce a => exact ⟨_, _, parse_string (Hex.plain_hex _), rfl, rfl, rfl⟩
  | slot a key => exact ⟨_, _, parse_string (Hex.plain_encode _), rfl, rfl, rfl⟩
  | blockHash number => exact ⟨_, _, parse_block (Hex.plain_encode _), rfl, rfl, _, rfl, rfl⟩

/-- What a node that answers for a chain replies to a request, in the end. -/
def chainReply (chain : Chain) (block : UInt64) (request : Request) : Reply :=
  match request.query? block with
  | some q => .response 200 none (responseText q (chain.answer q))
  | none => .response 400 none ""

theorem answers_chainReply {chain : Chain} {block : UInt64} {request : Request} {q : Query}
    (means : request.query? block = some q) :
    (chainReply chain block request).Answers q (chain.answer q) := by
  simp only [chainReply, means]
  exact answers_responseText q _

end Node

end EvmInspect
