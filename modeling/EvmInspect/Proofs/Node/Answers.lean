import EvmInspect.Node.Client
import EvmInspect.Proofs.Bytes.HexDigits

/-!
# Questions and answers between a client and a node

The node's side of the wire, said without the client. `Request.query?` reads a request as a node
does: the method, an address as 20 bytes, numbers as quantities without leading zeros, and the
block that the answer is to be about. `Writes` says how a node writes an answer. A response
carries it in a document that is well written (`Reply.Bears`), which is less than the client
needs: its parser has to read the document in full (`Reply.Answers`, `Reply.answers_iff`).

The client's side then fits: its requests mean the questions they are made for
(`query?_request`), and every answer that is written so is read as the value that was meant
(`readReply_answers`), whatever else stands in the envelope or in the block.
-/

namespace EvmInspect

/-! ## Documents -/

namespace Json

theorem lastOf_cons (name : String) (m : String × Json) (members : List (String × Json)) :
    lastOf name (m :: members) =
      (lastOf name members).or (if m.1 == name then some m.2 else none) := by
  unfold lastOf
  rw [List.reverse_cons, List.find?_append, Option.map_or]
  congr 1
  rw [List.find?_singleton]
  split <;> rfl

theorem lastOf_isSome {name : String} {members : List (String × Json)}
    (h : (members.any fun m => m.1 == name) = true) : (lastOf name members).isSome = true := by
  unfold lastOf
  rw [Option.isSome_map, List.find?_isSome]
  obtain ⟨m, mem, named⟩ := List.any_eq_true.mp h
  exact ⟨m, List.mem_reverse.mpr mem, named⟩

/-- The last member of a name is one of those that are kept. -/
theorem lastOf_keepLast (name : String) (members : List (String × Json)) :
    lastOf name (keepLast members) = lastOf name members := by
  induction members with
  | nil => rfl
  | cons m members ih =>
    unfold keepLast
    by_cases again : (members.any fun n => n.1 == m.1) = true
    · rw [if_pos again, ih, lastOf_cons]
      by_cases named : m.1 = name
      · subst named
        obtain ⟨value, last⟩ := Option.isSome_iff_exists.mp (lastOf_isSome again)
        rw [last, Option.some_or]
      · rw [if_neg (by simpa using named), Option.or_none]
    · rw [if_neg again, lastOf_cons, lastOf_cons, ih]

theorem lastOf_collapseMembers (name : String) (members : List (String × Json)) :
    lastOf name (collapseMembers members) = (lastOf name members).map collapse := by
  induction members with
  | nil => rfl
  | cons m members ih =>
    rw [collapseMembers, lastOf_cons, lastOf_cons, ih, Option.map_or]
    congr 1
    dsimp only
    split <;> rfl

/-- Taking away the repeated members of a document changes no look-up. -/
theorem get?_collapse (document : Json) (name : String) :
    document.collapse.get? name = (document.get? name).map collapse := by
  cases document with
  | object members => rw [collapse, get?, get?, lastOf_keepLast, lastOf_collapseMembers]
  | _ => rfl

end Json

namespace Node

open Ledger (Query Chain)

/-! ## Requests -/

/-- The number that a quantity writes: digits after `0x`, the first of them no zero unless it is
the only one. -/
def quantity? (text : String) : Option Nat :=
  match text.toList with
  | '0' :: 'x' :: digits =>
    if digits = [] ∨ digits.head? = some '0' ∧ digits ≠ ['0'] then none
    else (digits.mapM fun c => Hex.digitValue? c.toNat).map (Hex.number 0)
  | _ => none

/-- The address that 20 bytes after `0x` write. -/
def address? (text : String) : Option Address :=
  match text.toList with
  | '0' :: 'x' :: digits =>
    match Hex.decodeStrict (Hex.utf8 digits) with
    | .ok bytes => if bytes.length = 20 then some (Address.ofBytes bytes) else none
    | .error _ => none
  | _ => none

/-- The word that a quantity writes. -/
def word? (text : String) : Option Word :=
  (quantity? text).bind fun n => if n < Word.count then some (BitVec.ofNat 256 n) else none

/-- The 64-bit number that a quantity writes. -/
def number? (text : String) : Option UInt64 :=
  (quantity? text).bind fun n => if n < UInt64.size then some (UInt64.ofNat n) else none

/-- The account that a request is about, if it is asked about at this block. -/
def accountAt? (block : UInt64) (a tag : String) : Option Address :=
  if number? tag = some block then address? a else none

/-- The chain value that a request asks for, if it asks for one at this block. -/
def Request.query? (block : UInt64) (request : Request) : Option Query :=
  match request.method, request.params with
  | "eth_getBalance", [.string a, .string tag] => (accountAt? block a tag).map .balance
  | "eth_getCode", [.string a, .string tag] => (accountAt? block a tag).map .code
  | "eth_getTransactionCount", [.string a, .string tag] => (accountAt? block a tag).map .nonce
  | "eth_getStorageAt", [.string a, .string key, .string tag] =>
    (accountAt? block a tag).bind fun a => (word? key).map fun key => .slot a key
  | "eth_getBlockByNumber", [.string number, .bool false] => (number? number).map .blockHash
  | _, _ => none

theorem quantity?_hex (n : Nat) : quantity? (Numeral.hex n) = some n := by
  obtain ⟨ds, spells, same⟩ := Hex.exists_spells_toDigits n
  have plain : ¬ (Nat.toDigits 16 n = [] ∨
      (Nat.toDigits 16 n).head? = some '0' ∧ Nat.toDigits 16 n ≠ ['0']) := by
    rintro (none | ⟨zero, more⟩)
    · exact absurd none Nat.toDigits_ne_nil
    · rcases Nat.eq_zero_or_pos n with rfl | pos
      · exact more rfl
      · exact Hex.head?_toDigits pos zero
  unfold quantity? Numeral.hex
  rw [String.toList_ofList]
  show (if _ then none else _) = _
  rw [if_neg plain, spells.mapM_eq, Option.map_some, same]

theorem address?_hex (a : Address) : address? a.hex = some a := by
  unfold address? Address.hex Hex.encode
  rw [String.toList_ofList]
  simp only [Hex.decodeStrict_digits, if_pos a.length_toBytes, Address.ofBytes_toBytes]

theorem word?_hex (w : Word) : word? w.hex = some w := by
  unfold word? Word.hex
  rw [quantity?_hex, Option.bind_some, if_pos w.toNat_lt_count, BitVec.ofNat_toNat,
    BitVec.setWidth_eq]

theorem number?_hex (n : UInt64) : number? (Numeral.hex n.toNat) = some n := by
  unfold number?
  rw [quantity?_hex, Option.bind_some, if_pos n.toNat_lt, UInt64.ofNat_toNat]

theorem accountAt?_hex (block : UInt64) (a : Address) :
    accountAt? block a.hex (Numeral.hex block.toNat) = some a := by
  rw [accountAt?, if_pos (number?_hex block), address?_hex]

/-- A node reads the client's request for a chain value as the question it is made for. -/
theorem query?_request (client : Client) (q : Query) :
    (client.request q).query? client.block = some q := by
  cases q with
  | slot a key =>
    show (accountAt? client.block a.hex (Numeral.hex client.block.toNat)).bind
      (fun a => (word? key.hex).map fun key => Query.slot a key) = _
    rw [accountAt?_hex, word?_hex]
    rfl
  | blockHash number =>
    show (number? (Numeral.hex number.toNat)).map Query.blockHash = _
    rw [number?_hex]
    rfl
  | balance a => exact congrArg (Option.map Query.balance) (accountAt?_hex client.block a)
  | code a => exact congrArg (Option.map Query.code) (accountAt?_hex client.block a)
  | nonce a => exact congrArg (Option.map Query.nonce) (accountAt?_hex client.block a)

/-! ## Answers -/

/-- How a node writes the answer to a question: a balance and a nonce as the shortest quantity,
code and the word of a slot as their bytes, a block as an object that has its hash. -/
def Writes : (q : Query) → q.Answer → Json → Prop
  | .balance _, balance, written => written = .string (Numeral.hex balance.toNat)
  | .code _, code, written => written = .string (Hex.encode code)
  | .nonce _, nonce, written => written = .string (Numeral.hex nonce.toNat)
  | .slot _ _, value, written => written = .string (Hex.encode value)
  | .blockHash _, hash, written => ∃ members, written = .object members ∧
      Json.lastOf "hash" members = some (.string (Hex.encode hash.bytes))

/-- A successful response with an answer: no error, and the answer as the result. -/
def Reply.Answers (q : Query) (answer : q.Answer) : Reply → Prop
  | .response status _ body => (200 ≤ status ∧ status < 300) ∧
      ∃ envelope written, Json.parse? body = some envelope ∧ envelope.get? "error" = none ∧
        envelope.get? "result" = some written ∧ Writes q answer written
  | _ => False

/-- A successful response that bears an answer: its document is well written, though perhaps not
readable in full, and has no error, and the answer as the result. -/
def Reply.Bears (q : Query) (answer : q.Answer) : Reply → Prop
  | .response status _ body => (200 ≤ status ∧ status < 300) ∧
      ∃ envelope written, Json.outline? body = some envelope ∧ envelope.get? "error" = none ∧
        envelope.get? "result" = some written ∧ Writes q answer written
  | _ => False

/-- A reply that the client's parser does not refuse: the document of a success is readable. -/
def Reply.IsReadable : Reply → Prop
  | .response status _ body => 200 ≤ status ∧ status < 300 → (Json.parse? body).isSome = true
  | _ => True

/-- A failure that a node gets over by itself. -/
def Reply.IsTransient : Reply → Prop
  | .dropped _ => True
  | .timedOut => True
  | .response status _ _ => status = 429 ∨ status = 502 ∨ status = 503 ∨ status = 504

theorem Reply.answers_iff {q : Query} {answer : q.Answer} {reply : Reply} :
    reply.Answers q answer ↔ reply.Bears q answer ∧ reply.IsReadable := by
  cases reply with
  | dropped cause => exact ⟨False.elim, fun h => h.1⟩
  | timedOut => exact ⟨False.elim, fun h => h.1⟩
  | response status retryAfter body =>
    constructor
    · rintro ⟨success, envelope, written, parsed, carried⟩
      have outlined := (Option.filter_eq_some_iff.mp parsed).1
      exact ⟨⟨success, envelope, written, outlined, carried⟩, fun _ => Option.isSome_of_eq_some parsed⟩
    · rintro ⟨⟨success, envelope, written, outlined, carried⟩, readable⟩
      obtain ⟨document, parsed⟩ := Option.isSome_iff_exists.mp (readable success)
      have same := (Option.filter_eq_some_iff.mp parsed).1
      cases same.symm.trans outlined
      exact ⟨success, _, written, parsed, carried⟩

theorem Reply.Answers.bears {q : Query} {answer : q.Answer} {reply : Reply}
    (h : reply.Answers q answer) : reply.Bears q answer := (answers_iff.mp h).1

theorem Reply.Answers.isReadable {q : Query} {answer : q.Answer} {reply : Reply}
    (h : reply.Answers q answer) : reply.IsReadable := (answers_iff.mp h).2

/-- A node that is busy gets over it. -/
theorem Reply.isTransient_busy (retryAfter : Option String) (body : String) :
    (Reply.response 503 retryAfter body).IsTransient := .inr (.inr (.inl rfl))

theorem Reply.IsTransient.isReadable {reply : Reply} (h : reply.IsTransient) :
    reply.IsReadable := by
  cases reply with
  | dropped cause => trivial
  | timedOut => trivial
  | response status retryAfter body =>
    intro success
    simp only [Reply.IsTransient] at h
    omega

theorem stripLowerMark_hex (digits : List Char) :
    Word.stripLowerMark (String.ofList ('0' :: 'x' :: digits)).toList = digits := by
  rw [String.toList_ofList]
  rfl

theorem readBytes_encode (method : String) (bytes : Bytes) :
    readBytes method (.string (Hex.encode bytes)) = .ok bytes := by
  simp only [readBytes, hexString, Hex.decode_encode, Except.mapError]

theorem readWord_hex (method : String) (w : Word) :
    readWord method (.string (Numeral.hex w.toNat)) = .ok w := by
  simp only [readWord, hexString, Numeral.hex, stripLowerMark_hex, Word.ofHexDigits_toDigits,
    Except.mapError]

theorem readNumber_hex (method : String) (n : UInt64) :
    readNumber method (.string (Numeral.hex n.toNat)) = .ok n := by
  simp only [readNumber, hexString, Numeral.hex, stripLowerMark_hex,
    Numeral.readUInt64_toDigits, Except.mapError]

theorem readHash_encode (method : String) (hash : Hash) :
    readHash method (.string (Hex.encode hash.bytes)) = .ok hash := by
  simp only [readHash, readBytes_encode, Hash.ofBytes?, dif_pos hash.length_eq]

/-- The client reads a written answer as the value. -/
theorem readAnswer_collapse {q : Query} {answer : q.Answer} {written : Json}
    (h : Writes q answer written) (method : String) :
    Client.readAnswer method q written.collapse = .ok answer := by
  cases q with
  | balance a =>
    cases h
    exact readWord_hex method answer
  | code a =>
    cases h
    exact readBytes_encode method answer
  | nonce a =>
    cases h
    exact readNumber_hex method answer
  | slot a key =>
    cases h
    exact readBytes_encode method answer
  | blockHash number =>
    obtain ⟨members, rfl, hash⟩ := h
    have found : (Json.object members).collapse.get? "hash" =
        some (.string (Hex.encode answer.bytes)) := by
      rw [Json.get?_collapse]
      show (Json.lastOf "hash" members).map Json.collapse = _
      rw [hash]
      rfl
    show readBlock method (Json.object members).collapse = .ok answer
    rw [Json.collapse] at found ⊢
    simp only [readBlock, found, readHash_encode]

/-- A response with an answer is read as the answer. -/
theorem readReply_answers {q : Query} {answer : q.Answer} {reply : Reply}
    (h : reply.Answers q answer) (client : Client) (method : String) :
    ∃ result, readReply client method reply = .ok result ∧
      Client.readAnswer method q result = .ok answer := by
  cases reply with
  | dropped cause => exact h.elim
  | timedOut => exact h.elim
  | response status retryAfter body =>
    obtain ⟨success, envelope, written, parsed, noError, result, writes⟩ := h
    refine ⟨written.collapse, ?_, readAnswer_collapse writes method⟩
    have noError' : envelope.collapse.get? "error" = none := by
      rw [Json.get?_collapse, noError, Option.map_none]
    have result' : envelope.collapse.get? "result" = some written.collapse := by
      rw [Json.get?_collapse, result, Option.map_some]
    simp only [readReply, if_pos success, parsed, resultOf, noError', result']

/-- A success that is not readable is a failure to the client, whatever it bears. -/
theorem readReply_unreadable {reply : Reply} (h : ¬ reply.IsReadable) (client : Client)
    (method : String) : readReply client method reply = .error (.badReply method .badBody) := by
  cases reply with
  | dropped cause => exact absurd trivial h
  | timedOut => exact absurd trivial h
  | response status retryAfter body =>
    obtain ⟨success, refused⟩ := Classical.not_imp.mp h
    have nothing : Json.parse? body = none := by simpa using refused
    simp only [readReply, if_pos success, nothing]

/-- A transient failure is one that the client tries to get over. -/
theorem readReply_transient {reply : Reply} (h : reply.IsTransient) (client : Client)
    (method : String) :
    ∃ e, readReply client method reply = .error e ∧ e.isRetryable = true := by
  cases reply with
  | dropped cause => exact ⟨_, rfl, rfl⟩
  | timedOut => exact ⟨_, rfl, rfl⟩
  | response status retryAfter body =>
    have failed : ¬ (200 ≤ status ∧ status < 300) := by
      simp only [Reply.IsTransient] at h
      omega
    refine ⟨.http method status (failureBody retryAfter body), if_neg failed, ?_⟩
    simpa [RpcError.isRetryable, Reply.IsTransient, or_assoc] using h

end Node

end EvmInspect
