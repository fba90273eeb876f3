import EvmInspect.Proofs.Ledger.Determined
import EvmInspect.Proofs.Node.Attempts
import EvmInspect.Proofs.Node.Envelope

/-!
# A node in the place of the chain

A ledger over a node that answers for a chain gives what it would give over the chain itself,
operation by operation, and ends as the same ledger. The node may fail a question a few times
before it answers, as long as the failures are transient and no more than the client retries
(`Reaches`, `Serves`).

One question is followed through the client's attempts (`retry_reaches`): the answer is the
chain's (`ask_source`). A run puts nothing but such questions, so it is determined by the chain
(`sources_interchangeable`).

There are two limits. The client counts its attempts in 32 bits, so that one that is told to retry
as often as 32 bits can say makes no attempt after as many failures: it gives up at its last
(`call_gives_up`). And its parser refuses a document in which it finds a value that it cannot keep,
also where no one asks for this value (`call_refuses`). The bound on the failures leaves room for
the attempt that is answered, and the node's documents have to be `Readable`. What happens
otherwise is in `interchange_has_limits`.
-/

namespace EvmInspect.Node

open Ledger (Query Chain Source SourceError State)
open Ledger.State (Operation)

variable {σ : Type}

/-! ## One question -/

/-- From a state of the node on, the request is answered after transient failures, so many at
most, with the client's pauses between the attempts; the next attempt is the `made`-th. -/
inductive Reaches (client : Client) (transport : Transport (StateM σ)) (request : Request)
    (q : Query) (answer : q.Answer) : (failures made : Nat) → σ → Prop
  | answered {failures made s reply s'} : (transport.send request).run s = (reply, s') →
      reply.Bears q answer → Reaches client transport request q answer failures made s
  | delayed {failures made s reply s'} : (transport.send request).run s = (reply, s') →
      reply.IsTransient →
      Reaches client transport request q answer failures (made + 1)
        ((transport.pause (client.pauseAfterReply request.method made reply)).run s').2 →
      Reaches client transport request q answer (failures + 1) made s

section Question

variable {client : Client} {transport : Transport (StateM σ)} {request : Request}
variable {q : Query} {answer : q.Answer} {s s' : σ}

/-- With enough attempts left the client gets an answer that it reads as the value. -/
theorem retry_reaches {failures made left : Nat}
    (readable : ∀ s, ((transport.send request).run s).1.IsReadable)
    (h : Reaches client transport request q answer failures made s) (enough : failures ≤ left) :
    ∃ result, ((retry request.method client.config.baseBackoffMs transport.pause
        (do return readReply client request.method (← transport.send request)) left made).run s).1 =
        .ok result ∧ Client.readAnswer request.method q result = .ok answer := by
  induction h generalizing left with
  | @answered failures made s reply s' sent bears =>
    have plain := readable s
    rw [sent] at plain
    obtain ⟨result, read, value⟩ :=
      readReply_answers (Reply.answers_iff.mpr ⟨bears, plain⟩) client request.method
    have got := run_attempt client sent
    rw [read] at got
    exact ⟨result, congrArg Prod.fst (retry_ok got), value⟩
  | @delayed failures made s reply s' sent transient _ ih =>
    obtain ⟨e, read, retryable⟩ := readReply_transient transient client request.method
    have got := run_attempt client sent
    rw [read] at got
    cases left with
    | zero => exact absurd enough (Nat.not_succ_le_zero _)
    | succ left =>
      have pause : client.pauseAfterReply request.method made reply =
          pauseAfter client.config.baseBackoffMs made e := by
        rw [Client.pauseAfterReply, read]
      rw [pause] at ih
      rw [retry_again got retryable]
      exact ih (Nat.le_of_succ_le_succ enough)

/-- A client that meets nothing but transient failures gives up at the last attempt that is
allowed. -/
theorem call_gives_up
    (transient : ∀ i < attemptsAllowed client.config.maxRetries,
      (client.reply transport request s i).IsTransient) :
    ((client.call transport request).run s).1 =
      report request.method (attemptsAllowed client.config.maxRetries - 1)
        (client.outcome transport request s (attemptsAllowed client.config.maxRetries - 1)) := by
  have unsettled : ∀ i < attemptsAllowed client.config.maxRetries,
      settles (client.outcome transport request s i) = false := by
    intro i allowed
    obtain ⟨e, read, retryable⟩ := readReply_transient (transient i allowed) client request.method
    rw [Client.outcome, read, settles, retryable]
    rfl
  rw [run_call, lastAttempt_of_unsettled unsettled]

/-- A client refuses a success that is not readable, at the first attempt. -/
theorem call_refuses {reply : Reply} (sent : (transport.send request).run s = (reply, s'))
    (unreadable : ¬ reply.IsReadable) :
    ((client.call transport request).run s).1 = .error (.badReply request.method .badBody) := by
  have got := run_attempt client sent
  rw [readReply_unreadable unreadable] at got
  exact congrArg Prod.fst (retry_failed got (.inr rfl))

/-- What is asked of the node as a source is what comes of a call, read as an answer. -/
theorem ask_eq_call (q : Query) :
    (((client.source transport).ask q).run s).1 =
      (((client.call transport (client.request q)).run s).1.bind
        (Client.readAnswer (client.request q).method q)).mapError .rpc := by
  simp only [Client.source, Client.query, StateT.run_bind]
  cases (client.call transport (client.request q)).run s with
  | mk outcome s' => cases outcome <;> rfl

end Question

/-! ## A run -/

/-- The chain can be asked: an account always, a block if its hash is known. -/
def Knows (chain : Chain) : Query → Prop
  | .blockHash number => (chain.blockHashes.get? number).isSome = true
  | _ => True

/-- A node answers for a chain: it gives each request for something that is known its answer
after transient failures, so many at most. -/
def Serves (chain : Chain) (failures : Nat) (client : Client)
    (transport : Transport (StateM σ)) : Prop :=
  ∀ request q, request.query? client.block = some q → Knows chain q →
    ∀ s, Reaches client transport request q (chain.answer q) failures 1 s

/-- The client's parser refuses no document that a node replies with when it is asked for something
that is known. -/
def Readable (chain : Chain) (client : Client) (transport : Transport (StateM σ)) : Prop :=
  ∀ request q, request.query? client.block = some q → Knows chain q →
    ∀ s, ((transport.send request).run s).1.IsReadable

section Run

variable {chain : Chain} {client : Client} {transport : Transport (StateM σ)} {failures : Nat}

/-- The node's answer to a question is the chain's. -/
theorem ask_source (serves : Serves chain failures client transport)
    (readable : Readable chain client transport) (few : failures ≤ client.config.maxRetries)
    (counted : failures + 1 < UInt32.size) {q : Query} (known : Knows chain q) (s : σ) :
    (((client.source transport).ask q).run s).1 = .ok (chain.answer q) := by
  have enough : failures ≤ attemptsAfterFirst client.config.maxRetries := by
    unfold attemptsAfterFirst
    omega
  have asked := query?_request client q
  obtain ⟨result, got, value⟩ :=
    retry_reaches (readable _ q asked known) (serves _ q asked known s) enough
  have called : ((client.call transport (client.request q)).run s).1 = .ok result := got
  rw [ask_eq_call, called]
  show (Client.readAnswer (client.request q).method q result).mapError SourceError.rpc = _
  rw [value]
  rfl

/-- A read that the source fails gives the failure. -/
theorem outcomes_of_failed {source : Source (StateM σ)} {q : Query} {l : State} {s : σ}
    {cause : SourceError} (absent : l.held? q = none)
    (failed : ((source.ask q).run s).1 = .error cause) :
    State.outcomes source [.read q] l s = [.error (.source cause)] := by
  obtain ⟨s', asked⟩ : ∃ s', (source.ask q).run s = (.error cause, s') := ⟨_, Prod.ext failed rfl⟩
  simp only [State.outcomes, State.run, State.perform, State.read, absent, StateT.run_bind, asked]
  rfl

/-- Only hashes of known blocks are asked for. -/
def AsksKnown (chain : Chain) (ops : List Operation) : Prop :=
  ∀ number, .read (.blockHash number) ∈ ops → Knows chain (.blockHash number)

theorem AsksKnown.knows {ops : List Operation} (h : AsksKnown chain ops) :
    ∀ op ∈ ops, ∀ q ∈ Ledger.Eager.questions op, Knows chain q := by
  intro op mem q asked
  cases q with
  | blockHash number =>
    cases op with
    | read p =>
      cases List.mem_singleton.mp asked
      exact h number mem
    | load a => simp [Ledger.Eager.questions] at asked
    | _ => exact absurd asked List.not_mem_nil
  | _ => trivial

theorem answersFor_source (serves : Serves chain failures client transport)
    (readable : Readable chain client transport) (few : failures ≤ client.config.maxRetries)
    (counted : failures + 1 < UInt32.size) {ops : List Operation} (known : AsksKnown chain ops) :
    (client.source transport).AnswersFor chain.answer ops := by
  intro op mem q asked r reply
  obtain ⟨s, rfl⟩ := reply
  exact ask_source serves readable few counted (known.knows op mem q asked) s

theorem answersFor_chain {τ : Type} (chain : Chain) (ops : List Operation) :
    (chain.source : Source (StateM τ)).AnswersFor chain.answer ops := by
  intro op _ q _ r reply
  obtain ⟨s, rfl⟩ := reply
  rfl

end Run

/-! ## Nodes with a script -/

/-- A node that counts the attempts and replies by their number. -/
def scripted (script : Nat → Request → Reply) : Transport (StateM Nat) where
  send request := fun attempts => (script attempts request, attempts + 1)
  pause _ := pure ()

section Scripted

variable {client : Client} {script : Nat → Request → Reply} {request : Request} {q : Query}

/-- The attempt that is answered is reached if those before it fail transiently. -/
theorem reaches_scripted {answer : q.Answer} {i failures made n : Nat} (few : i ≤ failures)
    (transient : ∀ k < i, (script (n + k) request).IsTransient)
    (bears : (script (n + i) request).Bears q answer) :
    Reaches client (scripted script) request q answer failures made n := by
  induction i generalizing failures made n with
  | zero => exact .answered rfl bears
  | succ i ih =>
    cases failures with
    | zero => exact absurd few (Nat.not_succ_le_zero i)
    | succ failures =>
      refine .delayed rfl (transient 0 (Nat.succ_pos i)) ?_
      refine ih (n := n + 1) (Nat.le_of_succ_le_succ few) (fun k below => ?_) ?_
      · rw [Nat.add_assoc, Nat.add_comm 1 k]
        exact transient (k + 1) (Nat.succ_lt_succ below)
      · rwa [Nat.add_assoc, Nat.add_comm 1 i]

theorem before_scripted (i : Nat) : client.before (scripted script) request 0 i = i := by
  induction i with
  | zero => rfl
  | succ i ih =>
    rw [Client.before, ih]
    rfl

theorem reply_scripted (i : Nat) :
    client.reply (scripted script) request 0 i = script i request := by
  rw [Client.reply, before_scripted]
  rfl

end Scripted

/-! ## A node that hesitates -/

/-- A node that answers for a chain at every third attempt: at the first the connection drops,
at the second the node is busy. -/
def hesitant (chain : Chain) (block : UInt64) : Transport (StateM Nat) :=
  scripted fun attempts request =>
    if attempts % 3 = 0 then .dropped "connection reset"
    else if attempts % 3 = 1 then .response 503 (some "1") ""
    else chainReply chain block request

theorem serves_hesitant (chain : Chain) (client : Client) :
    Serves chain 2 client (hesitant chain client.block) := by
  intro request q means _ n
  refine reaches_scripted (i := 2 - n % 3) (Nat.sub_le 2 _) (fun k below => ?_) ?_
  · by_cases first : (n + k) % 3 = 0
    · rw [if_pos first]
      trivial
    · have second : (n + k) % 3 = 1 := by omega
      rw [if_neg first, if_pos second]
      exact Reply.isTransient_busy _ _
  · have third : (n + (2 - n % 3)) % 3 = 2 := by omega
    rw [third, if_neg (by decide), if_neg (by decide)]
    exact (answers_chainReply means).bears

theorem readable_hesitant (chain : Chain) (client : Client) :
    Readable chain client (hesitant chain client.block) := by
  intro request q means _ n
  show Reply.IsReadable (if n % 3 = 0 then _ else if n % 3 = 1 then _ else _)
  split
  next => trivial
  next =>
    split
    next => exact (Reply.isTransient_busy _ _).isReadable
    next => exact (answers_chainReply means).isReadable

/-! ## Nodes beyond the limits -/

/-- A node that is busy for so many attempts, and answers for a chain after them. -/
def busyFor (busy : Nat) (chain : Chain) (block : UInt64) : Transport (StateM Nat) :=
  scripted fun attempts request =>
    if attempts < busy then .response 503 none "" else chainReply chain block request

theorem serves_busyFor (busy : Nat) (chain : Chain) (client : Client) :
    Serves chain busy client (busyFor busy chain client.block) := by
  intro request q means _ n
  refine reaches_scripted (i := busy - n) (Nat.sub_le busy n) (fun k below => ?_) ?_
  · rw [if_pos (Nat.add_lt_of_lt_sub' below)]
    exact Reply.isTransient_busy _ _
  · have passed : ¬ n + (busy - n) < busy := by omega
    rw [if_neg passed]
    exact (answers_chainReply means).bears

theorem readable_busyFor (busy : Nat) (chain : Chain) (client : Client) :
    Readable chain client (busyFor busy chain client.block) := by
  intro request q means _ n
  show Reply.IsReadable (if n < busy then _ else _)
  split
  next => exact (Reply.isTransient_busy _ _).isReadable
  next => exact (answers_chainReply means).isReadable

/-- A node that is busy for as many attempts as are allowed is not asked again. -/
theorem ask_busyFor {client : Client} {busy : Nat}
    (many : attemptsAllowed client.config.maxRetries ≤ busy) (chain : Chain) (q : Query) :
    (((client.source (busyFor busy chain client.block)).ask q).run 0).1 =
      .error (.rpc (finalError (client.request q).method
        (attemptsAllowed client.config.maxRetries) (.http (client.request q).method 503 ""))) := by
  have meets : ∀ i < attemptsAllowed client.config.maxRetries,
      client.reply (busyFor busy chain client.block) (client.request q) 0 i =
        .response 503 none "" := by
    intro i allowed
    rw [busyFor, reply_scripted, if_pos (Nat.lt_of_lt_of_le allowed many)]
  have last : attemptsAllowed client.config.maxRetries - 1 <
      attemptsAllowed client.config.maxRetries := by
    rw [attemptsAllowed_eq]
    exact Nat.lt_succ_self _
  have gaveUp := call_gives_up fun i allowed => by
    rw [meets i allowed]
    exact Reply.isTransient_busy _ _
  rw [Client.outcome, meets _ last] at gaveUp
  have failed : readReply client (client.request q).method (.response 503 none "") =
      .error (.http (client.request q).method 503 "") := rfl
  rw [failed, report_error, Nat.sub_add_cancel (Nat.one_le_of_lt last)] at gaveUp
  rw [ask_eq_call, gaveUp]
  rfl

/-- A node that answers for a chain, but tells of a block a number that is too large. -/
def boasting (chain : Chain) (block : UInt64) : Transport (StateM Nat) :=
  scripted fun _ request =>
    match request.query? block with
    | some (.blockHash number) =>
      let hash := (chain.answer (.blockHash number)).bytes
      .response 200 none (envelopeText (blockText (Hex.encode hash) hugeMember))
    | _ => chainReply chain block request

theorem serves_boasting (chain : Chain) (client : Client) :
    Serves chain 0 client (boasting chain client.block) := by
  intro request q means _ n
  refine reaches_scripted (Nat.le_refl 0) (fun k below => absurd below (Nat.not_lt_zero k)) ?_
  have answered : (chainReply chain client.block request).Bears q (chain.answer q) :=
    (answers_chainReply means).bears
  simp only [means]
  cases q with
  | blockHash number =>
    exact ⟨by decide, _, _, outline_hugeMember (Hex.plain_encode _), rfl, rfl, _, rfl, rfl⟩
  | _ => exact answered

/-- A block with a number that is too large is refused. -/
theorem ask_boasting (client : Client) (chain : Chain) (number : UInt64) :
    (((client.source (boasting chain client.block)).ask (.blockHash number)).run 0).1 =
      .error (.rpc (.badReply "eth_getBlockByNumber" .badBody)) := by
  have asked := query?_request client (.blockHash number)
  have sent : ((boasting chain client.block).send (client.request (.blockHash number))).run 0 =
      (.response 200 none (envelopeText (blockText
        (Hex.encode (chain.answer (.blockHash number)).bytes) hugeMember)), 1) := by
    simp only [boasting, scripted, asked]
    rfl
  rw [ask_eq_call, call_refuses sent fun readable => ?_]
  · rfl
  · have parsed := readable (by decide)
    rw [Json.parse?, outline_hugeMember (Hex.plain_encode _)] at parsed
    cases parsed

/-! ## Interchange -/

/-- Over a node that answers for a chain, operations give the same and end in the same ledger
as over the chain. -/
theorem sources_interchangeable (chain : Chain) (client : Client) {τ : Type}
    (transport : Transport (StateM σ)) (failures : Nat)
    (serves : Serves chain failures client transport) (readable : Readable chain client transport)
    (few : failures ≤ client.config.maxRetries) (counted : failures + 1 < UInt32.size)
    (ops : List Operation) (known : AsksKnown chain ops) (l : State) (s : σ) (t : τ) :
    State.outcomes (client.source transport) ops l s =
        State.outcomes (chain.source : Source (StateM τ)) ops l t ∧
      State.after (client.source transport) ops l s =
        State.after (chain.source : Source (StateM τ)) ops l t :=
  (answersFor_source serves readable few counted known).same_run (answersFor_chain chain ops) l s t

/-- An account is loaded and a slot and a block are read through a node that hesitates at each
question. -/
theorem hesitant_interchangeable :
    let a := Address.ofNat 1
    let account : Ledger.ChainAccount :=
      { balance := 100, nonce := 7, code := [0x60], storage := .insert .empty 1 9 }
    let chain : Chain := ⟨.insert .empty a account, .insert .empty 5 (.ofWord 3)⟩
    let client : Client := ⟨"http://localhost:8545", 16, { maxRetries := 2 }⟩
    let ops : List Operation := [.load a, .read (.slot a 1), .read (.blockHash 5), .revert 1]
    (Serves chain 2 client (hesitant chain client.block) ∧
        Readable chain client (hesitant chain client.block) ∧ 2 ≤ client.config.maxRetries ∧
        2 + 1 < UInt32.size ∧ AsksKnown chain ops) ∧
      State.outcomes (client.source (hesitant chain client.block)) ops .empty 0 =
        [.ok .done, .ok (.bytes (Word.toBytes 9)), .ok (.hash (.ofWord 3)),
          .error (.snapshotNotFound 1)] ∧
      State.after (client.source (hesitant chain client.block)) ops .empty 0 =
        State.after (chain.source : Source (StateM Unit)) ops .empty () := by
  intro a account chain client ops
  have serves := serves_hesitant chain client
  have readable := readable_hesitant chain client
  have few : 2 ≤ client.config.maxRetries := by decide
  have counted : 2 + 1 < UInt32.size := by decide
  have known : AsksKnown chain ops := by
    intro number mem
    have five : number = 5 := by simpa [ops] using mem
    subst five
    show (chain.blockHashes.get? 5).isSome = true
    decide
  obtain ⟨same, last⟩ := sources_interchangeable chain client
    (hesitant chain client.block) 2 serves readable few counted ops known .empty 0 ()
  have plain : State.outcomes (chain.source : Source (StateM Unit)) ops .empty () =
      [.ok .done, .ok (.bytes (Word.toBytes 9)), .ok (.hash (.ofWord 3)),
        .error (.snapshotNotFound 1)] := by rfl
  exact ⟨⟨serves, readable, few, counted, known⟩, same.trans plain, last⟩

/-- A node in the place of the chain makes a difference at two limits. A client that retries as
often as 32 bits can say gives up on a node that is busy that often, though the next attempt would
be answered. And a client without any failure to get over refuses the block of a node that tells its
hash together with a number that is too large. -/
theorem interchange_has_limits :
    let chain : Chain := ⟨.empty, .insert .empty 5 (.ofWord 3)⟩
    let patient : Client := ⟨"http://localhost:8545", 16, { maxRetries := UInt32.size - 1 }⟩
    let client : Client := ⟨"http://localhost:8545", 16, {}⟩
    let busy := busyFor (UInt32.size - 1) chain 16
    let boasting := boasting chain 16
    let ops : List Operation := [.read (.blockHash 5)]
    (AsksKnown chain ops ∧
        State.outcomes (chain.source : Source (StateM Unit)) ops .empty () =
          [.ok (.hash (.ofWord 3))]) ∧
      (Serves chain patient.config.maxRetries patient busy ∧ Readable chain patient busy ∧
        State.outcomes (patient.source busy) ops .empty 0 =
          [.error (.source (.rpc (.exhausted "eth_getBlockByNumber" (UInt32.size - 1)
            (.http "eth_getBlockByNumber" 503 ""))))]) ∧
      (Serves chain 0 client boasting ∧
        State.outcomes (client.source boasting) ops .empty 0 =
          [.error (.source (.rpc (.badReply "eth_getBlockByNumber" .badBody)))]) := by
  intro chain patient client busy boasting ops
  have known : AsksKnown chain ops := by
    intro number mem
    have five : number = 5 := by simpa [ops] using mem
    subst five
    show (chain.blockHashes.get? 5).isSome = true
    decide
  refine ⟨⟨known, rfl⟩, ⟨serves_busyFor _ chain patient, readable_busyFor _ chain patient, ?_⟩,
    serves_boasting chain client, ?_⟩
  · exact outcomes_of_failed rfl (ask_busyFor (Nat.le_refl _) chain _)
  · exact outcomes_of_failed rfl (ask_boasting client chain 5)

end EvmInspect.Node
