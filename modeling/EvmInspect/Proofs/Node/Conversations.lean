import EvmInspect.Proofs.Ledger.Asking
import EvmInspect.Proofs.Node.Attempts

/-!
# What a client and a node say to each other

A transport can take down each request with the reply to it (`Transport.recording`). What is taken
down while a client asks one question is told by `Tries`, and what is taken down while it asks
several by `Series`: both are about any node, in any state.

Three things follow of a series. If each reply is an answer, there is one request for each question,
in their order (`Series.atOnce`). If a reply is a failure that does not pass, it is the last one, and
the questions are not all answered (`Series.stops`). If they are, then by what was replied
(`Series.told`).
-/

namespace EvmInspect.Node

open Ledger (Query Answered SourceError)

/-- A request with the reply to it. -/
structure Exchange where
  request : Request
  reply : Reply

section Recording

variable {σ : Type}

/-- The transport, taking down what is said. -/
def Transport.recording (transport : Transport (StateM σ)) :
    Transport (StateM (σ × List Exchange)) where
  send request := fun (s, said) =>
    let (reply, s') := (transport.send request).run s
    (reply, s', said ++ [⟨request, reply⟩])
  pause ms := fun (s, said) => ((), ((transport.pause ms).run s).2, said)

/-- An exchange that may take place: in some state of its own, the node replies so. -/
def Transport.MaySay (transport : Transport (StateM σ)) (x : Exchange) : Prop :=
  ∃ s, ((transport.send x.request).run s).1 = x.reply

end Recording

namespace Client

/-- What the client makes of a reply to a question. -/
def understood (client : Client) (q : Query) (reply : Reply) : Except RpcError q.Answer :=
  (readReply client (client.request q).method reply).bind
    (readAnswer (client.request q).method q)

/-- The exchanges that come of asking a question and getting these replies. -/
def exchanges (client : Client) (q : Query) (replies : List Reply) : List Exchange :=
  replies.map fun reply => ⟨client.request q, reply⟩

/-- The replies to one question, and what the client makes of them: it asks again only after a
failure that may pass. -/
inductive Tries (client : Client) (q : Query) : List Reply → Except RpcError q.Answer → Prop
  | answered {reply v} : client.understood q reply = .ok v → Tries client q [reply] (.ok v)
  | failed {reply e e'} : client.understood q reply = .error e →
      Tries client q [reply] (.error e')
  | again {reply e replies r} : client.understood q reply = .error e → e.isRetryable = true →
      Tries client q replies r → Tries client q (reply :: replies) r

/-- What is said about questions one after the other, up to the first that is not answered, and
the answers. -/
inductive Series (client : Client) :
    List Query → List Exchange → Except SourceError (List Answered) → Prop
  | nil : Series client [] [] (.ok [])
  | answered {q v replies qs said r} : client.Tries q replies (.ok v) → Series client qs said r →
      Series client (q :: qs) (client.exchanges q replies ++ said) (r.map (⟨q, v⟩ :: ·))
  | failed {q e replies qs} : client.Tries q replies (.error e) →
      Series client (q :: qs) (client.exchanges q replies) (.error (.rpc e))

end Client

/-- The reply is an answer to what the request asks for. -/
def Exchange.IsAnswered (client : Client) (x : Exchange) : Prop :=
  ∃ q v, x.request = client.request q ∧ client.understood q x.reply = .ok v

/-- The reply is a failure that does not pass by itself. -/
def Exchange.FailsForGood (client : Client) (x : Exchange) : Prop :=
  ∃ q e, x.request = client.request q ∧ client.understood q x.reply = .error e ∧
    e.isRetryable = false

/-- It was said that this is the answer to a question. -/
def Client.IsTold (client : Client) (said : List Exchange) (q : Query) (v : q.Answer) : Prop :=
  ∃ x ∈ said, x.request = client.request q ∧ client.understood q x.reply = .ok v

/-! ## What is taken down -/

section Run

variable {σ : Type} {client : Client} {transport : Transport (StateM σ)} {q : Query}
variable {reply : Reply} {s s₁ : σ} {said : List Exchange} {left made : Nat}

namespace Client

/-- The attempts at a question, so many of them being left after the next. -/
def attempts {m : Type → Type} [Monad m] (client : Client) (transport : Transport m) (q : Query)
    (left made : Nat) : m (Except RpcError Json) :=
  retry (client.request q).method client.config.baseBackoffMs transport.pause
    (do return readReply client (client.request q).method (← transport.send (client.request q)))
    left made

/-- What was taken down while a question was asked: exchanges with the node about the question,
that end with its answer. -/
def Asks (client : Client) (transport : Transport (StateM σ)) (q : Query) (said : List Exchange)
    (answer : Except RpcError q.Answer) (after : σ × List Exchange) : Prop :=
  ∃ replies, after.2 = said ++ client.exchanges q replies ∧ client.Tries q replies answer ∧
    ∀ x ∈ client.exchanges q replies, transport.MaySay x

end Client

theorem understood_of_ok {result : Json}
    (read : readReply client (client.request q).method reply = .ok result) :
    client.understood q reply = Client.readAnswer (client.request q).method q result := by
  rw [Client.understood, read]
  rfl

theorem understood_of_error {e : RpcError}
    (read : readReply client (client.request q).method reply = .error e) :
    client.understood q reply = .error e := by
  rw [Client.understood, read]
  rfl

theorem Client.Tries.single (client : Client) (q : Query) (reply : Reply) :
    client.Tries q [reply] (client.understood q reply) := by
  cases meant : client.understood q reply with
  | ok v => exact .answered meant
  | error e => exact .failed meant

theorem run_recording_send {request : Request}
    (sent : (transport.send request).run s = (reply, s₁)) (said : List Exchange) :
    (transport.recording.send request).run (s, said) =
      (reply, s₁, said ++ [⟨request, reply⟩]) := by
  have taken : (transport.recording.send request).run (s, said) =
      (((transport.send request).run s).1, ((transport.send request).run s).2,
        said ++ [⟨request, ((transport.send request).run s).1⟩]) := rfl
  rw [taken, sent]

/-- A reply that settles the question, or the last one that is waited for. -/
theorem asks_settled (sent : (transport.send (client.request q)).run s = (reply, s₁))
    (last : left = 0 ∨ settles (readReply client (client.request q).method reply) = true) :
    client.Asks transport q said
      (((client.attempts transport.recording q left made).run (s, said)).1.bind
        (Client.readAnswer (client.request q).method q))
      ((client.attempts transport.recording q left made).run (s, said)).2 := by
  have may : transport.MaySay ⟨client.request q, reply⟩ := ⟨s, congrArg Prod.fst sent⟩
  have attempt := run_attempt client (run_recording_send sent said)
  cases read : readReply client (client.request q).method reply with
  | ok result =>
    rw [read] at attempt
    rw [Client.attempts, retry_ok attempt]
    refine ⟨[reply], rfl, ?_, List.forall_mem_singleton.mpr may⟩
    have single := Client.Tries.single client q reply
    rwa [understood_of_ok read] at single
  | error e =>
    rw [read] at attempt last
    have lasting : left = 0 ∨ e.isRetryable = false := last.imp_right (Bool.not_eq_true' _).mp
    rw [Client.attempts, retry_failed attempt lasting]
    exact ⟨[reply], rfl, .failed (understood_of_error read), List.forall_mem_singleton.mpr may⟩

/-- Whatever the node replies, the attempts at a question are tries. -/
theorem asks_attempts (left made : Nat) (s : σ) (said : List Exchange) :
    client.Asks transport q said
      (((client.attempts transport.recording q left made).run (s, said)).1.bind
        (Client.readAnswer (client.request q).method q))
      ((client.attempts transport.recording q left made).run (s, said)).2 := by
  induction left generalizing made s said with
  | zero => exact asks_settled rfl (.inl rfl)
  | succ left ih =>
    cases sent : (transport.send (client.request q)).run s with
    | mk reply s₁ =>
      cases settled : settles (readReply client (client.request q).method reply) with
      | true => exact asks_settled sent (.inr settled)
      | false =>
        cases read : readReply client (client.request q).method reply with
        | ok result =>
          rw [read] at settled
          cases settled
        | error e =>
          rw [read] at settled
          have retryable : e.isRetryable = true := (Bool.not_eq_false' _).mp settled
          have attempt := run_attempt client (run_recording_send sent said)
          rw [read] at attempt
          obtain ⟨replies, after, tries, may⟩ := ih (made + 1)
            ((transport.pause (pauseAfter client.config.baseBackoffMs made e)).run s₁).2
            (said ++ [⟨client.request q, reply⟩])
          rw [Client.attempts, retry_again attempt retryable]
          refine ⟨reply :: replies, ?_, .again (understood_of_error read) retryable tries, ?_⟩
          · exact after.trans (List.append_assoc said [_] _)
          · exact List.forall_mem_cons.mpr ⟨⟨s, congrArg Prod.fst sent⟩, may⟩

theorem call_eq_attempts {m : Type → Type} [Monad m] (client : Client) (transport : Transport m)
    (q : Query) :
    client.call transport (client.request q) =
      client.attempts transport q (attemptsAfterFirst client.config.maxRetries) 1 := rfl

/-- A question to any node is asked by tries. -/
theorem asks_query (client : Client) (transport : Transport (StateM σ)) (q : Query) (s : σ)
    (said : List Exchange) :
    client.Asks transport q said ((client.query transport.recording q).run (s, said)).1
      ((client.query transport.recording q).run (s, said)).2 := by
  have asks : client.Asks transport q said _ _ :=
    asks_attempts (attemptsAfterFirst client.config.maxRetries) 1 s said
  cases run : (client.attempts transport.recording q
    (attemptsAfterFirst client.config.maxRetries) 1).run (s, said) with
  | mk outcome after =>
    rw [run] at asks
    simp only [Client.query, call_eq_attempts, StateT.run_bind, run]
    cases outcome <;> exact asks

/-- What was taken down while questions were asked: exchanges with the node about them. -/
def Client.AsksAll (client : Client) (transport : Transport (StateM σ)) (qs : List Query)
    (said : List Exchange) (answers : Except SourceError (List Answered))
    (after : σ × List Exchange) : Prop :=
  ∃ new, after.2 = said ++ new ∧ client.Series qs new answers ∧ ∀ x ∈ new, transport.MaySay x

/-- Questions to any node, one after the other, make a series. -/
theorem asksAll_askAll (client : Client) (transport : Transport (StateM σ)) (qs : List Query)
    (s : σ) (said : List Exchange) :
    client.AsksAll transport qs said
      (((client.source transport.recording).askAll qs).run (s, said)).1
      (((client.source transport.recording).askAll qs).run (s, said)).2 := by
  induction qs generalizing s said with
  | nil => exact ⟨[], (List.append_nil said).symm, .nil, List.forall_mem_nil _⟩
  | cons q qs ih =>
    obtain ⟨replies, after, tries, may⟩ := asks_query client transport q s said
    have asked : ((client.source transport.recording).ask q).run (s, said) =
        (((client.query transport.recording q).run (s, said)).1.mapError .rpc,
          ((client.query transport.recording q).run (s, said)).2) := rfl
    cases queried : (client.query transport.recording q).run (s, said) with
    | mk outcome t =>
      obtain ⟨s₁, said₁⟩ := t
      rw [queried] at asked after tries
      cases after
      cases outcome with
      | error e =>
        rw [Ledger.run_askAll_cons_of_error asked]
        exact ⟨_, rfl, .failed tries, may⟩
      | ok v =>
        obtain ⟨later, after, series, mayLater⟩ := ih s₁ (said ++ client.exchanges q replies)
        rw [Ledger.run_askAll_cons asked]
        refine ⟨client.exchanges q replies ++ later, ?_, .answered tries series, ?_⟩
        · rw [← List.append_assoc]
          exact after
        · exact List.forall_mem_append.mpr ⟨may, mayLater⟩

end Run

/-! ## What follows -/

section Follows

variable {client : Client} {q : Query} {replies : List Reply} {qs : List Query}
variable {said : List Exchange}

/-- Different questions make different requests. -/
theorem Client.request_inj {p : Query} (same : client.request p = client.request q) : p = q := by
  have meaning := congrArg (Request.query? client.block) same
  rw [query?_request, query?_request] at meaning
  exact Option.some.inj meaning

/-- A response with an answer comes to the answer. -/
theorem understood_of_answers {v : q.Answer} {reply : Reply} (answers : reply.Answers q v)
    (client : Client) : client.understood q reply = .ok v := by
  obtain ⟨result, read, value⟩ := readReply_answers answers client (client.request q).method
  exact (understood_of_ok read).trans value

theorem mem_exchanges {x : Exchange} :
    x ∈ client.exchanges q replies ↔ x.request = client.request q ∧ x.reply ∈ replies := by
  rw [Client.exchanges, List.mem_map]
  constructor
  · rintro ⟨reply, mem, rfl⟩
    exact ⟨rfl, mem⟩
  · rintro ⟨about, mem⟩
    exact ⟨x.reply, mem, by rw [← about]⟩

/-- An answered request is answered to the one question that it is about. -/
theorem Exchange.IsAnswered.of_request {x : Exchange} (answered : x.IsAnswered client)
    (about : x.request = client.request q) : ∃ v, client.understood q x.reply = .ok v := by
  obtain ⟨p, v, same, meant⟩ := answered
  cases Client.request_inj (same.symm.trans about)
  exact ⟨v, meant⟩

theorem Exchange.FailsForGood.of_request {x : Exchange} (fails : x.FailsForGood client)
    (about : x.request = client.request q) :
    ∃ e, client.understood q x.reply = .error e ∧ e.isRetryable = false := by
  obtain ⟨p, e, same, meant⟩ := fails
  cases Client.request_inj (same.symm.trans about)
  exact ⟨e, meant⟩

theorem Client.IsTold.mono {more : List Exchange} {v : q.Answer} (h : client.IsTold said q v)
    (sub : said ⊆ more) : client.IsTold more q v := by
  obtain ⟨x, mem, told⟩ := h
  exact ⟨x, sub mem, told⟩

namespace Client.Tries

variable {r : Except RpcError q.Answer}

/-- A question whose first reply is an answer is not asked again. -/
theorem atOnce (h : client.Tries q replies r)
    (prompt : ∀ reply ∈ replies, ∃ v, client.understood q reply = .ok v) :
    ∃ reply v, replies = [reply] ∧ r = .ok v := by
  cases h with
  | @answered reply v meant => exact ⟨reply, v, rfl, rfl⟩
  | failed meant =>
    obtain ⟨v, answer⟩ := prompt _ List.mem_cons_self
    cases meant.symm.trans answer
  | again meant _ _ =>
    obtain ⟨v, answer⟩ := prompt _ List.mem_cons_self
    cases meant.symm.trans answer

/-- After a failure that does not pass, a question is not asked again. -/
theorem stops {before after : List Reply} {reply : Reply} {e : RpcError}
    (h : client.Tries q replies r) (split : replies = before ++ reply :: after)
    (meant : client.understood q reply = .error e) (lasting : e.isRetryable = false) :
    after = [] ∧ ∃ e', r = .error e' := by
  induction h generalizing before with
  | answered answer =>
    cases before with
    | nil =>
      cases split
      cases answer.symm.trans meant
    | cons _ _ => simp at split
  | failed _ =>
    cases before with
    | nil =>
      cases split
      exact ⟨rfl, _, rfl⟩
    | cons _ _ => simp at split
  | again passing retryable _ ih =>
    cases before with
    | nil =>
      cases split
      cases passing.symm.trans meant
      cases retryable.symm.trans lasting
    | cons _ _ => exact ih (List.cons.inj split).2

/-- The same of the exchanges about the question. -/
theorem exchanges_stop {before after : List Exchange} {x : Exchange}
    (h : client.Tries q replies r) (split : client.exchanges q replies = before ++ x :: after)
    (fails : x.FailsForGood client) : after = [] ∧ ∃ e', r = .error e' := by
  obtain ⟨early, rest, rfl, _, others⟩ := List.map_eq_append_iff.mp split
  obtain ⟨reply, late, rfl, rfl, rfl⟩ := List.map_eq_cons_iff.mp others
  obtain ⟨e, meant, lasting⟩ := fails.of_request rfl
  obtain ⟨rfl, failed⟩ := h.stops rfl meant lasting
  exact ⟨rfl, failed⟩

/-- An answer is what a reply comes to. -/
theorem told {v : q.Answer} (h : client.Tries q replies (.ok v)) :
    client.IsTold (client.exchanges q replies) q v := by
  generalize answered : (.ok v : Except RpcError q.Answer) = r at h
  induction h with
  | answered meant =>
    cases answered
    exact ⟨_, List.mem_singleton_self _, rfl, meant⟩
  | failed _ => cases answered
  | again _ _ _ ih =>
    obtain ⟨x, mem, told⟩ := ih answered
    exact ⟨x, List.mem_cons_of_mem _ mem, told⟩

end Client.Tries

namespace Client.Series

variable {answers : Except SourceError (List Answered)}

/-- A node that answers each request at once gets one for each question, in their order. -/
theorem atOnce (h : client.Series qs said answers) (prompt : ∀ x ∈ said, x.IsAnswered client) :
    said.map Exchange.request = qs.map client.request ∧ ∃ xs, answers = .ok xs := by
  have heard {q : Query} {replies : List Reply}
      (each : ∀ x ∈ client.exchanges q replies, x.IsAnswered client) :
      ∀ reply ∈ replies, ∃ v, client.understood q reply = .ok v := fun reply mem =>
    (each ⟨client.request q, reply⟩ (mem_exchanges.mpr ⟨rfl, mem⟩)).of_request rfl
  induction h with
  | nil => exact ⟨rfl, [], rfl⟩
  | answered tries _ ih =>
    obtain ⟨now, later⟩ := List.forall_mem_append.mp prompt
    obtain ⟨reply, v, rfl, _⟩ := tries.atOnce (heard now)
    obtain ⟨requests, xs, rfl⟩ := ih later
    refine ⟨?_, _, rfl⟩
    rw [List.map_append, requests, List.map_cons]
    rfl
  | failed tries =>
    obtain ⟨_, _, _, wrong⟩ := tries.atOnce (heard prompt)
    cases wrong

/-- After a failure that does not pass nothing is asked. -/
theorem stops {before after : List Exchange} {x : Exchange}
    (h : client.Series qs said answers) (split : said = before ++ x :: after)
    (fails : x.FailsForGood client) : after = [] ∧ ∃ cause, answers = .error cause := by
  induction h generalizing before with
  | nil => cases before <;> cases split
  | answered tries _ ih =>
    rcases List.append_eq_append_iff.mp split with ⟨between, _, later⟩ | ⟨between, first, later⟩
    · obtain ⟨rfl, cause, rfl⟩ := ih later
      exact ⟨rfl, cause, rfl⟩
    · cases between with
      | nil =>
        obtain ⟨rfl, cause, rfl⟩ := @ih [] later.symm
        exact ⟨rfl, cause, rfl⟩
      | cons y between =>
        cases later
        obtain ⟨_, _, wrong⟩ := tries.exchanges_stop first fails
        cases wrong
  | failed tries =>
    obtain ⟨rfl, _⟩ := tries.exchanges_stop split fails
    exact ⟨rfl, _, rfl⟩

/-- Answers are told by what is said. -/
theorem told {xs : List Answered} (h : client.Series qs said (.ok xs)) :
    ∀ x ∈ xs, client.IsTold said x.query x.answer := by
  generalize answered : (.ok xs : Except SourceError (List Answered)) = r at h
  induction h generalizing xs with
  | nil =>
    cases answered
    exact List.forall_mem_nil _
  | @answered q v replies qs said r tries _ ih =>
    cases r with
    | error cause => cases answered
    | ok ys =>
      cases answered
      refine List.forall_mem_cons.mpr ⟨tries.told.mono (List.subset_append_left _ _), ?_⟩
      exact fun x mem => (ih rfl x mem).mono (List.subset_append_right _ _)
  | failed _ => cases answered

/-- Nothing is requested but what is asked. -/
theorem request_mem (h : client.Series qs said answers) :
    ∀ x ∈ said, x.request ∈ qs.map client.request := by
  induction h with
  | nil => exact List.forall_mem_nil _
  | answered _ _ ih =>
    refine List.forall_mem_append.mpr ⟨fun x mem => ?_, fun x mem => ?_⟩
    · exact List.mem_cons.mpr (.inl (mem_exchanges.mp mem).1)
    · exact List.mem_cons_of_mem _ (ih x mem)
  | failed _ => exact fun x mem => List.mem_cons.mpr (.inl (mem_exchanges.mp mem).1)

end Client.Series

end Follows

end EvmInspect.Node
