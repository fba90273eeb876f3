import EvmInspect.Proofs.Node.Answers

/-!
# How often a question is asked

A client asks until an attempt is answered or fails for good, or no more attempts are allowed.
For any node, `call_makes_attempts` says which attempt is the last, what is sent up to then and
what is reported of it. What the node would reply to further attempts is part of the statement
(`Client.reply`), so that the last attempt can be looked up among all outcomes
(`lastAttempt`).

The attempts are counted downwards in `retry`, which leaves no case in which none is made.
Counting upwards in 32 bits to a limit, with something to fall back on at the limit, comes to
the same: the counter does not wrap around, and the fallback is not reached
(`countedRetry_eq`).
-/

namespace EvmInspect.Node

/-! ## One attempt -/

/-- How long the client pauses after a reply to its `made`-th attempt. -/
def Client.pauseAfterReply (client : Client) (method : String) (made : Nat) (reply : Reply) :
    Nat :=
  match readReply client method reply with
  | .ok _ => 0
  | .error e => pauseAfter client.config.baseBackoffMs made e

section Retry

variable {σ α : Type} {method : String} {baseMs : Nat} {pause : Nat → StateM σ Unit}
variable {attempt : StateM σ (Except RpcError α)} {left made : Nat} {s s' : σ}

theorem retry_ok {v : α} (got : attempt.run s = (.ok v, s')) :
    (retry method baseMs pause attempt left made).run s = (.ok v, s') := by
  cases left with
  | zero =>
    simp only [retry, StateT.run_bind, got]
    rfl
  | succ left =>
    simp only [retry, StateT.run_bind, got]
    rfl

theorem retry_again {e : RpcError} (got : attempt.run s = (.error e, s'))
    (retryable : e.isRetryable = true) :
    (retry method baseMs pause attempt (left + 1) made).run s =
      (retry method baseMs pause attempt left (made + 1)).run
        ((pause (pauseAfter baseMs made e)).run s').2 := by
  simp only [retry, StateT.run_bind, got]
  show StateT.run (if e.isRetryable = true then _ else _) s' = _
  rw [if_pos retryable, StateT.run_bind]
  rfl

theorem retry_failed {e : RpcError}
    (got : attempt.run s = (.error e, s')) (final : left = 0 ∨ e.isRetryable = false) :
    (retry method baseMs pause attempt left made).run s =
      (.error (finalError method made e), s') := by
  cases left with
  | zero =>
    simp only [retry, StateT.run_bind, got]
    rfl
  | succ left =>
    have lasting : e.isRetryable = false := final.resolve_left (Nat.succ_ne_zero left)
    simp only [retry, StateT.run_bind, got]
    show StateT.run (if e.isRetryable = true then _ else _) s' = _
    rw [if_neg (Bool.eq_false_iff.mp lasting)]
    rfl

/-- An attempt comes to what the client makes of the reply. -/
theorem run_attempt (client : Client) {transport : Transport (StateM σ)} {request : Request}
    {reply : Reply}
    (sent : (transport.send request).run s = (reply, s')) :
    (do return readReply client request.method (← transport.send request) :
      StateM σ (Except RpcError Json)).run s = (readReply client request.method reply, s') := by
  simp only [StateT.run_bind, sent]
  rfl

end Retry

/-! ## The last attempt -/

section LastAttempt

variable {α : Type}

/-- An attempt settles the question if it was answered or failed for good. -/
def settles : Except RpcError α → Bool
  | .ok _ => true
  | .error e => !e.isRetryable

/-- How many attempts are allowed, counted in 32 bits. -/
def attemptsAllowed (maxRetries : Nat) : Nat := min (maxRetries + 1) (UInt32.size - 1)

/-- Of so many attempts the first that settles the question, or the last if none does. They are
counted from zero. -/
def lastAttempt (outcome : Nat → Except RpcError α) (allowed : Nat) : Nat :=
  ((List.range allowed).find? fun i => settles (outcome i)).getD (allowed - 1)

/-- What is reported if attempt `i` is the last: a failure of the first as it is, and one of a
later attempt with the number of attempts. -/
def report (method : String) (i : Nat) : Except RpcError α → Except RpcError α
  | .ok v => .ok v
  | .error e => if i = 0 then .error e else .error (.exhausted method (i + 1) e)

/-- The last attempt from attempt `i` on, with so many allowed after it. -/
def lastFrom (outcome : Nat → Except RpcError α) (i left : Nat) : Nat :=
  ((List.range' i (left + 1)).find? fun i => settles (outcome i)).getD (i + left)

variable {outcome : Nat → Except RpcError α} {i : Nat}

theorem attemptsAllowed_eq (maxRetries : Nat) :
    attemptsAllowed maxRetries = attemptsAfterFirst maxRetries + 1 := by
  have size : UInt32.size = 4294967296 := rfl
  rw [attemptsAllowed, attemptsAfterFirst]
  omega

theorem lastAttempt_succ (left : Nat) :
    lastAttempt outcome (left + 1) = lastFrom outcome 0 left := by
  rw [lastAttempt, lastFrom, List.range_eq_range', Nat.add_sub_cancel, Nat.zero_add]

theorem lastAttempt_lt {allowed : Nat} (some : 0 < allowed) :
    lastAttempt outcome allowed < allowed := by
  unfold lastAttempt
  cases found : (List.range allowed).find? fun i => settles (outcome i) with
  | none => exact Nat.sub_one_lt_of_lt some
  | some i => exact List.mem_range.mp (List.mem_of_find?_eq_some found)

/-- If no attempt settles the question, the last is the last that is allowed. -/
theorem lastAttempt_of_unsettled {allowed : Nat}
    (unsettled : ∀ i < allowed, settles (outcome i) = false) :
    lastAttempt outcome allowed = allowed - 1 := by
  have none : (List.range allowed).find? (fun i => settles (outcome i)) = none := by
    refine List.find?_eq_none.mpr fun i mem => ?_
    rw [unsettled i (List.mem_range.mp mem)]
    exact Bool.false_ne_true
  rw [lastAttempt, none, Option.getD_none]

theorem lastFrom_zero : lastFrom outcome i 0 = i := by
  unfold lastFrom
  cases settled : settles (outcome i) <;> simp [settled]

theorem lastFrom_of_settles (settled : settles (outcome i) = true) (left : Nat) :
    lastFrom outcome i left = i := by
  simp only [lastFrom, List.range'_succ, List.find?_cons, settled, Option.getD_some]

theorem lastFrom_again (unsettled : settles (outcome i) = false) (left : Nat) :
    lastFrom outcome i (left + 1) = lastFrom outcome (i + 1) left := by
  have onward : i + (left + 1) = i + 1 + left := by omega
  rw [lastFrom, List.range'_succ, List.find?_cons, unsettled, onward]
  rfl

end LastAttempt

/-! ## Attempts -/

section Attempts

variable {σ : Type} (client : Client) (transport : Transport (StateM σ)) (request : Request) (s : σ)

namespace Client

/-- The state of the node before attempt `i`, if the client goes on asking after each reply. -/
def before : (i : Nat) → σ
  | 0 => s
  | i + 1 =>
    let (reply, s') := (transport.send request).run (before i)
    ((transport.pause (client.pauseAfterReply request.method (i + 1) reply)).run s').2

/-- What the node replies to attempt `i`. -/
def reply (i : Nat) : Reply :=
  ((transport.send request).run (client.before transport request s i)).1

/-- The state of the node after attempt `i`. -/
def after (i : Nat) : σ :=
  ((transport.send request).run (client.before transport request s i)).2

/-- What comes of attempt `i`. -/
def outcome (i : Nat) : Except RpcError Json :=
  readReply client request.method (client.reply transport request s i)

end Client

variable {client transport request s}

theorem before_succ {i : Nat} {e : RpcError}
    (failed : client.outcome transport request s i = .error e) :
    client.before transport request s (i + 1) =
      ((transport.pause (pauseAfter client.config.baseBackoffMs (i + 1) e)).run
        (client.after transport request s i)).2 := by
  have pause : client.pauseAfterReply request.method (i + 1)
      (client.reply transport request s i) =
      pauseAfter client.config.baseBackoffMs (i + 1) e := by
    rw [Client.outcome] at failed
    rw [Client.pauseAfterReply, failed]
  rw [← pause]
  rfl

theorem report_error (method : String) (i : Nat) (e : RpcError) :
    report (α := Json) method i (.error e) = .error (finalError method (i + 1) e) := by
  unfold report finalError
  by_cases first : i = 0
  · simp only [first, if_true]
  · have later : ¬ i + 1 = 1 := by omega
    simp only [if_neg first, if_neg later]

/-- From attempt `i` on the client asks up to the last attempt, and reports what came of it. -/
theorem run_retry (i left : Nat) :
    (retry request.method client.config.baseBackoffMs transport.pause
        (do return readReply client request.method (← transport.send request)) left (i + 1)).run
          (client.before transport request s i) =
      (report request.method (lastFrom (client.outcome transport request s) i left)
          (client.outcome transport request s
            (lastFrom (client.outcome transport request s) i left)),
        client.after transport request s
          (lastFrom (client.outcome transport request s) i left)) := by
  have attempt : (do return readReply client request.method (← transport.send request) :
      StateM σ (Except RpcError Json)).run (client.before transport request s i) =
      (client.outcome transport request s i, client.after transport request s i) :=
    run_attempt client rfl
  induction left generalizing i with
  | zero =>
    rw [lastFrom_zero]
    cases result : client.outcome transport request s i with
    | ok v =>
      rw [result] at attempt
      exact retry_ok attempt
    | error e =>
      rw [result] at attempt
      rw [retry_failed attempt (.inl rfl), report_error]
  | succ left ih =>
    cases result : client.outcome transport request s i with
    | ok v =>
      have settled : settles (client.outcome transport request s i) = true := by rw [result]; rfl
      rw [result] at attempt
      rw [lastFrom_of_settles settled, result]
      exact retry_ok attempt
    | error e =>
      rw [result] at attempt
      cases retryable : e.isRetryable with
      | true =>
        have unsettled : settles (client.outcome transport request s i) = false := by
          rw [result, settles, retryable]
          rfl
        rw [retry_again attempt retryable, ← before_succ result, lastFrom_again unsettled]
        exact ih (i + 1) (run_attempt client rfl)
      | false =>
        have settled : settles (client.outcome transport request s i) = true := by
          rw [result, settles, retryable]
          rfl
        rw [lastFrom_of_settles settled, result, retry_failed attempt (.inr retryable),
          report_error]

/-- A call makes attempts up to the last and reports what came of it. -/
theorem run_call :
    (client.call transport request).run s =
      (report request.method
          (lastAttempt (client.outcome transport request s)
            (attemptsAllowed client.config.maxRetries))
          (client.outcome transport request s
            (lastAttempt (client.outcome transport request s)
              (attemptsAllowed client.config.maxRetries))),
        client.after transport request s
          (lastAttempt (client.outcome transport request s)
            (attemptsAllowed client.config.maxRetries))) := by
  rw [attemptsAllowed_eq, lastAttempt_succ]
  exact run_retry 0 (attemptsAfterFirst client.config.maxRetries)

theorem resultOf_ne_exhausted {method : String} {envelope : Json} {e : RpcError}
    (failed : resultOf method envelope = .error e) (other : String) (attempts : Nat)
    (last : RpcError) : e ≠ .exhausted other attempts last := by
  rintro rfl
  unfold resultOf at failed
  cases stated : envelope.get? "error" with
  | some error => simp [stated] at failed
  | none => cases result : envelope.get? "result" <;> simp [stated, result] at failed

/-- No single attempt fails with a number of attempts. -/
theorem readReply_ne_exhausted {client : Client} {method : String} {reply : Reply} {e : RpcError}
    (failed : readReply client method reply = .error e) (other : String) (attempts : Nat)
    (last : RpcError) : e ≠ .exhausted other attempts last := by
  cases reply with
  | dropped cause =>
    cases failed
    nofun
  | timedOut =>
    cases failed
    nofun
  | response status retryAfter body =>
    unfold readReply at failed
    dsimp only at failed
    split at failed
    · cases parsed : Json.parse? body with
      | some envelope =>
        rw [parsed] at failed
        exact resultOf_ne_exhausted failed other attempts last
      | none =>
        rw [parsed] at failed
        cases failed
        nofun
    · cases failed
      nofun

end Attempts

/-! ## What is sent -/

/-- What a client does to a node. -/
inductive Action where
  | sent (body : Json)
  | paused (ms : Nat)

/-- The body that an action sends. -/
def Action.body? : Action → Option Json
  | sent body => some body
  | paused _ => none

/-- The transport with a list of what was done through it. -/
def Transport.listing {σ : Type} (transport : Transport (StateM σ)) :
    Transport (StateM (σ × List Action)) where
  send request := fun (s, done) =>
    let (reply, s') := (transport.send request).run s
    (reply, s', done ++ [.sent request.body])
  pause ms := fun (s, done) => ((), ((transport.pause ms).run s).2, done ++ [.paused ms])

section Sent

variable {σ : Type} (client : Client) (transport : Transport (StateM σ)) (request : Request) (s : σ)

/-- What is done before attempt `i`: each attempt before sends the body, and a pause follows. -/
def Client.doneBefore (i : Nat) : List Action :=
  (List.range i).flatMap fun k =>
    [.sent request.body,
      .paused (client.pauseAfterReply request.method (k + 1) (client.reply transport request s k))]

/-- What is done up to attempt `i`. -/
def Client.doneUpTo (i : Nat) : List Action :=
  client.doneBefore transport request s i ++ [.sent request.body]

variable {client transport request s}

theorem doneBefore_succ (i : Nat) :
    client.doneBefore transport request s (i + 1) =
      client.doneUpTo transport request s i ++
        [.paused (client.pauseAfterReply request.method (i + 1)
          (client.reply transport request s i))] := by
  simp only [Client.doneUpTo, Client.doneBefore, List.range_succ, List.flatMap_append,
    List.flatMap_singleton, List.append_assoc]
  rfl

theorem before_listing (i : Nat) :
    client.before transport.listing request (s, []) i =
      (client.before transport request s i, client.doneBefore transport request s i) := by
  induction i with
  | zero => rfl
  | succ i ih =>
    rw [Client.before, ih, doneBefore_succ]
    rfl

theorem outcome_listing :
    client.outcome transport.listing request (s, []) = client.outcome transport request s := by
  funext i
  rw [Client.outcome, Client.reply, before_listing]
  rfl

theorem after_listing (i : Nat) :
    client.after transport.listing request (s, []) i =
      (client.after transport request s i, client.doneUpTo transport request s i) := by
  rw [Client.after, before_listing]
  rfl

theorem bodies_doneUpTo (i : Nat) :
    (client.doneUpTo transport request s i).filterMap Action.body? =
      List.replicate (i + 1) request.body := by
  rw [Client.doneUpTo, List.filterMap_append, List.replicate_succ']
  congr 1
  induction i with
  | zero => rfl
  | succ i ih =>
    rw [doneBefore_succ, Client.doneUpTo, List.filterMap_append, List.filterMap_append, ih,
      List.replicate_succ']
    exact List.append_nil _

end Sent

/-! ## Counting upwards -/

section Counted

variable {m : Type → Type} [Monad m] {α : Type}

theorem toNat_succ_of_lt {counter limit : UInt32} (below : counter < limit) :
    (counter + 1).toNat = counter.toNat + 1 := by
  have small := UInt32.lt_iff_toNat_lt.mp below
  have top := limit.toNat_lt
  rw [UInt32.toNat_add]
  exact Nat.mod_eq_of_lt (Nat.lt_of_le_of_lt small top)

/-- The same attempts with a counter of 32 bits that goes up to a limit. A pause comes before
each attempt that follows a failure; `fallback` is given when the counter is at the limit. -/
def countedRetry (method : String) (baseMs : Nat) (pause : Nat → m Unit)
    (attempt : m (Except RpcError α)) (fallback : m (Except RpcError α)) (limit : UInt32)
    (counter : UInt32) (last : Option RpcError) : m (Except RpcError α) :=
  if _below : counter < limit then do
    last.elim (pure ()) fun e => pause (pauseAfter baseMs counter.toNat e)
    match ← attempt with
    | .ok v => return .ok v
    | .error e =>
      if !e.isRetryable || limit ≤ counter + 1 then
        return .error (if 0 < counter then .exhausted method (counter + 1).toNat e else e)
      else countedRetry method baseMs pause attempt fallback limit (counter + 1) (some e)
  else fallback
termination_by limit.toNat - counter.toNat
decreasing_by
  have onward := toNat_succ_of_lt _below
  have small := UInt32.lt_iff_toNat_lt.mp _below
  omega

variable {method : String} {baseMs : Nat} {pause : Nat → m Unit}
variable {attempt fallback : m (Except RpcError α)} {limit : UInt32}

theorem finalError_counter {counter limit : UInt32} (below : counter < limit) (e : RpcError) :
    (if 0 < counter then .exhausted method (counter + 1).toNat e else e) =
      finalError method (counter.toNat + 1) e := by
  unfold finalError
  rw [toNat_succ_of_lt below]
  by_cases later : 0 < counter
  · have made : ¬ counter.toNat + 1 = 1 := by
      have positive : 0 < counter.toNat := UInt32.lt_iff_toNat_lt.mp later
      omega
    rw [if_pos later, if_neg made]
  · have made : counter.toNat + 1 = 1 := by
      have zero : ¬ 0 < counter.toNat := fun positive => later (UInt32.lt_iff_toNat_lt.mpr positive)
      omega
    rw [if_neg later, if_pos made]

/-- The attempts that are left below the limit are made, and nothing is fallen back on. -/
theorem countedRetry_eq [LawfulMonad m] {counter : UInt32} {left : Nat} (last : Option RpcError)
    (room : limit.toNat = counter.toNat + left + 1) :
    countedRetry method baseMs pause attempt fallback limit counter last =
      (last.elim (pure ()) fun e => pause (pauseAfter baseMs counter.toNat e)) >>= fun _ =>
        retry method baseMs pause attempt left (counter.toNat + 1) := by
  have below : counter < limit := UInt32.lt_iff_toNat_lt.mpr (by omega)
  have onward := toNat_succ_of_lt below
  rw [countedRetry, dif_pos below]
  refine bind_congr fun _ => ?_
  cases left with
  | zero =>
    have atLimit : limit ≤ counter + 1 := UInt32.le_iff_toNat_le.mpr (by omega)
    rw [retry]
    refine bind_congr fun result => ?_
    cases result with
    | ok v => rfl
    | error e =>
      simp only [atLimit, decide_true, Bool.or_true, if_true, finalError_counter below]
  | succ left =>
    have inside : ¬ limit ≤ counter + 1 := by
      rw [UInt32.le_iff_toNat_le]
      omega
    rw [retry]
    refine bind_congr fun result => ?_
    cases result with
    | ok v => rfl
    | error e =>
      cases retryable : e.isRetryable with
      | true =>
        have roomAfter : limit.toNat = (counter + 1).toNat + left + 1 := by omega
        simp only [retryable, inside, Bool.not_true, decide_false, Bool.or_self,
          Bool.false_eq_true, if_false, if_true, countedRetry_eq (some e) roomAfter, onward]
        rfl
      | false =>
        simp only [retryable, Bool.not_false, Bool.true_or, if_true, finalError_counter below,
          Bool.false_eq_true, if_false]

/-- A call with its attempts counted upwards. -/
def Client.countedCall (client : Client) (transport : Transport m)
    (fallback : m (Except RpcError Json)) (request : Request) : m (Except RpcError Json) :=
  countedRetry request.method client.config.baseBackoffMs transport.pause
    (do return readReply client request.method (← transport.send request)) fallback
    (UInt32.ofNat (attemptsAllowed client.config.maxRetries)) 0 none

theorem attemptsAllowed_lt (maxRetries : Nat) : attemptsAllowed maxRetries < UInt32.size :=
  Nat.lt_of_le_of_lt (Nat.min_le_right _ _) (by decide)

theorem countedCall_eq [LawfulMonad m] (client : Client) (transport : Transport m)
    (fallback : m (Except RpcError Json)) (request : Request) :
    client.countedCall transport fallback request = client.call transport request := by
  have room : (UInt32.ofNat (attemptsAllowed client.config.maxRetries)).toNat =
      (0 : UInt32).toNat + attemptsAfterFirst client.config.maxRetries + 1 := by
    rw [UInt32.toNat_ofNat_of_lt' (attemptsAllowed_lt _), attemptsAllowed_eq, UInt32.toNat_zero,
      Nat.zero_add]
  rw [Client.countedCall, countedRetry_eq none room]
  exact pure_bind _ _

end Counted

/-- The attempts of a call to any node, from whatever state of the node on: up to the first that
settles the question, or as many as are allowed, each sends the same body, and the outcome of the
last is reported. Attempts never fail with a number of attempts themselves, and counting them
upwards in 32 bits does not wrap around or end without an attempt. -/
theorem call_makes_attempts {σ : Type} (client : Client) (transport : Transport (StateM σ))
    (request : Request) (s : σ) :
    ∃ j, j = lastAttempt (client.outcome transport request s)
        (attemptsAllowed client.config.maxRetries) ∧
      (client.call transport.listing request).run (s, []) =
        (report request.method j (client.outcome transport request s j),
          client.after transport request s j, client.doneUpTo transport request s j) ∧
      (client.doneUpTo transport request s j).filterMap Action.body? =
        List.replicate (j + 1) request.body ∧
      j < attemptsAllowed client.config.maxRetries ∧
      attemptsAllowed client.config.maxRetries < UInt32.size ∧
      (∀ i e, client.outcome transport request s i = .error e →
        ∀ other attempts last, e ≠ .exhausted other attempts last) ∧
      ∀ fallback,
        client.countedCall transport fallback request = client.call transport request := by
  refine ⟨_, rfl, ?_, bodies_doneUpTo _, ?_, attemptsAllowed_lt _, ?_, ?_⟩
  · rw [run_call, outcome_listing, after_listing]
  · rw [attemptsAllowed_eq]
    exact lastAttempt_lt (Nat.succ_pos _)
  · intro i e failed
    exact readReply_ne_exhausted failed
  · intro fallback
    exact countedCall_eq client transport fallback request

end EvmInspect.Node
