import EvmInspect.Node.Error

/-!
# Asking again

A failure that may pass by itself is met by asking again, up to a number of attempts,
with a pause in between that doubles each time unless the node says how long to wait. A
failure of the first attempt is given as it is; one of a later attempt is given with the
number of attempts made.
-/

namespace EvmInspect.Node

/-- The longest pause, in milliseconds. -/
def longestPause : Nat := UInt64.size * 1000 - 1

/-- The pause after the `made`-th failed attempt, in milliseconds. -/
def pauseAfter (baseMs made : Nat) (e : RpcError) : Nat :=
  match e.retryAfterSeconds? with
  | some seconds => seconds.toNat * 1000
  | none => min (baseMs * min (Nat.pow 2 (made - 1)) (UInt32.size - 1)) longestPause

/-- The failure that the `made`-th attempt is answered with when it is the last. -/
def finalError (method : String) (made : Nat) (e : RpcError) : RpcError :=
  if made = 1 then e else .exhausted method made e

/-- Attempts until one succeeds, fails for good, or is the last allowed. `left` counts the
attempts allowed after this one, and this one is the `made`-th. -/
def retry {m : Type → Type} [Monad m] {α : Type} (method : String) (baseMs : Nat)
    (pause : Nat → m Unit) (attempt : m (Except RpcError α)) :
    (left made : Nat) → m (Except RpcError α)
  | 0, made => do
    match ← attempt with
    | .ok v => return .ok v
    | .error e => return .error (finalError method made e)
  | left + 1, made => do
    match ← attempt with
    | .ok v => return .ok v
    | .error e =>
      if e.isRetryable then
        pause (pauseAfter baseMs made e)
        retry method baseMs pause attempt left (made + 1)
      else return .error (finalError method made e)

/-- How many attempts are allowed after the first, counted in 32 bits. -/
def attemptsAfterFirst (maxRetries : Nat) : Nat := min (maxRetries + 1) (UInt32.size - 1) - 1

end EvmInspect.Node
