import EvmInspect.Json.Basic

/-!
# Questions on the wire

A question is a method with parameters. A transport carries it to a node and brings back
what came of it; how it does so, and in which monad, is left to who makes the transport.
-/

namespace EvmInspect.Node

/-- A question to a node. -/
structure Request where
  method : String
  params : List Json

namespace Request

/-- The body that is sent. -/
def body (r : Request) : Json :=
  .object [
    ("jsonrpc", .string "2.0"),
    ("method", .string r.method),
    ("params", .array r.params),
    ("id", .integer 1)]

end Request

/-- What comes of one attempt to send a question. -/
inductive Reply where
  /-- The connection failed. -/
  | dropped (cause : String)
  | timedOut
  /-- A response with a status, the header that says when to ask again, and a body. -/
  | response (status : Nat) (retryAfter : Option String) (body : String)

/-- A way to a node. -/
structure Transport (m : Type → Type) where
  send : Request → m Reply
  /-- Waits for a number of milliseconds. -/
  pause : Nat → m Unit

end EvmInspect.Node
