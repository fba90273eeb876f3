import EvmInspect.KeyMap
import EvmInspect.Node.Error

/-!
# Where chain values come from

A ledger asks five kinds of question about the chain. A source answers them, or fails;
the kind of answer depends on the question. A chain that is all known is the simplest
source: it answers every question at once, with zeros for what it does not hold.
-/

namespace EvmInspect.Ledger

/-- A question about the chain. -/
inductive Query where
  | balance (a : Address)
  | code (a : Address)
  | nonce (a : Address)
  | slot (a : Address) (key : Word)
  | blockHash (number : UInt64)
deriving DecidableEq

namespace Query

/-- What a question is answered with. -/
@[reducible] def Answer : Query → Type
  | balance _ => Word
  | code _ => Bytes
  | nonce _ => UInt64
  | slot _ _ => Bytes
  | blockHash _ => Hash

end Query

/-- Why a source has no answer. -/
inductive SourceError where
  | rpc (cause : Node.RpcError)
  | custom (text : String)
deriving DecidableEq

def SourceError.message : SourceError → String
  | rpc cause => cause.message
  | custom text => text

/-- A source of chain values. -/
structure Source (m : Type → Type) where
  ask : (q : Query) → m (Except SourceError q.Answer)

/-- An account as the chain holds it. -/
structure ChainAccount where
  balance : Word := 0
  nonce : UInt64 := 0
  code : Bytes := []
  storage : KeyMap Word Word := .empty

/-- The part of a chain that is known. -/
structure Chain where
  accounts : KeyMap Address ChainAccount := .empty
  blockHashes : KeyMap UInt64 Hash := .empty

namespace Chain

def account (c : Chain) (a : Address) : ChainAccount := (c.accounts.get? a).getD {}

/-- The chain's answer to a question. A slot is answered with the 32 bytes of its word. -/
def answer (c : Chain) : (q : Query) → q.Answer
  | .balance a => (c.account a).balance
  | .code a => (c.account a).code
  | .nonce a => (c.account a).nonce
  | .slot a key => (((c.account a).storage.get? key).getD 0).toBytes
  | .blockHash number => (c.blockHashes.get? number).getD .zero

/-- The source that knows the chain. -/
def source {m : Type → Type} [Monad m] (c : Chain) : Source m where
  ask q := pure (.ok (c.answer q))

end Chain

end EvmInspect.Ledger
