import EvmInspect.Text.Blank
import EvmInspect.Word.Text

/-!
# Failures of a node

What can go wrong between a question and its answer: the connection, the time, the HTTP
status, an error that the node states, or an answer that is not of the expected form.
Some failures pass by themselves, so the question is worth asking again.
-/

namespace EvmInspect.Node

/-- What is wrong with the form of an answer. -/
inductive ReplyFault where
  /-- The body is not one JSON document. -/
  | badBody
  /-- The envelope has neither a result nor an error. -/
  | noResult
  | blockNotFound
  | noHash
  /-- The kind of value that was asked for is written as a hexadecimal string. -/
  | notHexString (kind : String)
  | badBytes (cause : HexError)
  | badNumber (cause : NumeralError)
  | badWord (cause : WordError)
  | badHashLength (bytes : Nat)
  | other (field cause : String)
deriving DecidableEq

namespace ReplyFault

/-- The part of the answer that is at fault. -/
def field : ReplyFault → String
  | badBody => "response_body"
  | noResult => "result"
  | blockNotFound => "result"
  | noHash => "hash"
  | notHexString kind => kind
  | badBytes _ => "bytes"
  | badNumber _ => "u64"
  | badWord _ => "U256"
  | badHashLength _ => "H256"
  | other field _ => field

def cause : ReplyFault → String
  | badBody => "error decoding response body"
  | noResult => "missing result field"
  | blockNotFound => "block not found"
  | noHash => "missing"
  | notHexString _ => "expected hex string"
  | badBytes cause => cause.message
  | badNumber cause => cause.message
  | badWord cause => cause.message
  | badHashLength bytes => s!"expected 32 bytes, got {bytes}"
  | other _ cause => cause

end ReplyFault

/-- Why a question to a node has no answer. -/
inductive RpcError where
  | connectionFailed (url cause : String)
  | timeout (method : String) (elapsedMs : Nat)
  | http (method : String) (status : Nat) (body : String)
  /-- The node states an error. -/
  | stated (method : String) (code : Int) (text : String)
  | badReply (method : String) (fault : ReplyFault)
  /-- The question was asked more than once, and the last attempt failed too. -/
  | exhausted (method : String) (attempts : Nat) (last : RpcError)
deriving DecidableEq

namespace RpcError

/-- The wording of the error. -/
def message : RpcError → String
  | connectionFailed url cause => s!"Connection to {url} failed: {cause}"
  | timeout method elapsedMs => s!"{method} timed out after {elapsedMs}ms"
  | http method status body => s!"{method} HTTP {status}: {body}"
  | stated method code text => s!"{method} JSON-RPC error {Numeral.decimal code}: {text}"
  | badReply method fault => s!"{method} response parse error in {fault.field}: {fault.cause}"
  | exhausted method attempts last => s!"{method} failed after {attempts} attempt(s): {last.message}"

/-- Whether the failure may pass by itself: the connection, the time, and the statuses of
a node that is busy or out of reach. -/
def isRetryable : RpcError → Bool
  | connectionFailed _ _ => true
  | timeout _ _ => true
  | http _ status _ => status == 429 || status == 502 || status == 503 || status == 504
  | _ => false

/-- What stands in front of a hint in the body of an HTTP failure. -/
def hintMark : String := "retry-after:"

/-- After how many seconds a node that turns questions away wants to be asked again. -/
def retryAfterSeconds? : RpcError → Option UInt64
  | http _ 429 body =>
    if hintMark.toList.isPrefixOf body.toList then
      (Numeral.readUInt64 10 (Text.trim (body.toList.drop hintMark.length))).toOption
    else none
  | _ => none

end RpcError

end EvmInspect.Node
