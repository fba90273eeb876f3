import EvmInspect.Address.Text
import EvmInspect.Json.Parser
import EvmInspect.Ledger.Source
import EvmInspect.Node.Retry
import EvmInspect.Node.Transport

/-!
# A client of a node

The client asks a node about one block. Every question goes out as a JSON-RPC request
and is asked again where that may help; the answer is checked for the form that the
question calls for.
-/

namespace EvmInspect.Node

/-- How long and how often a client tries. Times are in milliseconds. -/
structure ClientConfig where
  timeoutMs : Nat := 30000
  connectTimeoutMs : Nat := 10000
  maxRetries : Nat := 3
  baseBackoffMs : Nat := 1000
deriving DecidableEq

structure Client where
  url : String
  block : UInt64
  config : ClientConfig := {}

/-! ## Envelopes -/

/-- The code of a stated error: an integer of 64 bits, or -1. -/
def statedCode (error : Json) : Int :=
  match error.get? "code" with
  | some (.integer n) => if n < Numeral.int64Limit then n else -1
  | _ => -1

def statedText (error : Json) : String :=
  match error.get? "message" with
  | some (.string s) => s
  | _ => "unknown"

/-- The result in an envelope. An error that is there counts, whatever it is. -/
def resultOf (method : String) (envelope : Json) : Except RpcError Json :=
  match envelope.get? "error" with
  | some error => .error (.stated method (statedCode error) (statedText error))
  | none =>
    match envelope.get? "result" with
    | some result => .ok result
    | none => .error (.badReply method .noResult)

/-- Whether a header value can be shown: printable ASCII and tabs. -/
def isShowable (value : String) : Bool :=
  value.toList.all fun c => c = '\t' || (32 ≤ c.toNat && c.toNat < 127)

/-- What stands for the body of an HTTP failure: the hint when to ask again, if there is one. -/
def failureBody (retryAfter : Option String) (body : String) : String :=
  match retryAfter with
  | some value => if isShowable value then RpcError.hintMark ++ value else body
  | none => body

/-- What a reply means for the question that it answers. -/
def readReply (client : Client) (method : String) : Reply → Except RpcError Json
  | .dropped cause => .error (.connectionFailed client.url cause)
  | .timedOut => .error (.timeout method (min client.config.timeoutMs (UInt64.size - 1)))
  | .response status retryAfter body =>
    if 200 ≤ status ∧ status < 300 then
      match Json.parse? body with
      | some envelope => resultOf method envelope.collapse
      | none => .error (.badReply method .badBody)
    else .error (.http method status (failureBody retryAfter body))

/-! ## Values in answers -/

def hexString (method kind : String) : Json → Except RpcError String
  | .string s => .ok s
  | _ => .error (.badReply method (.notHexString kind))

def readBytes (method : String) (answer : Json) : Except RpcError Bytes :=
  match hexString method "bytes" answer with
  | .error e => .error e
  | .ok s => (Hex.decode s).mapError fun cause => .badReply method (.badBytes cause)

def readNumber (method : String) (answer : Json) : Except RpcError UInt64 :=
  match hexString method "u64" answer with
  | .error e => .error e
  | .ok s =>
    (Numeral.readUInt64 16 (Word.stripLowerMark s.toList)).mapError fun cause =>
      .badReply method (.badNumber cause)

def readWord (method : String) (answer : Json) : Except RpcError Word :=
  match hexString method "U256" answer with
  | .error e => .error e
  | .ok s =>
    (Word.ofHexDigits (Word.stripLowerMark s.toList)).mapError fun cause =>
      .badReply method (.badWord cause)

def readHash (method : String) (answer : Json) : Except RpcError Hash :=
  match readBytes method answer with
  | .error e => .error e
  | .ok bytes =>
    match Hash.ofBytes? bytes with
    | some hash => .ok hash
    | none => .error (.badReply method (.badHashLength bytes.length))

/-- The hash of a block that is known. -/
def readBlock (method : String) (answer : Json) : Except RpcError Hash :=
  match answer with
  | .null => .error (.badReply method .blockNotFound)
  | answer =>
    match answer.get? "hash" with
    | some hash => readHash method hash
    | none => .error (.badReply method .noHash)

/-! ## Questions -/

namespace Client

open Ledger (Query Source SourceError)

/-- The block that questions are about. -/
def blockTag (client : Client) : Json := .string (Numeral.hex client.block.toNat)

/-- The request for a chain value. -/
def request (client : Client) : Query → Request
  | .balance a => ⟨"eth_getBalance", [.string a.hex, client.blockTag]⟩
  | .code a => ⟨"eth_getCode", [.string a.hex, client.blockTag]⟩
  | .nonce a => ⟨"eth_getTransactionCount", [.string a.hex, client.blockTag]⟩
  | .slot a key => ⟨"eth_getStorageAt", [.string a.hex, .string key.hex, client.blockTag]⟩
  | .blockHash number => ⟨"eth_getBlockByNumber", [.string (Numeral.hex number.toNat), .bool false]⟩

/-- The request for the number of the chain. -/
def chainIdRequest : Request := ⟨"eth_chainId", []⟩

/-- The chain value in an answer. -/
def readAnswer (method : String) : (q : Query) → Json → Except RpcError q.Answer
  | .balance _ => readWord method
  | .code _ => readBytes method
  | .nonce _ => readNumber method
  | .slot _ _ => readBytes method
  | .blockHash _ => readBlock method

variable {m : Type → Type} [Monad m]

/-- Asks a question, again where that may help, and gives the result. -/
def call (client : Client) (transport : Transport m) (request : Request) :
    m (Except RpcError Json) :=
  let attempt := do return readReply client request.method (← transport.send request)
  retry request.method client.config.baseBackoffMs transport.pause attempt
    (attemptsAfterFirst client.config.maxRetries) 1

/-- Asks for a chain value. -/
def query (client : Client) (transport : Transport m) (q : Query) :
    m (Except RpcError q.Answer) := do
  let request := client.request q
  match ← client.call transport request with
  | .ok result => return readAnswer request.method q result
  | .error e => return .error e

/-- Asks for the number of the chain. -/
def chainId (client : Client) (transport : Transport m) : m (Except RpcError UInt64) := do
  match ← client.call transport chainIdRequest with
  | .ok result => return readNumber chainIdRequest.method result
  | .error e => return .error e

/-- The node as a source of chain values. -/
def source (client : Client) (transport : Transport m) : Source m where
  ask q := do return (← client.query transport q).mapError .rpc

end Client

end EvmInspect.Node
