import EvmInspect.Ledger.AccessList
import EvmInspect.Ledger.Precompiles
import EvmInspect.Ledger.Source

/-!
# The ledger

A ledger is laid over a chain that it reads only when it has to. A read is answered from
what the ledger holds, and otherwise from the source, whose answer is then kept; a read
that fails changes nothing. Everything else happens in the ledger alone: writes never
ask the source, and snapshots copy the world under numbers that are never used again.
Numbers are 64 bits wide where ledgers run, and are natural numbers here: the counter is
taken to stay below 2^64, which is where it would have to begin again.
-/

namespace EvmInspect.Ledger

/-- The ledger: its world, the snapshots taken of it with the newest first, the number of
the next snapshot, and the block hashes fetched so far, which no snapshot takes back. -/
structure State where
  world : World := .empty
  snapshots : List Snapshot := []
  nextId : Nat := 1
  blockHashes : KeyMap UInt64 Hash := .empty
deriving DecidableEq

/-- Why an operation fails. -/
inductive LedgerError where
  /-- The snapshot was never taken, or is used up. -/
  | snapshotNotFound (id : Nat)
  | source (cause : SourceError)
deriving DecidableEq

def LedgerError.message : LedgerError → String
  | snapshotNotFound id => s!"Snapshot {id} is not on the snapshot stack"
  | source cause => "Data source error: " ++ cause.message

/-- A change of the world that asks no source and cannot fail. -/
inductive Write where
  /-- Writes a slot, recording what it held. -/
  | setStorage (a : Address) (key : Word) (value : Bytes)
  /-- Writes a slot without a record. -/
  | upsertStorage (a : Address) (key : Word) (value : Bytes)
  | setNonce (a : Address) (nonce : UInt64)
  | addDelta (a : Address) (amount : Int)
  | saveCode (a : Address) (code : Bytes)
  /-- Moves value from one account to another; whether there is enough is not checked. -/
  | transfer (sender receiver : Address) (value : Word)
  /-- Makes the account of a new contract: nonce 1 and no code yet. -/
  | prepareContract (a : Address)
  /-- Drops an account; its address stays warm. -/
  | deleteAccount (a : Address)
  | warmAddress (a : Address)
  | warmSlot (a : Address) (key : Word)
  | warmPrecompiles
  | accessList (items : List AccessItem)
  | setTransient (a : Address) (key value : Word)
  | clearTransient

namespace World

/-- Moves value between accounts; a move of nothing touches nobody. -/
def transfer (w : World) (sender receiver : Address) (value : Word) : World :=
  if value = 0 then w
  else
    (w.touch sender fun a => a.addDelta (-value.unsigned)).touch receiver
      fun a => a.addDelta value.unsigned

/-- The world after a write. -/
def write (w : World) : Write → World
  | .setStorage a key value => w.touch a fun account => account.writeTracked key value
  | .upsertStorage a key value => w.touch a fun account => account.writeUntracked key value
  | .setNonce a nonce => w.touch a fun account => { account with nonce := some nonce }
  | .addDelta a amount => w.touch a fun account => account.addDelta amount
  | .saveCode a code => w.touch a fun account => { account with code := some code }
  | .transfer sender receiver value => w.transfer sender receiver value
  | .prepareContract a => w.touch a fun account => { account with nonce := some 1, code := some [] }
  | .deleteAccount a => { w with accounts := w.accounts.erase a }
  | .warmAddress a => w.touch a id
  | .warmSlot a key => w.touch a fun account => account.warmKey key
  | .warmPrecompiles => precompiles.foldl (fun w a => w.touch a id) w
  | .accessList items => w.applyAccessList items
  | .setTransient a key value => w.setTransient a key value
  | .clearTransient => { w with transient := .empty }

end World

namespace State

def empty : State := {}

instance : Inhabited State := ⟨empty⟩

def account? (l : State) (a : Address) : Option Account := l.world.account? a

/-- What was recorded of a slot when it was first touched, if it was. -/
def firstValue? (l : State) (a : Address) (key : Word) : Option (Option Bytes) :=
  l.world.firstValue? a key

/-! ## Reading -/

/-- The answer that the ledger holds itself. -/
def held? (l : State) : (q : Query) → Option q.Answer
  | .balance a => (l.account? a).bind Account.chainBalance
  | .code a => (l.account? a).bind Account.code
  | .nonce a => (l.account? a).bind Account.nonce
  | .slot a key => (l.account? a).bind fun account => account.storage.get? key
  | .blockHash number => l.blockHashes.get? number

/-- Keeps a fetched answer. -/
def keep (l : State) : (q : Query) → q.Answer → State
  | .balance a, balance =>
    { l with world := l.world.touch a fun account => { account with chainBalance := some balance } }
  | .code a, code =>
    { l with world := l.world.touch a fun account => { account with code := some code } }
  | .nonce a, nonce =>
    { l with world := l.world.touch a fun account => { account with nonce := some nonce } }
  | .slot a key, value =>
    { l with world := l.world.touch a fun account => account.recordFetched key value }
  | .blockHash number, hash => { l with blockHashes := l.blockHashes.insert number hash }

/-! What is held of an address that has no account is what an empty account holds. -/

theorem held?_balance (l : State) (a : Address) :
    l.held? (.balance a) = (l.world.accountD a).chainBalance := by
  simp only [held?, account?, World.accountD]
  cases l.world.account? a <;> rfl

theorem held?_code (l : State) (a : Address) : l.held? (.code a) = (l.world.accountD a).code := by
  simp only [held?, account?, World.accountD]
  cases l.world.account? a <;> rfl

theorem held?_nonce (l : State) (a : Address) : l.held? (.nonce a) = (l.world.accountD a).nonce := by
  simp only [held?, account?, World.accountD]
  cases l.world.account? a <;> rfl

theorem held?_slot (l : State) (a : Address) (key : Word) :
    l.held? (.slot a key) = (l.world.accountD a).storage.get? key := by
  simp only [held?, account?, World.accountD]
  cases l.world.account? a <;> rfl

theorem firstValue?_eq (l : State) (a : Address) (key : Word) :
    l.firstValue? a key = (l.world.accountD a).firstValues.get? key :=
  l.world.firstValue?_eq a key

/-- An answer that is kept is held. -/
theorem held?_keep (l : State) (q : Query) (v : q.Answer) : (l.keep q v).held? q = some v := by
  cases q with
  | balance a => simp [held?_balance, keep]
  | code a => simp [held?_code, keep]
  | nonce a => simp [held?_nonce, keep]
  | slot a key => simp [held?_slot, keep, Account.recordFetched]
  | blockHash number => simp [held?, keep]

@[simp] theorem snapshots_keep (l : State) (q : Query) (v : q.Answer) :
    (l.keep q v).snapshots = l.snapshots := by
  cases q <;> rfl

@[simp] theorem nextId_keep (l : State) (q : Query) (v : q.Answer) :
    (l.keep q v).nextId = l.nextId := by
  cases q <;> rfl

variable {m : Type → Type} [Monad m]

/-- Reads a chain value: from the ledger if it holds one, otherwise from the source. -/
def read (source : Source m) (q : Query) (l : State) : m (Except LedgerError q.Answer × State) :=
  match l.held? q with
  | some answer => pure (.ok answer, l)
  | none => do
    match ← source.ask q with
    | .ok answer => return (.ok answer, l.keep q answer)
    | .error cause => return (.error (.source cause), l)

/-! ## Operations -/

/-- One operation on a ledger. -/
inductive Operation where
  | read (q : Query)
  /-- Reads the balance, the nonce and the code of an account. -/
  | load (a : Address)
  | write (w : Write)
  | takeSnapshot
  /-- Goes back to a snapshot and uses it up with all that are newer. -/
  | revert (id : Nat)
  /-- Drops a snapshot with all that are newer and keeps the world; one that is not
  there is passed over. -/
  | commit (id : Nat)
  /-- Does as `commit`, for a snapshot that is no longer needed. -/
  | discard (id : Nat)

/-- What an operation gives. -/
inductive Outcome where
  | done
  /-- The balance of an account, with what execution added. -/
  | balance (total : Int)
  | nonce (nonce : UInt64)
  | bytes (bytes : Bytes)
  | hash (hash : Hash)
  | snapshot (id : Nat)
deriving DecidableEq

/-- What a read of a chain value gives: a balance counts with what execution added. -/
def outcomeOf (l : State) : (q : Query) → q.Answer → Outcome
  | .balance a, _ => .balance (l.world.accountD a).total
  | .code _, code => .bytes code
  | .nonce _, nonce => .nonce nonce
  | .slot _ _, value => .bytes value
  | .blockHash _, hash => .hash hash

/-- Takes a snapshot and gives its number. -/
def takeSnapshot (l : State) : Nat × State :=
  (l.nextId, { l with snapshots := ⟨l.nextId, l.world⟩ :: l.snapshots, nextId := l.nextId + 1 })

/-- The snapshot of a number, with those older than it. -/
def findSnapshot? (id : Nat) : List Snapshot → Option (Snapshot × List Snapshot)
  | [] => none
  | s :: older => if s.id = id then some (s, older) else findSnapshot? id older

/-- Goes back to a snapshot. -/
def revert (l : State) (id : Nat) : Except LedgerError State :=
  match findSnapshot? id l.snapshots with
  | some (snapshot, older) =>
    .ok { l with world := snapshot.world.restore l.world, snapshots := older }
  | none => .error (.snapshotNotFound id)

/-- Drops a snapshot and those newer than it. -/
def dropSnapshot (l : State) (id : Nat) : State :=
  match findSnapshot? id l.snapshots with
  | some (_, older) => { l with snapshots := older }
  | none => l

/-- Reads chain values one after the other, up to the first that fails. -/
def readAll (source : Source m) : List Query → State → m (Except LedgerError Unit × State)
  | [], l => pure (.ok (), l)
  | q :: qs, l => do
    match ← l.read source q with
    | (.ok _, l) => readAll source qs l
    | (.error e, l) => return (.error e, l)

/-- Performs an operation. -/
def perform (source : Source m) (op : Operation) (l : State) :
    m (Except LedgerError Outcome × State) :=
  match op with
  | .read q => do
    match ← l.read source q with
    | (.ok answer, l) => return (.ok (l.outcomeOf q answer), l)
    | (.error e, l) => return (.error e, l)
  | .load a => do
    match ← l.readAll source [.balance a, .nonce a, .code a] with
    | (.ok (), l) => return (.ok .done, l)
    | (.error e, l) => return (.error e, l)
  | .write w => pure (.ok .done, { l with world := l.world.write w })
  | .takeSnapshot =>
    let (id, l) := l.takeSnapshot
    pure (.ok (.snapshot id), l)
  | .revert id =>
    match l.revert id with
    | .ok l => pure (.ok .done, l)
    | .error e => pure (.error e, l)
  | .commit id => pure (.ok .done, l.dropSnapshot id)
  | .discard id => pure (.ok .done, l.dropSnapshot id)

/-- Performs operations one after the other, whether they fail or not, and gives what
each of them gave. -/
def run (source : Source m) : List Operation → State → m (List (Except LedgerError Outcome) × State)
  | [], l => pure ([], l)
  | op :: ops, l => do
    let (outcome, l) ← l.perform source op
    let (outcomes, l) ← run source ops l
    return (outcome :: outcomes, l)

end State

end EvmInspect.Ledger
