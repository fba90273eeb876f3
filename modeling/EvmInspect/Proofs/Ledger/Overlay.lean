import EvmInspect.Proofs.Ledger.Runs
import Mathlib.Logic.Function.Basic

/-!
# The eager ledger

What a ledger means, said without laziness: an overlay of what execution wrote, and below it
a chain that answers every question at once. Nothing is fetched and nothing is kept, so a
read changes nothing; a snapshot is a copy of the overlay, and going back puts the copy in
its place. `Follows` says that a list of outcomes is the eager ledger's own, but for
operations that the source failed.
-/

namespace EvmInspect.Ledger

/-- A chain: the answer to each question. -/
abbrev ChainView := (q : Query) → q.Answer

/-- What execution wrote to one address. -/
structure Patch where
  nonce : Option UInt64 := none
  code : Option Bytes := none
  slots : Word → Option Bytes := fun _ => none
  /-- The sum of all changes to the balance. -/
  delta : Int := 0

namespace Patch

def setNonce (p : Patch) (nonce : UInt64) : Patch := { p with nonce := some nonce }

def setCode (p : Patch) (code : Bytes) : Patch := { p with code := some code }

def setSlot (p : Patch) (key : Word) (value : Bytes) : Patch :=
  { p with slots := Function.update p.slots key (some value) }

def addDelta (p : Patch) (amount : Int) : Patch := { p with delta := p.delta + amount }

end Patch

/-- Everything that execution wrote. -/
structure Overlay where
  patches : Address → Patch := fun _ => {}
  transient : Address → Word → Option Word := fun _ _ => none

namespace Overlay

/-- Changes what is written to one address. -/
def change (o : Overlay) (a : Address) (f : Patch → Patch) : Overlay :=
  { o with patches := Function.update o.patches a (f (o.patches a)) }

def setTransient (o : Overlay) (a : Address) (key value : Word) : Overlay :=
  let slots := Function.update (o.transient a) key (some value)
  { o with transient := Function.update o.transient a slots }

/-- The overlay after a write. Warmth is no part of it. -/
def write (o : Overlay) : Write → Overlay
  | .setStorage a key value => o.change a (·.setSlot key value)
  | .upsertStorage a key value => o.change a (·.setSlot key value)
  | .setNonce a nonce => o.change a (·.setNonce nonce)
  | .addDelta a amount => o.change a (·.addDelta amount)
  | .saveCode a code => o.change a (·.setCode code)
  | .transfer sender receiver value =>
    (o.change sender (·.addDelta (-value.unsigned))).change receiver (·.addDelta value.unsigned)
  | .prepareContract a => o.change a fun p => (p.setNonce 1).setCode []
  | .deleteAccount a => o.change a fun _ => {}
  | .warmAddress _ => o
  | .warmSlot _ _ => o
  | .warmPrecompiles => o
  | .accessList _ => o
  | .setTransient a key value => o.setTransient a key value
  | .clearTransient => { o with transient := fun _ _ => none }

/-- Moving nothing writes nothing. -/
theorem write_transfer_zero (o : Overlay) (sender receiver : Address) :
    o.write (.transfer sender receiver 0) = o := by
  simp [write, change, Patch.addDelta, Word.unsigned_eq_toNat]

/-- What a read gives: what was written, or else what the chain holds. A balance is the
chain's with all changes. -/
def view (chain : ChainView) (o : Overlay) : Query → State.Outcome
  | .balance a => .balance ((chain (.balance a)).unsigned + (o.patches a).delta)
  | .nonce a => .nonce ((o.patches a).nonce.getD (chain (.nonce a)))
  | .code a => .bytes ((o.patches a).code.getD (chain (.code a)))
  | .slot a key => .bytes (((o.patches a).slots key).getD (chain (.slot a key)))
  | .blockHash number => .hash (chain (.blockHash number))

/-- A transient value, zero unless set. -/
def transientValue (o : Overlay) (a : Address) (key : Word) : Word := (o.transient a key).getD 0

end Overlay

/-- The eager ledger: its overlay and the numbered copies of it, the newest first. -/
structure Eager where
  overlay : Overlay := {}
  copies : List (Nat × Overlay) := []
  nextId : Nat := 1

namespace Eager

open State (Operation Outcome)

/-- The copy of a number and those below it; nothing if there is no such copy. -/
def downTo (id : Nat) (copies : List (Nat × Overlay)) : List (Nat × Overlay) :=
  copies.dropWhile fun copy => copy.1 != id

theorem downTo_cons (id : Nat) (copy : Nat × Overlay) (copies : List (Nat × Overlay)) :
    downTo id (copy :: copies) = if copy.1 = id then copy :: copies else downTo id copies := by
  by_cases h : copy.1 = id
  · simp [downTo, h]
  · simp [downTo, h]

/-- The eager ledger after an operation. -/
def next (e : Eager) : Operation → Eager
  | .read _ => e
  | .load _ => e
  | .write w => { e with overlay := e.overlay.write w }
  | .takeSnapshot => { e with copies := (e.nextId, e.overlay) :: e.copies, nextId := e.nextId + 1 }
  | .revert id =>
    match downTo id e.copies with
    | (_, copy) :: older => { e with overlay := copy, copies := older }
    | [] => e
  | .commit id | .discard id =>
    match downTo id e.copies with
    | _ :: older => { e with copies := older }
    | [] => e

/-- What an operation gives over a chain. -/
def outcome (chain : ChainView) (e : Eager) : Operation → Except LedgerError Outcome
  | .read q => .ok (e.overlay.view chain q)
  | .takeSnapshot => .ok (.snapshot e.nextId)
  | .revert id => if (downTo id e.copies).isEmpty then .error (.snapshotNotFound id) else .ok .done
  | _ => .ok .done

/-- The eager ledger after operations. -/
def run (e : Eager) (ops : List Operation) : Eager := ops.foldl next e

/-- The questions that an operation may ask the source. -/
def questions : Operation → List Query
  | .read q => [q]
  | .load a => [.balance a, .nonce a, .code a]
  | _ => []

/-- The outcomes are the eager ledger's, one for each operation, except that an operation
may report a failure of the source at one of its questions. -/
def Follows (chain : ChainView) (replies : Replies) :
    List Operation → List (Except LedgerError Outcome) → Eager → Prop
  | [], [], _ => True
  | op :: ops, r :: rs, e =>
    (r = e.outcome chain op ∨
        ∃ q ∈ questions op, ∃ cause, replies q (.error cause) ∧ r = .error (.source cause)) ∧
      Follows chain replies ops rs (e.next op)
  | _, _, _ => False

end Eager

end EvmInspect.Ledger
