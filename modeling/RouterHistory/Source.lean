import RouterHistory.Failure
import RouterHistory.Json.Value
import RouterHistory.Signature
import RouterHistory.Slot
import Std.Data.ExtTreeMap

/-!
What a chain source delivers: transactions with their instructions, and for each slot the block
that was produced in it, if one was. A source may leave out slots without a block, deliver a slot
more than once and repeat transactions. A recorded stream of slots answers as a source: it can be
edited between calls, to replay a reorganisation, and told to fail a number of calls, to replay an
outage.
-/
namespace RouterHistory

structure Instruction where
  programId : String
  /-- Base58 text of the argument bytes. -/
  data : String

structure Transaction where
  signature : Signature
  slot : Slot
  /-- Seconds since 1970 at which the block was produced, if the source knows. -/
  blockTime : Option Int
  /-- The chain's error; a transaction without one succeeded. -/
  error : Option Json.Value
  instructions : List Instruction
  /-- Instructions that were invoked by other instructions, in order of execution. -/
  innerInstructions : List Instruction

namespace Transaction

def allInstructions (tx : Transaction) : List Instruction :=
  tx.instructions ++ tx.innerInstructions

def invokesAny (tx : Transaction) (programIds : List String) : Bool :=
  tx.allInstructions.any fun instruction => programIds.contains instruction.programId

def succeeded (tx : Transaction) : Bool := tx.error.isNone

end Transaction

/-- What a source says about one slot. Without a hash no block was produced in it. -/
structure Delivery where
  slot : Slot
  hash : Option String
  parentHash : Option String
  blockTime : Option Int
  transactions : List Transaction

namespace Delivery

def skipped (slot : Slot) : Delivery := ⟨slot, none, none, none, []⟩

def isSkipped (d : Delivery) : Bool := d.hash.isNone

def keeping (d : Delivery) (programIds : List String) : Delivery :=
  { d with transactions := d.transactions.filter (·.invokesAny programIds) }

end Delivery

/-- Whether a signature is part of the canonical chain, and with which transaction. -/
inductive Verdict where
  | canonical (tx : Transaction)
  | absent

inductive SourceCall where
  /-- The highest slot that the source serves. -/
  | head
  /-- The slots from `first` through `last` with the transactions of these programs. -/
  | slots (first last : Slot) (programIds : List String)
  /-- Asks for the transaction of a signature again. -/
  | resolve (signature : Signature)
  deriving DecidableEq, Repr

@[reducible]
def SourceCall.Answer : SourceCall → Type
  | .head => Slot
  | .slots _ _ _ => List Delivery
  | .resolve _ => Verdict

structure Recording where
  deliveries : Std.ExtTreeMap Slot Delivery
  /-- The head to report; without one it is the highest recorded slot. -/
  pinnedHead : Option Slot
  /-- The number of calls still to fail. -/
  outage : UInt32

namespace Recording

def empty : Recording := ⟨∅, none, 0⟩

def push (r : Recording) (d : Delivery) : Recording :=
  { r with deliveries := r.deliveries.insert d.slot d }

def ofDeliveries (head : Option Slot) (deliveries : List Delivery) : Recording :=
  { deliveries.foldl push empty with pinnedHead := head }

def withHead (r : Recording) (head : Slot) : Recording := { r with pinnedHead := some head }

def failing (r : Recording) (calls : UInt32) : Recording := { r with outage := calls }

def Delivery.records (d : Delivery) (signature : Signature) : Bool :=
  d.transactions.any fun tx => tx.signature = signature

def orphan (r : Recording) (signature : Signature) : Bool × Recording :=
  let found := r.deliveries.values.any fun d => Delivery.records d signature
  let without (_ : Slot) (d : Delivery) : Delivery :=
    { d with transactions := d.transactions.filter fun tx => tx.signature ≠ signature }
  (found, { r with deliveries := r.deliveries.map without })

def inventedHash (slot : Slot) : String := s!"replay-{slot}"

def reinclude (r : Recording) (tx : Transaction) : Recording :=
  let r := (r.orphan tx.signature).2
  let d := r.deliveries[tx.slot]?.getD (.skipped tx.slot)
  let hash := d.hash.getD (inventedHash tx.slot)
  let d := { d with hash := some hash, transactions := d.transactions ++ [tx] }
  { r with deliveries := r.deliveries.insert tx.slot d }

def head (r : Recording) : Slot := r.pinnedHead.getD (r.deliveries.maxKey?.getD 0)

/-- The recorded slots of a range, each with the transactions of the programs. -/
def slots (r : Recording) (first last : Slot) (programIds : List String) : List Delivery :=
  (r.deliveries.toList.filter fun (slot, _) => first ≤ slot && slot ≤ last).map
    fun (_, d) => d.keeping programIds

/-- The first copy of a transaction in the order of slots; it takes the block time of its slot
where it has none of its own. -/
def resolve (r : Recording) (signature : Signature) : Verdict :=
  let inSlot (d : Delivery) : Option Transaction :=
    (d.transactions.find? fun tx => tx.signature = signature).map fun tx =>
      { tx with blockTime := tx.blockTime <|> d.blockTime }
  match r.deliveries.values.findSome? inSlot with
  | some tx => .canonical tx
  | none => .absent

def reply (r : Recording) : (c : SourceCall) → c.Answer
  | .head => r.head
  | .slots first last programIds => r.slots first last programIds
  | .resolve signature => r.resolve signature

def outageFailure : Failure := .sourceUnavailable "injected replay failure"

def answer (r : Recording) (c : SourceCall) : Except Failure c.Answer × Recording :=
  if r.outage = 0 then (.ok (r.reply c), r)
  else (.error outageFailure, { r with outage := r.outage - 1 })

end Recording

end RouterHistory
