import RouterHistory.Checkpoint
import RouterHistory.Record

/-!
The calls that a history store answers. A store keeps one row for each signature, the slots of
the rows that are still provisional, the quarantine and the checkpoints.
-/
namespace RouterHistory

/-- Everything that is stored together for one batch. -/
structure Commit where
  entries : List Entry
  quarantined : List Quarantined
  move : Option Move
  deriving DecidableEq, Repr

namespace Commit

def empty : Commit := ⟨[], [], none⟩

def isEmpty (c : Commit) : Bool := c.entries.isEmpty && c.quarantined.isEmpty

def cons : Entry ⊕ Quarantined → Commit → Commit
  | .inl e, c => { c with entries := e :: c.entries }
  | .inr q, c => { c with quarantined := q :: c.quarantined }

end Commit

/-- What a stored batch did, and the checkpoint if it moved. -/
structure Receipt where
  tally : Tally
  checkpoint : Option Checkpoint
  deriving DecidableEq, Repr

inductive StoreCall where
  /-- Looks up a checkpoint. -/
  | checkpoint (pipelineId : String)
  /-- Creates a checkpoint unless there is one. -/
  | start (pipelineId : String) (genesis : Slot)
  | advance (move : Move)
  /-- Writes a record; a new or changed one becomes provisional at the entry's slot. -/
  | upsert (entry : Entry)
  /-- Writes all records or none. -/
  | upsertAll (entries : List Entry)
  /-- Stores a batch as a whole or not at all. -/
  | commit (batch : Commit)
  | record (signature : Signature)
  | lifecycle (signature : Signature)
  /-- The number of rows. -/
  | count
  /-- The marks above a slot, in order. -/
  | provisionalAfter (boundary : Slot)
  /-- Drops the marks up to a slot and tells how many there were. -/
  | finalizeThrough (boundary : Slot)
  /-- Moves a mark, if there is one. -/
  | moveMark (signature : Signature) (slot : Slot)
  /-- Removes a row that is still provisional at this slot and tells whether one was. -/
  | orphan (signature : Signature) (slot : Slot)
  /-- The quarantine, oldest entries first. -/
  | quarantined
  deriving DecidableEq, Repr

namespace StoreCall

@[reducible]
def Answer : StoreCall → Type
  | .checkpoint _ => Option Checkpoint
  | .start _ _ => Checkpoint
  | .advance _ => Checkpoint
  | .upsert _ => WriteOutcome
  | .upsertAll _ => Tally
  | .commit _ => Receipt
  | .record _ => Option Record
  | .lifecycle _ => Lifecycle
  | .count => Nat
  | .provisionalAfter _ => List Mark
  | .finalizeThrough _ => Nat
  | .moveMark _ _ => Unit
  | .orphan _ _ => Bool
  | .quarantined => List Quarantined

/-- Holds of a call that asks to write something, even if it may change nothing. -/
def writes : StoreCall → Bool
  | .start _ _ => true
  | .advance _ => true
  | .upsert _ => true
  | .upsertAll entries => !entries.isEmpty
  | .commit c => !c.isEmpty || c.move.isSome
  | .finalizeThrough _ => true
  | .moveMark _ _ => true
  | .orphan _ _ => true
  | _ => false

end StoreCall

/-- The quarantine in the order of detection, then of slots; `slotKey` orders the slots. -/
def sortQuarantine [Ord κ] (slotKey : Slot → κ) (entries : List Quarantined) :
    List Quarantined :=
  entries.mergeSort fun a b =>
    match compare a.detectedAt b.detectedAt with
    | .lt => true
    | .eq => (compare (slotKey a.slot) (slotKey b.slot)).isLE
    | .gt => false

end RouterHistory
