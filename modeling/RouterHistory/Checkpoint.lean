import RouterHistory.Failure
import Std.Data.ExtTreeMap

/-!
Checkpoints: the last slot of a pipeline whose records are stored. A checkpoint only moves
forward, and only for a writer that names the slot it stands at, so of several writers with the
same view one wins and the others are told that they are stale.
-/
namespace RouterHistory

structure Checkpoint where
  pipelineId : String
  slot : Slot
  /-- The number of moves so far. -/
  revision : UInt64
  /-- Seconds since 1970 of the last write. -/
  updatedAt : Int
  deriving DecidableEq, Repr

/-- A move from the slot that the writer expects to a later one. -/
structure Move where
  pipelineId : String
  expected : Slot
  target : Slot
  deriving DecidableEq, Repr

namespace Checkpoint

def genesis (pipelineId : String) (slot : Slot) (now : Int) : Checkpoint :=
  ⟨pipelineId, slot, 0, now⟩

def moved (c : Checkpoint) (expected target : Slot) (now : Int) : Except Failure Checkpoint :=
  if c.slot = expected ∧ c.slot < target then
    .ok { c with slot := target, revision := c.revision + 1, updatedAt := now }
  else .error (.staleCheckpoint c.slot target)

end Checkpoint

abbrev Checkpoints := Std.ExtTreeMap String Checkpoint

namespace Checkpoints

/-- Creates a checkpoint unless there is one; gives the stored one. -/
def start (cs : Checkpoints) (pipelineId : String) (genesis : Slot) (now : Int) :
    Checkpoint × Checkpoints :=
  match cs[pipelineId]? with
  | some c => (c, cs)
  | none =>
      let c := Checkpoint.genesis pipelineId genesis now
      (c, cs.insert pipelineId c)

/-- The checkpoint after a move; the table itself is not changed. -/
def after (cs : Checkpoints) (m : Move) (now : Int) : Except Failure Checkpoint :=
  match cs[m.pipelineId]? with
  | none => .error (.notInitialized m.pipelineId)
  | some c => c.moved m.expected m.target now

def advance (cs : Checkpoints) (m : Move) (now : Int) : Except Failure Checkpoint × Checkpoints :=
  match cs.after m now with
  | .ok c => (.ok c, cs.insert m.pipelineId c)
  | .error f => (.error f, cs)

end Checkpoints

end RouterHistory
