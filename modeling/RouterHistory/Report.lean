import RouterHistory.Record

/-!
Reports: what a reconcile cycle found, what catching up ingested, and the events that a pipeline
makes known while it works.
-/
namespace RouterHistory

/-- The counts of one reconcile cycle. -/
structure CycleReport where
  head : Slot
  /-- The highest slot that was final in this cycle. -/
  boundary : Slot
  finalized : Nat
  /-- The number of provisional signatures that were resolved again. -/
  checked : Nat
  unchanged : Nat
  overwritten : Nat
  orphaned : Nat
  /-- Signatures left as they were because they could not be resolved. -/
  unresolved : Nat
  /-- Rows written for transactions that had none. -/
  recovered : Nat
  quarantined : Nat
  deriving DecidableEq, Repr

/-- What catching up with the source ingested. -/
structure IngestReport where
  batches : UInt64
  checkpoint : Slot
  totals : Tally
  deriving DecidableEq, Repr

def IngestReport.start : IngestReport := ⟨0, 0, .zero⟩

/-- Adds a committed batch that ended at a slot. -/
def IngestReport.committed (r : IngestReport) (slot : Slot) (tally : Tally) : IngestReport :=
  ⟨r.batches + 1, slot, r.totals.add tally⟩

/-- What a pipeline is doing. -/
inductive Phase where
  | idle
  | catchingUp
  | live
  | unhealthy
  | stopping
  | stopped
  | failed
  deriving DecidableEq, Repr

namespace Phase

def all : List Phase := [.idle, .catchingUp, .live, .unhealthy, .stopping, .stopped, .failed]

def name : Phase → String
  | .idle => "Idle"
  | .catchingUp => "CatchingUp"
  | .live => "Live"
  | .unhealthy => "Unhealthy"
  | .stopping => "Stopping"
  | .stopped => "Stopped"
  | .failed => "Failed"

def display : Phase → String
  | .idle => "idle"
  | .catchingUp => "catching-up"
  | .live => "live"
  | .unhealthy => "unhealthy"
  | .stopping => "stopping"
  | .stopped => "stopped"
  | .failed => "failed"

end Phase

inductive Event where
  | batchCommitted (first last : Slot) (tally : Tally)
  | caughtUp (slot : Slot)
  | quarantined (signature : Signature) (slot : Slot) (reason : String)
  | forkDetected (slot : Slot) (depth : Nat)
  | staleCheckpoint (resumedFrom : Slot)
  | sourceUnhealthy (error : String)
  | reconciled (report : CycleReport)
  | phaseChanged (phase : Phase)
  deriving DecidableEq, Repr

end RouterHistory
