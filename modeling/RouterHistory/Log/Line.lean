import RouterHistory.Report

/-!
Lines of the log. A line belongs to a part of the program, which filters name by its target, and
it reports details, each under a name.
-/
namespace RouterHistory.Log

/-- How urgent a line is. -/
inductive Level where
  | error
  | warn
  | info
  | debug
  | trace
  deriving DecidableEq, Repr

namespace Level

def all : List Level := [.error, .warn, .info, .debug, .trace]

def name : Level → String
  | .error => "error"
  | .warn => "warn"
  | .info => "info"
  | .debug => "debug"
  | .trace => "trace"

def rank : Level → Nat
  | .error => 1
  | .warn => 2
  | .info => 3
  | .debug => 4
  | .trace => 5

end Level

/-- The parts of the program that log. -/
inductive Topic where
  | pipeline
  | fetching
  | reconciling
  | storage
  | statements
  | interrupt
  deriving DecidableEq, Repr

def Topic.target : Topic → String
  | .pipeline => "txhistory_core::pipeline"
  | .fetching => "txhistory_core::fetcher"
  | .reconciling => "txhistory_core::reconciler"
  | .storage => "txhistory_storage::sqlite"
  | .statements => "sqlx::query"
  | .interrupt => "txhistory::cmd_ingest"

structure Line where
  level : Level
  topic : Topic
  text : String
  /-- The names of the details. -/
  details : List String
  deriving DecidableEq, Repr

namespace Line

/-- The names under which a line reports anything. Statements are reported by details alone, and
every other line has its text as its message. -/
def names (l : Line) : List String :=
  if l.topic = .statements then l.details else "message" :: l.details

def statement : Line :=
  ⟨.debug, .statements, "statement run",
    ["summary", "db.statement", "rows_affected", "rows_returned", "elapsed", "elapsed_secs"]⟩

def started (pipelineId : String) : Line :=
  ⟨.info, .pipeline, s!"pipeline {pipelineId} is starting", ["pipeline", "checkpoint"]⟩

def interrupted : Line := ⟨.info, .interrupt, "shutdown requested, finishing current batch", []⟩

def rowWritten : Line :=
  ⟨.debug, .storage, "history row written", ["signature", "slot", "outcome"]⟩

def rowsFinalized (count : Nat) : Line :=
  ⟨.debug, .storage, s!"{count} provisional rows finalized", ["boundary", "finalized"]⟩

def orphaned : Line :=
  ⟨.warn, .reconciling, "row removed, its transaction is gone", ["signature", "slot"]⟩

def overwritten : Line :=
  ⟨.warn, .reconciling, "row overwritten", ["signature", "old_slot", "new_slot"]⟩

def unresolved : Line :=
  ⟨.warn, .reconciling, "transaction can no longer be classified", ["signature", "error"]⟩

def recovered : Line :=
  ⟨.warn, .reconciling, "missing transaction recorded", ["signature", "slot"]⟩

def rejected : Line :=
  ⟨.warn, .reconciling, "transaction quarantined", ["signature", "slot", "error"]⟩

def cycleComplete (r : CycleReport) : Line :=
  ⟨.info, .reconciling, s!"reconcile cycle complete, {r.checked} transactions checked",
    ["head", "boundary", "finalized", "checked", "orphaned", "overwritten", "unresolved",
      "recovered"]⟩

/-- What a reconcile cycle logs. Each change that nobody asked for is a warning. -/
def ofCycle (r : CycleReport) : List Line :=
  rowsFinalized r.finalized :: List.replicate r.orphaned orphaned ++
    List.replicate r.overwritten overwritten ++ List.replicate r.unresolved unresolved ++
    List.replicate r.recovered recovered ++ List.replicate r.quarantined rejected ++
    List.replicate (r.overwritten + r.recovered) rowWritten ++ [cycleComplete r]

def ofBatch (first last : Slot) (tally : Tally) : List Line :=
  List.replicate (tally.inserted + tally.overwritten).toNat rowWritten ++
    [⟨.info, .pipeline, s!"batch committed from slot {first} to slot {last}",
      ["from", "to", "inserted", "unchanged", "overwritten", "quarantined"]⟩]

def ofEvent : Event → List Line
  | .batchCommitted first last tally => ofBatch first last tally
  | .caughtUp _ => []
  | .quarantined signature slot reason =>
      [⟨.warn, .pipeline, s!"quarantining transaction {signature.text} of slot {slot}: {reason}",
        ["signature", "slot", "error"]⟩]
  | .forkDetected slot depth =>
      [⟨.warn, .fetching, s!"fork of depth {depth} at slot {slot}",
        ["slot", "depth", "expected", "actual"]⟩]
  | .staleCheckpoint resumedFrom =>
      [⟨.warn, .pipeline, s!"checkpoint moved by another writer, resuming from {resumedFrom}",
        ["from", "resumed_from", "error"]⟩]
  | .sourceUnhealthy error =>
      [⟨.error, .pipeline, s!"source unavailable, pausing: {error}", ["error"]⟩]
  | .reconciled report => ofCycle report
  | .phaseChanged phase =>
      [⟨.info, .pipeline, s!"pipeline is {phase.display}", ["from", "to"]⟩]

def render (l : Line) : String := s!"{l.level.name} {l.topic.target}: {l.text}"

end Line

end RouterHistory.Log
