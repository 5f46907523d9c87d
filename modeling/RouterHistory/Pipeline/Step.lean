import RouterHistory.Batch.Fetch
import RouterHistory.Backoff
import RouterHistory.Program
import RouterHistory.Settings

/-!
The batch step of a pipeline: fetch the next slots, classify their transactions and store rows,
quarantine and checkpoint move in one commit. A commit that loses against another writer changes
nothing; the pipeline goes on from the stored checkpoint.

The pipeline keeps a view of its own checkpoint between batches, its cursor. The view is dropped
when a move turns out to be stale, so that the next use reads the stored checkpoint.
-/
namespace RouterHistory

structure Cursor where
  pipelineId : String
  genesis : Slot
  /-- The slot that the checkpoint is believed to stand at. -/
  current : Option Slot
  deriving DecidableEq, Repr

namespace Cursor

def start (pipelineId : String) (genesis : Slot) : Cursor := ⟨pipelineId, genesis, none⟩

def placedAt (c : Cursor) (slot : Slot) : Cursor := { c with current := some slot }

/-- Drops the view. -/
def forget (c : Cursor) : Cursor := { c with current := none }

def reload (c : Cursor) : Program (Except Failure Slot × Cursor) := do
  match ← Program.store (.start c.pipelineId c.genesis) with
  | .ok (checkpoint : Checkpoint) => return (.ok checkpoint.slot, c.placedAt checkpoint.slot)
  | .error f => return (.error f, c)

/-- The slot of the checkpoint, read only if there is no view of it. -/
def load (c : Cursor) : Program (Except Failure Slot × Cursor) :=
  match c.current with
  | some slot => return (.ok slot, c)
  | none => c.reload

def advance (c : Cursor) (target : Slot) : Program (Except Failure Checkpoint × Cursor) := do
  match ← c.load with
  | (.error f, c) => return (.error f, c)
  | (.ok expected, c) =>
      match ← Program.store (.advance ⟨c.pipelineId, expected, target⟩) with
      | .ok (checkpoint : Checkpoint) => return (.ok checkpoint, c.placedAt checkpoint.slot)
      | .error f => return (.error f, if f.isStaleCheckpoint then c.forget else c)

end Cursor

structure Pipeline where
  settings : Settings
  cursor : Cursor
  window : ChainWindow
  phase : Phase

/-- How a batch step ended when nothing failed. -/
inductive StepOutcome where
  | committed (first last : Slot) (tally : Tally)
  | caughtUp (slot : Slot)
  | stale (resumedFrom : Slot)
  deriving DecidableEq, Repr

/-- What classifying the transactions of a batch came to. -/
structure Sorted where
  entries : List Entry
  rejected : List (Transaction × Rejection)

namespace Sorted

def empty : Sorted := ⟨[], []⟩

def ofTransactions (c : Classifier) : List Transaction → Sorted
  | [] => empty
  | tx :: rest =>
      let sorted := ofTransactions c rest
      match c.classify tx with
      | .ok record => { sorted with entries := ⟨record, tx.slot⟩ :: sorted.entries }
      | .error r => { sorted with rejected := (tx, r) :: sorted.rejected }

def rejection (tx : Transaction) (r : Rejection) : String := (r.failure tx.signature).message

def dated (now : Int) (x : Transaction × Rejection) : Quarantined :=
  ⟨x.1.signature, x.1.slot, rejection x.1 x.2, now⟩

end Sorted

namespace Pipeline

def ofSettings (s : Settings) (window : ChainWindow) : Pipeline where
  settings := s
  cursor := .start s.id s.genesisSlot
  window := window
  phase := .idle

/-- A new pipeline, if the settings are usable. Nothing comes of settings that are, but whose
window has no room. -/
def create? (s : Settings) : Option (Except Failure Pipeline) :=
  match s.validated with
  | .error f => some (.error f)
  | .ok s => (ChainWindow.ofCapacity? s.trackerWindow.toNat).map fun window =>
      .ok (ofSettings s window)

/-- Loads the checkpoint through the cursor. -/
def load (p : Pipeline) : Program (Except Failure Slot × Pipeline) := do
  let (result, cursor) ← p.cursor.load
  return (result, { p with cursor })

/-- Makes forks known and wakes the reconciler. -/
def announceForks (forks : List Fork) : Program Unit := do
  Program.emitAll (forks.map fun f => .forkDetected f.detectedAt f.depth)
  if forks.isEmpty then return () else Program.signalFork

/-- Goes on from the stored checkpoint after a stale commit. -/
def resume (p : Pipeline) : Program (Except Failure StepOutcome × Pipeline) := do
  let (result, cursor) ← p.cursor.forget.reload
  let p := { p with cursor }
  match result with
  | .error f => return (.error f, p)
  | .ok slot =>
      Program.emit (.staleCheckpoint slot)
      return (.ok (.stale slot), p)

/-- Makes rejections known one by one and dates each of them. -/
def announceRejected : List (Transaction × Rejection) → Program (List Quarantined)
  | [] => return []
  | x :: rest => do
      Program.emit (.quarantined x.1.signature x.1.slot (Sorted.rejection x.1 x.2))
      let now ← Program.clock
      return Sorted.dated now x :: (← announceRejected rest)

def commit (p : Pipeline) (position : Slot) (batch : Batch) :
    Program (Except Failure StepOutcome × Pipeline) := do
  let sorted := Sorted.ofTransactions p.settings.classifier batch.transactions
  let quarantined ← announceRejected sorted.rejected
  let move : Move := ⟨p.settings.id, position, batch.next⟩
  let stored ← p.settings.backoff.retry "commit_batch"
    (Program.store (.commit ⟨sorted.entries, quarantined, some move⟩))
  match stored with
  | .ok receipt =>
      let cursor := (receipt.checkpoint.map fun c => p.cursor.placedAt c.slot).getD p.cursor
      let tally := { receipt.tally with quarantined := UInt64.ofNat quarantined.length }
      Program.emit (.batchCommitted position batch.next tally)
      return (.ok (.committed position batch.next tally), { p with cursor })
  | .error f => if f.isStaleCheckpoint then p.resume else return (.error f, p)

def step (p : Pipeline) : Program (Except Failure StepOutcome × Pipeline) := do
  match ← p.load with
  | (.error f, p) => return (.error f, p)
  | (.ok position, p) =>
      let fetched ← p.settings.backoff.retry "fetch_batch"
        (Batch.fetch p.settings.classifier.programIds p.window position p.settings.batchSize)
      match fetched with
      | .error f => return (.error f, p)
      | .ok (batch, window) =>
          let p := { p with window }
          announceForks batch.forks
          if batch.isCaughtUp then
            Program.emit (.caughtUp position)
            return (.ok (.caughtUp position), p)
          else p.commit position batch

/-- Steps until the head is reached; nothing if that takes more than `limit` steps. -/
def catchUp : (limit : Nat) → Pipeline → IngestReport →
    Program (Option (Except Failure IngestReport) × Pipeline)
  | 0, p, _ => return (none, p)
  | limit + 1, p, report => do
      match ← p.step with
      | (.error f, p) => return (some (.error f), p)
      | (.ok (.committed _ last tally), p) => catchUp limit p (report.committed last tally)
      | (.ok (.stale slot), p) => catchUp limit p { report with checkpoint := slot }
      | (.ok (.caughtUp slot), p) => return (some (.ok { report with checkpoint := slot }), p)

end Pipeline

end RouterHistory
