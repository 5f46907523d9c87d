import RouterHistory.Store.Call

/-!
The store in database tables. A column holds a slot as the same 64 bits read with a sign, and
slots are compared and ordered that way; they are read back as slots. A time column holds whole
seconds or microseconds, depending on the database. Each call is one transaction: a call that
fails leaves the tables as they were.
-/
namespace RouterHistory

/-- What a time column can hold. -/
inductive TimePrecision where
  | seconds
  | microseconds
  deriving DecidableEq, Repr

namespace TimePrecision

/-- Microseconds are counted from 2000-01-01. -/
def origin : Int := 946684800

/-- The column of an instant. Seconds are rounded down, microseconds towards the origin. -/
def encode : TimePrecision → Instant → Int
  | .seconds, i => i.seconds
  | .microseconds, i => ((i.seconds - origin) * 1000000000 + i.nanos).tdiv 1000

def decode? : TimePrecision → Int → Option Instant
  | .seconds, column => Instant.ofSeconds? column
  | .microseconds, column =>
      Instant.ofParts? (column / 1000000 + origin) ((column % 1000000).toNat * 1000)

end TimePrecision

structure HistoryRow where
  time : Int
  isSuccess : Bool
  routerVersion : Int
  deriving DecidableEq, Repr

structure QuarantineRow where
  slot : Int64
  reason : String
  detectedAt : Int
  deriving DecidableEq, Repr

structure CheckpointRow where
  slot : Int64
  revision : Int64
  updatedAt : Int
  deriving DecidableEq, Repr

structure Tables where
  history : Std.ExtTreeMap Signature HistoryRow
  provisional : Std.ExtTreeMap Signature Int64
  quarantine : Std.ExtTreeMap Signature QuarantineRow
  checkpoints : Std.ExtTreeMap String CheckpointRow

namespace HistoryRow

def ofRecord (p : TimePrecision) (r : Record) : HistoryRow :=
  ⟨p.encode r.timestamp, r.isSuccess, r.routerVersion.toNat⟩

def invalidTime (column : Int) : Failure := .storage s!"invalid stored timestamp {column}"

def record (p : TimePrecision) (signature : Signature) (row : HistoryRow) :
    Except Failure Record :=
  match p.decode? row.time with
  | none => .error (invalidTime row.time)
  | some timestamp =>
      .ok ⟨signature, timestamp, row.isSuccess, UInt16.ofNat row.routerVersion.toNat⟩

end HistoryRow

namespace QuarantineRow

def ofQuarantined (q : Quarantined) : QuarantineRow := ⟨q.slot.toInt64, q.reason, q.detectedAt⟩

def quarantined (signature : Signature) (row : QuarantineRow) : Quarantined :=
  ⟨signature, row.slot.toUInt64, row.reason, row.detectedAt⟩

end QuarantineRow

namespace CheckpointRow

def checkpoint (pipelineId : String) (row : CheckpointRow) : Checkpoint :=
  ⟨pipelineId, row.slot.toUInt64, row.revision.toUInt64, row.updatedAt⟩

end CheckpointRow

namespace Tables

def empty : Tables := ⟨∅, ∅, ∅, ∅⟩

def checkpoint? (t : Tables) (pipelineId : String) : Option Checkpoint :=
  t.checkpoints[pipelineId]?.map (CheckpointRow.checkpoint pipelineId)

/-- Creates a checkpoint unless there is one; gives the stored one. -/
def start (t : Tables) (pipelineId : String) (genesis : Slot) (now : Int) : Checkpoint × Tables :=
  match t.checkpoints[pipelineId]? with
  | some row => (row.checkpoint pipelineId, t)
  | none =>
      let row : CheckpointRow := ⟨genesis.toInt64, 0, now⟩
      (row.checkpoint pipelineId, { t with checkpoints := t.checkpoints.insert pipelineId row })

def CheckpointRow.update? (row : CheckpointRow) (m : Move) (now : Int) : Option CheckpointRow :=
  if row.slot = m.expected.toInt64 ∧ row.slot < m.target.toInt64 then
    some ⟨m.target.toInt64, row.revision + 1, now⟩
  else none

def advance (t : Tables) (m : Move) (now : Int) : Except Failure (Checkpoint × Tables) :=
  match t.checkpoints[m.pipelineId]? with
  | none => .error (.notInitialized m.pipelineId)
  | some row =>
      match CheckpointRow.update? row m now with
      | none => .error (.staleCheckpoint row.slot.toUInt64 m.target)
      | some moved =>
          .ok (moved.checkpoint m.pipelineId,
            { t with checkpoints := t.checkpoints.insert m.pipelineId moved })

def record? (p : TimePrecision) (t : Tables) (signature : Signature) :
    Except Failure (Option Record) :=
  match t.history[signature]? with
  | none => .ok none
  | some row => (row.record p signature).map some

def moveMark (t : Tables) (signature : Signature) (slot : Slot) : Tables :=
  if signature ∈ t.provisional then
    { t with provisional := t.provisional.insert signature slot.toInt64 }
  else t

def put (p : TimePrecision) (t : Tables) (e : Entry) : Tables :=
  { t with
    history := t.history.insert e.signature (.ofRecord p e.record)
    provisional := t.provisional.insert e.signature e.slot.toInt64 }

def upsert (p : TimePrecision) (t : Tables) (e : Entry) :
    Except Failure (WriteOutcome × Tables) :=
  match t.record? p e.signature with
  | .error f => .error f
  | .ok stored =>
      match WriteOutcome.decide stored e.record with
      | .unchanged => .ok (.unchanged, t.moveMark e.signature e.slot)
      | outcome => .ok (outcome, t.put p e)

def upsertFrom (p : TimePrecision) :
    Tally → Tables → List Entry → Except Failure (Tally × Tables)
  | tally, t, [] => .ok (tally, t)
  | tally, t, e :: rest =>
      match t.upsert p e with
      | .error f => .error f
      | .ok (outcome, t) => upsertFrom p (tally.count outcome) t rest

def quarantineAll (t : Tables) (entries : List Quarantined) : Tables :=
  { t with
    quarantine :=
      entries.foldl (fun table q => table.insert q.signature (.ofQuarantined q)) t.quarantine }

def advanceBy (t : Tables) (now : Int) :
    Option Move → Except Failure (Option Checkpoint × Tables)
  | none => .ok (none, t)
  | some m => (t.advance m now).map fun (checkpoint, t) => (some checkpoint, t)

def commit (p : TimePrecision) (t : Tables) (now : Int) (c : Commit) :
    Except Failure (Receipt × Tables) :=
  match t.advanceBy now c.move with
  | .error f => .error f
  | .ok (checkpoint, t) =>
      match t.upsertFrom p .zero c.entries with
      | .error f => .error f
      | .ok (tally, t) =>
          let quarantined := UInt64.ofNat c.quarantined.length
          .ok (⟨{ tally with quarantined }, checkpoint⟩, t.quarantineAll c.quarantined)

def lifecycle (t : Tables) (signature : Signature) : Lifecycle :=
  if signature ∈ t.provisional then .provisional
  else if signature ∈ t.history then .final
  else .unseen

def markLe (a b : Signature × Int64) : Bool :=
  a.2 < b.2 || a.2 = b.2 && (compare a.1 b.1).isLE

def provisionalAfter (t : Tables) (boundary : Slot) : List Mark :=
  ((t.provisional.toList.filter fun mark => boundary.toInt64 < mark.2).mergeSort markLe).map
    fun (signature, column) => ⟨signature, column.toUInt64⟩

def finalizeThrough (t : Tables) (boundary : Slot) : Nat × Tables :=
  let kept := t.provisional.filter fun _ column => boundary.toInt64 < column
  (t.provisional.size - kept.size, { t with provisional := kept })

def isMarkedAt (t : Tables) (signature : Signature) (slot : Slot) : Bool :=
  t.provisional[signature]? = some slot.toInt64

def orphan (t : Tables) (signature : Signature) (slot : Slot) : Bool × Tables :=
  if t.isMarkedAt signature slot then
    (decide (signature ∈ t.history),
      { t with
        provisional := t.provisional.erase signature
        history := t.history.erase signature })
  else (false, t)

def quarantined (t : Tables) : List Quarantined :=
  sortQuarantine UInt64.toInt64
    (t.quarantine.toList.map fun (signature, row) => row.quarantined signature)

/-- Sets the time column of a row behind the store's back; tells how many rows it changed. -/
def setTime (t : Tables) (signature : Signature) (column : Int) : Nat × Tables :=
  match t.history[signature]? with
  | none => (0, t)
  | some row => (1, { t with history := t.history.insert signature { row with time := column } })

def settle (t : Tables) : Except Failure (α × Tables) → Except Failure α × Tables
  | .error f => (.error f, t)
  | .ok (a, t) => (.ok a, t)

/-- Answers a call; `now` is the time that written checkpoints get. -/
def answer (p : TimePrecision) (now : Int) (t : Tables) :
    (c : StoreCall) → Except Failure c.Answer × Tables
  | .checkpoint id => (.ok (t.checkpoint? id), t)
  | .start id genesis => let (c, t) := t.start id genesis now; (.ok c, t)
  | .advance m => t.settle (t.advance m now)
  | .upsert e => t.settle (t.upsert p e)
  | .upsertAll entries => t.settle (t.upsertFrom p .zero entries)
  | .commit c => t.settle (t.commit p now c)
  | .record signature => (t.record? p signature, t)
  | .lifecycle signature => (.ok (t.lifecycle signature), t)
  | .count => (.ok t.history.size, t)
  | .provisionalAfter boundary => (.ok (t.provisionalAfter boundary), t)
  | .finalizeThrough boundary => let (n, t) := t.finalizeThrough boundary; (.ok n, t)
  | .moveMark signature slot => (.ok (), t.moveMark signature slot)
  | .orphan signature slot => let (removed, t) := t.orphan signature slot; (.ok removed, t)
  | .quarantined => (.ok t.quarantined, t)

end Tables

end RouterHistory
