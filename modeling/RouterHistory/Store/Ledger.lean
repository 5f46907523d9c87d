import RouterHistory.Store.Call

/-!
The store in memory. A signature with a mark is provisional, one with a row and no mark is
final. A call takes effect as a whole: a commit checks the checkpoint move before it writes.
-/
namespace RouterHistory

structure Ledger where
  rows : Std.ExtTreeMap Signature Record
  marks : Std.ExtTreeMap Signature Slot
  quarantine : Std.ExtTreeMap Signature Quarantined
  checkpoints : Checkpoints

namespace Ledger

def empty : Ledger := ⟨∅, ∅, ∅, ∅⟩

def moveMark (l : Ledger) (signature : Signature) (slot : Slot) : Ledger :=
  if signature ∈ l.marks then { l with marks := l.marks.insert signature slot } else l

def put (l : Ledger) (e : Entry) : Ledger :=
  { l with
    rows := l.rows.insert e.signature e.record
    marks := l.marks.insert e.signature e.slot }

/-- An equal row keeps its state, and its mark follows the entry. -/
def upsert (l : Ledger) (e : Entry) : WriteOutcome × Ledger :=
  match WriteOutcome.decide l.rows[e.signature]? e.record with
  | .unchanged => (.unchanged, l.moveMark e.signature e.slot)
  | outcome => (outcome, l.put e)

def upsertFrom : Tally → Ledger → List Entry → Tally × Ledger
  | t, l, [] => (t, l)
  | t, l, e :: rest => upsertFrom (t.count (l.upsert e).1) (l.upsert e).2 rest

def upsertAll (l : Ledger) (entries : List Entry) : Tally × Ledger :=
  upsertFrom .zero l entries

def quarantineAll (l : Ledger) (entries : List Quarantined) : Ledger :=
  { l with quarantine := entries.foldl (fun table q => table.insert q.signature q) l.quarantine }

/-- The checkpoint that a commit leads to; nothing when it moves none. -/
def checkMove (l : Ledger) (now : Int) : Option Move → Except Failure (Option Checkpoint)
  | none => .ok none
  | some m => (l.checkpoints.after m now).map some

def storeCheckpoint (l : Ledger) : Option Checkpoint → Ledger
  | none => l
  | some c => { l with checkpoints := l.checkpoints.insert c.pipelineId c }

def commit (l : Ledger) (now : Int) (c : Commit) : Except Failure Receipt × Ledger :=
  match l.checkMove now c.move with
  | .error f => (.error f, l)
  | .ok next =>
      let (tally, written) := l.upsertAll c.entries
      let quarantined := UInt64.ofNat c.quarantined.length
      (.ok ⟨{ tally with quarantined }, next⟩,
        (written.quarantineAll c.quarantined).storeCheckpoint next)

def lifecycle (l : Ledger) (signature : Signature) : Lifecycle :=
  if signature ∈ l.marks then .provisional
  else if signature ∈ l.rows then .final
  else .unseen

def provisionalAfter (l : Ledger) (boundary : Slot) : List Mark :=
  ((l.marks.toList.map fun (signature, slot) => Mark.mk signature slot).filter
    fun mark => boundary < mark.slot).mergeSort Mark.le

/-- Keeps only the marks above the boundary. -/
def finalizeThrough (l : Ledger) (boundary : Slot) : Nat × Ledger :=
  let kept := l.marks.filter fun _ slot => boundary < slot
  (l.marks.size - kept.size, { l with marks := kept })

def orphan (l : Ledger) (signature : Signature) (slot : Slot) : Bool × Ledger :=
  if l.marks[signature]? = some slot then
    (decide (signature ∈ l.rows),
      { l with marks := l.marks.erase signature, rows := l.rows.erase signature })
  else (false, l)

def quarantined (l : Ledger) : List Quarantined :=
  sortQuarantine (fun slot => slot) l.quarantine.values

def records (l : Ledger) : List Record := l.rows.values

/-- Answers a call; `now` is the time that written checkpoints get. -/
def answer (now : Int) (l : Ledger) : (c : StoreCall) → Except Failure c.Answer × Ledger
  | .checkpoint id => (.ok l.checkpoints[id]?, l)
  | .start id genesis =>
      let (c, checkpoints) := l.checkpoints.start id genesis now
      (.ok c, { l with checkpoints })
  | .advance m =>
      let (result, checkpoints) := l.checkpoints.advance m now
      (result, { l with checkpoints })
  | .upsert e => let (outcome, l) := l.upsert e; (.ok outcome, l)
  | .upsertAll entries => let (tally, l) := l.upsertAll entries; (.ok tally, l)
  | .commit c => l.commit now c
  | .record signature => (.ok l.rows[signature]?, l)
  | .lifecycle signature => (.ok (l.lifecycle signature), l)
  | .count => (.ok l.rows.size, l)
  | .provisionalAfter boundary => (.ok (l.provisionalAfter boundary), l)
  | .finalizeThrough boundary => let (n, l) := l.finalizeThrough boundary; (.ok n, l)
  | .moveMark signature slot => (.ok (), l.moveMark signature slot)
  | .orphan signature slot => let (removed, l) := l.orphan signature slot; (.ok removed, l)
  | .quarantined => (.ok l.quarantined, l)

end Ledger

end RouterHistory
