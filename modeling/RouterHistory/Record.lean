import RouterHistory.Instant
import RouterHistory.Signature
import RouterHistory.Slot

/-!
The rows of the transaction history and what is kept beside them: the slot of each row that may
still be reorganised away, and the transactions that were turned down. What writing a record did
is counted over a batch.
-/
namespace RouterHistory

/-- A row of the history. -/
structure Record where
  signature : Signature
  timestamp : Instant
  isSuccess : Bool
  routerVersion : UInt16
  deriving DecidableEq, Repr

/-- A row together with the slot at which its transaction was seen. -/
structure Entry where
  record : Record
  slot : Slot
  deriving DecidableEq, Repr

def Entry.signature (e : Entry) : Signature := e.record.signature

/-- A provisional signature and its slot. -/
structure Mark where
  signature : Signature
  slot : Slot
  deriving DecidableEq, Repr

def Mark.le (a b : Mark) : Bool :=
  a.slot < b.slot || a.slot = b.slot && (compare a.signature b.signature).isLE

/-- A transaction that was turned down, kept for review. -/
structure Quarantined where
  signature : Signature
  slot : Slot
  reason : String
  /-- Seconds since 1970 at which it was turned down. -/
  detectedAt : Int
  deriving DecidableEq, Repr

/-- Where a signature stands in the history. -/
inductive Lifecycle where
  | unseen
  | provisional
  | final
  | orphaned
  deriving DecidableEq, Repr

namespace Lifecycle

def all : List Lifecycle := [.unseen, .provisional, .final, .orphaned]

def name : Lifecycle → String
  | .unseen => "Unseen"
  | .provisional => "Provisional"
  | .final => "Final"
  | .orphaned => "Orphaned"

def display : Lifecycle → String
  | .unseen => "unseen"
  | .provisional => "provisional"
  | .final => "final"
  | .orphaned => "orphaned"

end Lifecycle

inductive WriteOutcome where
  | inserted
  | unchanged
  | overwritten
  deriving DecidableEq, Repr

namespace WriteOutcome

def decide (stored : Option Record) (incoming : Record) : WriteOutcome :=
  match stored with
  | none => .inserted
  | some row => if row = incoming then .unchanged else .overwritten

def name : WriteOutcome → String
  | .inserted => "Inserted"
  | .unchanged => "Unchanged"
  | .overwritten => "Overwritten"

end WriteOutcome

structure Tally where
  inserted : UInt64
  unchanged : UInt64
  overwritten : UInt64
  quarantined : UInt64
  deriving DecidableEq, Repr

namespace Tally

def zero : Tally := ⟨0, 0, 0, 0⟩

def count (t : Tally) : WriteOutcome → Tally
  | .inserted => { t with inserted := t.inserted + 1 }
  | .unchanged => { t with unchanged := t.unchanged + 1 }
  | .overwritten => { t with overwritten := t.overwritten + 1 }

def written (t : Tally) : UInt64 := t.inserted + t.unchanged + t.overwritten

def add (t u : Tally) : Tally :=
  ⟨t.inserted + u.inserted, t.unchanged + u.unchanged, t.overwritten + u.overwritten,
    t.quarantined + u.quarantined⟩

end Tally

end RouterHistory
