import RouterHistory.Batch.ChainWindow
import RouterHistory.Program
import RouterHistory.Source
import Std.Data.ExtTreeMap
import Std.Data.ExtTreeSet

/-!
Fetching a batch: the slots after a position, at most so many and none above the source's head,
with router transactions only. Each produced block is checked against the window.

What a source delivers is made gapless: every slot of a range once and in order, whatever the
source left out, repeated or shuffled. Each signature keeps its first copy in the lowest slot that
has one, and takes over the slot, and the block time where it has none of its own.
-/
namespace RouterHistory.Gapless

/-- Joins two deliveries of one slot. The header of the first stays, unless only the second has
a block; the transactions of the first come first. -/
def merge (first second : Delivery) : Delivery :=
  let header := if first.isSkipped && !second.isSkipped then second else first
  { header with transactions := first.transactions ++ second.transactions }

abbrev Table := Std.ExtTreeMap Slot Delivery

def absorb (table : Table) (d : Delivery) : Table :=
  match table[d.slot]? with
  | none => table.insert d.slot d
  | some earlier => table.insert d.slot (merge earlier d)

def gather (first last : Slot) (deliveries : List Delivery) : Table :=
  (deliveries.filter fun d => first ≤ d.slot && d.slot ≤ last).foldl absorb ∅

abbrev Seen := Std.ExtTreeSet Signature

def place (d : Delivery) (tx : Transaction) : Transaction :=
  { tx with slot := d.slot, blockTime := tx.blockTime <|> d.blockTime }

/-- The transactions whose signature was not seen before. -/
def unseen (d : Delivery) : Seen → List Transaction → List Transaction × Seen
  | seen, [] => ([], seen)
  | seen, tx :: rest =>
      if tx.signature ∈ seen then unseen d seen rest
      else
        let (kept, seen) := unseen d (seen.insert tx.signature) rest
        (place d tx :: kept, seen)

def append (table : Table) (done : List Delivery × Seen) (slot : Slot) : List Delivery × Seen :=
  let d := table[slot]?.getD (.skipped slot)
  let (transactions, seen) := unseen d done.2 d.transactions
  ({ d with transactions } :: done.1, seen)

def slots (first last : Slot) (deliveries : List Delivery) : List Delivery :=
  let table := gather first last deliveries
  ((Slot.through first last).foldl (append table) ([], ∅)).1.reverse

end RouterHistory.Gapless

namespace RouterHistory

structure Batch where
  deliveries : List Delivery
  /-- The last slot of the batch, or the position itself when there is nothing to fetch. -/
  next : Slot
  forks : List Fork

namespace Batch

def caughtUp (position : Slot) : Batch := ⟨[], position, []⟩

def isCaughtUp (b : Batch) : Bool := b.deliveries.isEmpty

def transactions (b : Batch) : List Transaction := b.deliveries.flatMap Delivery.transactions

def routerSlots (first last : Slot) (programIds : List String) (raw : List Delivery) :
    List Delivery :=
  (Gapless.slots first last raw).map (·.keeping programIds)

def lastSlot (position : Slot) (size : UInt64) (head : Slot) : Slot :=
  min (Slot.up position size) head

def fetch (programIds : List String) (w : ChainWindow) (position : Slot) (size : UInt64) :
    Program (Except Failure (Batch × ChainWindow)) := do
  match ← Program.source .head with
  | .error f => return .error f
  | .ok (head : Slot) =>
      if head ≤ position ∨ size = 0 then return .ok (caughtUp position, w)
      else
        let first := position + 1
        let last := lastSlot position size head
        match ← Program.source (.slots first last programIds) with
        | .error f => return .error f
        | .ok (raw : List Delivery) =>
            let deliveries := routerSlots first last programIds raw
            let (forks, w) := w.observeAll deliveries
            return .ok (⟨deliveries, last, forks⟩, w)

end Batch

end RouterHistory
