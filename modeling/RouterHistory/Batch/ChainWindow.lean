import RouterHistory.Source

/-!
The most recent produced blocks, kept to check that each new block builds on the last. A block
that does not is a fork: the window is cut back to the block it builds on, or emptied if that
block is not in the window.
-/
namespace RouterHistory

/-- A produced block in the window. -/
structure Block where
  slot : Slot
  hash : String
  deriving DecidableEq, Repr

structure Fork where
  /-- The slot of the block that did not fit. -/
  detectedAt : Slot
  expectedParent : String
  actualParent : String
  /-- The number of blocks that were dropped. -/
  depth : Nat
  deriving DecidableEq, Repr

structure ChainWindow where
  /-- The largest number of blocks kept. -/
  capacity : Nat
  /-- The blocks, oldest first. -/
  blocks : List Block
  deriving DecidableEq, Repr

namespace ChainWindow

def blockBytes : Nat := 32

def mostBytes : Nat := 9223372036854775807

/-- An empty window that keeps at least one block. Room for all its blocks is taken at once, and
nothing comes of a window that has no room in any memory. -/
def ofCapacity? (capacity : Nat) : Option ChainWindow :=
  if blockBytes * capacity ≤ mostBytes then some ⟨max capacity 1, []⟩ else none

def head? (w : ChainWindow) : Option Block := w.blocks.getLast?

/-- Adds a block; the oldest one makes room in a full window. -/
def push (w : ChainWindow) (b : Block) : ChainWindow :=
  let kept := if w.capacity ≤ w.blocks.length then w.blocks.drop 1 else w.blocks
  { w with blocks := kept ++ [b] }

def take (w : ChainWindow) (count : Nat) : ChainWindow :=
  { w with blocks := w.blocks.take count }

/-- How many blocks remain when the chain goes on from the last block with this hash. -/
def ancestry (w : ChainWindow) (parent : String) : Nat :=
  match w.blocks.reverse.findIdx? fun b => b.hash = parent with
  | some newer => w.blocks.length - newer
  | none => 0

/-- The parent that a new block should have but does not. -/
def mismatch? (w : ChainWindow) (d : Delivery) : Option (String × String) :=
  match w.head?, d.parentHash with
  | some head, some parent => if head.hash = parent then none else some (head.hash, parent)
  | _, _ => none

def redeliver (w : ChainWindow) (d : Delivery) (hash : String) (place : Nat) (known : Block) :
    Option Fork × ChainWindow :=
  if known.hash = hash then (none, w)
  else
    (some ⟨d.slot, known.hash, d.parentHash.getD "", w.blocks.length - place⟩,
      (w.take place).push ⟨d.slot, hash⟩)

def extend (w : ChainWindow) (d : Delivery) (hash : String) : Option Fork × ChainWindow :=
  match w.mismatch? d with
  | none => (none, w.push ⟨d.slot, hash⟩)
  | some (expected, actual) =>
      let kept := w.ancestry actual
      (some ⟨d.slot, expected, actual, w.blocks.length - kept⟩,
        (w.take kept).push ⟨d.slot, hash⟩)

/-- Takes in one slot. Nothing is to be compared in a skipped slot, nor in one below the head
that the window does not hold. -/
def observe (w : ChainWindow) (d : Delivery) : Option Fork × ChainWindow :=
  match d.hash with
  | none => (none, w)
  | some hash =>
      match w.blocks.findIdx? fun b => b.slot = d.slot with
      | some place =>
          match w.blocks[place]? with
          | some known => w.redeliver d hash place known
          | none => (none, w)
      | none =>
          match w.head? with
          | some head => if d.slot ≤ head.slot then (none, w) else w.extend d hash
          | none => w.extend d hash

def observeAll (w : ChainWindow) : List Delivery → List Fork × ChainWindow
  | [] => ([], w)
  | d :: rest =>
      let (fork, w) := w.observe d
      let (forks, w) := observeAll w rest
      (fork.toList ++ forks, w)

end ChainWindow

end RouterHistory
