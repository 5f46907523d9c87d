import RouterHistory.Proofs.Batch.WindowInvariant

/-!
Where a fork cuts the window. A block in a new slot leaves what ends with its parent, so the
window is linked again. A block that replaces another leaves everything below that slot, whatever
parent it names: the window is linked again only if that parent is the last block below the slot.
-/
namespace RouterHistory

namespace ChainWindow

variable {w w' : ChainWindow} {d : Delivery} {fork : Fork} {parent : String} {slot : Slot}
  {older newer : List Block}

def below (w : ChainWindow) (slot : Slot) : List Block := w.blocks.filter (·.slot < slot)

def Holds (w : ChainWindow) (slot : Slot) : Prop := ∃ b ∈ w.blocks, b.slot = slot

/-- These blocks are none, or the last one has this hash. -/
def EndsWith (kept : List Block) (hash : String) : Prop := ∀ b ∈ kept.getLast?, b.hash = hash

theorem Tidy.below_eq {old : Block} (tidy : w.Tidy) (cut : w.blocks = older ++ old :: newer) :
    w.below old.slot = older := by
  have hrising := tidy.rising
  rw [cut, List.pairwise_append, List.pairwise_cons] at hrising
  obtain ⟨-, ⟨hnewer, -⟩, holder⟩ := hrising
  have hkept : older.filter (·.slot < old.slot) = older :=
    List.filter_eq_self.2 fun b hb => decide_eq_true (holder b hb old (List.mem_cons_self ..))
  have hdropped : newer.filter (·.slot < old.slot) = [] :=
    List.filter_eq_nil_iff.2 fun b hb hlt =>
      UInt64.lt_asymm (of_decide_eq_true hlt) (hnewer b hb)
  rw [below, cut, List.filter_append, List.filter_cons_of_neg (by simp), hkept, hdropped,
    List.append_nil]

/-- What a fork makes of the window of a block that names a parent. -/
structure Rewound (w : ChainWindow) (d : Delivery) (parent : String) (kept : List Block)
    (w' : ChainWindow) : Prop where
  isPrefix : kept <+: w.blocks
  blocks : ∃ hash, d.hash = some hash ∧ w'.blocks = kept ++ [⟨d.slot, hash⟩]
  /-- The new block is linked to what is left, but for a slot below which another block is last.
  -/
  linked_iff : EndsWith kept parent ↔ (w.Holds d.slot → EndsWith (w.below d.slot) parent)
  /-- For a new slot nothing that the block builds on is dropped. -/
  longest : ¬ w.Holds d.slot → ∀ b ∈ w.blocks.drop kept.length, b.hash ≠ parent

theorem Takes.rewound (takes : w.Takes d (some fork) w') (tidy : w.Tidy)
    (named : d.parentHash = some parent) : ∃ kept, w.Rewound d parent kept w' := by
  cases takes with
  | @replaced hash older newer old produced cut _ known _ =>
    have holds : w.Holds d.slot :=
      ⟨old, cut ▸ List.mem_append_right older (List.mem_cons_self ..), known⟩
    have hbelow : w.below d.slot = older := known ▸ tidy.below_eq cut
    refine ⟨older, cut ▸ List.prefix_append .., ⟨hash, produced, ?_⟩, ?_, fun hnew => ?_⟩
    · rw [tidy.push_keep cut (List.cons_ne_nil _ _)]
      rfl
    · rw [hbelow]
      exact ⟨fun linked _ => linked, fun linked => linked holds⟩
    · exact absurd holds hnew
  | @forked hash actual older newer head produced above top actually differs cut linked
      unlinked =>
    obtain rfl := Option.some.inj (actually.symm.trans named)
    have hnew : ¬ w.Holds d.slot := fun ⟨b, hb, hslot⟩ => above.absent b hb hslot
    have hdropped := dropped_ne_nil top differs cut linked
    refine ⟨older, cut ▸ List.prefix_append .., ⟨hash, produced, ?_⟩, ?_, fun _ => ?_⟩
    · rw [tidy.push_keep cut hdropped]
      rfl
    · exact iff_of_true linked fun holds => absurd holds hnew
    · rw [cut, List.drop_left]
      exact unlinked

/-- Every fork by a block that names a parent cuts the window to a prefix and adds the block. The
block is linked to that prefix exactly if its slot was new or the last block below the slot is the
parent it names. -/
theorem rewound_to_parent_iff {capacity : Nat} {told : List Delivery}
    (reports : ((after capacity told).observe d).1 = some fork)
    (named : d.parentHash = some parent) :
    ∃ kept, (after capacity told).Rewound d parent kept ((after capacity told).observe d).2 := by
  have takes := (after capacity told).takes_observe d
  rw [reports] at takes
  exact takes.rewound (tidy_after capacity told) named

theorem abandoned_head_is_rewound :
    ((after 10 row).observe (link 103 "d" "b")).1 = some ⟨103, "c", "b", 1⟩ ∧
      ∃ kept, (after 10 row).Rewound (link 103 "d" "b") "b" kept
        ((after 10 row).observe (link 103 "d" "b")).2 := by
  have reports : ((after 10 row).observe (link 103 "d" "b")).1 = some ⟨103, "c", "b", 1⟩ := by
    decide +kernel
  exact ⟨reports, rewound_to_parent_iff reports rfl⟩

/-- The block in slot 102 is replaced by one that builds on the block in slot 100. The block in
slot 101, on which it does not build, stays in the window. -/
theorem stale_block_stays :
    ((after 10 row).observe (link 102 "c2" "a")).1 = some ⟨102, "c", "a", 1⟩ ∧
      ∀ hash kept, kept <+: (after 10 row).blocks →
        ((after 10 row).observe (link 102 "c2" "a")).2.blocks = kept ++ [⟨102, hash⟩] →
        kept ≠ [] ∧ ¬ EndsWith kept "a" := by
  have hblocks : ((after 10 row).observe (link 102 "c2" "a")).2.blocks =
      [⟨100, "a"⟩, ⟨101, "b"⟩] ++ [⟨102, "c2"⟩] := by decide +kernel
  refine ⟨by decide +kernel, fun hash kept _ hkept => ?_⟩
  obtain ⟨rfl, -⟩ := List.append_inj' (hblocks.symm.trans hkept) rfl
  exact ⟨List.cons_ne_nil _ _, fun ends => absurd (ends ⟨101, "b"⟩ rfl) (by decide)⟩

end ChainWindow

end RouterHistory
