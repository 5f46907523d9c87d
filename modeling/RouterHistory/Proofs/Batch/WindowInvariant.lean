import RouterHistory.Proofs.Batch.WindowSteps

/-!
What holds of a window in any run. From an empty window on, the slots of the window rise, it never
outgrows its capacity, and the depth of a fork is the number of blocks that it takes away. Only a
block that is no fork can push another one out of the window, and only out of a full one.
-/
namespace RouterHistory

namespace ChainWindow

variable {w w' : ChainWindow} {d : Delivery} {signal : Option Fork} {fork : Fork} {b : Block}
  {older newer : List Block} {capacity : Nat}

theorem push_of_lt (hroom : w.blocks.length < w.capacity) (b : Block) :
    w.push b = w.keep (w.blocks ++ [b]) := by
  rw [push, if_neg (Nat.not_le.2 hroom), keep]

theorem push_of_full (hfull : w.blocks.length = w.capacity) (b : Block) :
    w.push b = w.keep (w.blocks.drop 1 ++ [b]) := by
  rw [push, if_pos (Nat.le_of_eq hfull.symm), keep]

/-- Whether or not one had to go, what stays is followed by the new block. -/
theorem exists_push (w : ChainWindow) (b : Block) : ∃ kept : List Block,
    kept.Sublist w.blocks ∧ (w.push b).blocks = kept ++ [b] := by
  unfold push
  split
  · exact ⟨_, List.drop_sublist 1 _, rfl⟩
  · exact ⟨_, List.Sublist.refl _, rfl⟩

theorem rising_push (rising : w.blocks.Pairwise fun b b' => b.slot < b'.slot)
    (hbelow : ∀ b' ∈ w.blocks, b'.slot < b.slot) :
    (w.push b).blocks.Pairwise fun b b' => b.slot < b'.slot := by
  obtain ⟨kept, hkept, hblocks⟩ := w.exists_push b
  rw [hblocks]
  refine List.pairwise_append.2 ⟨rising.sublist hkept, List.pairwise_singleton _ _, ?_⟩
  intro b' hb' b'' hb''
  cases List.mem_singleton.1 hb''
  exact hbelow b' (hkept.subset hb')

/-- Where the slots rise, the head is above all other blocks. -/
theorem le_head_of_rising (rising : w.blocks.Pairwise fun b b' => b.slot < b'.slot) {head : Block}
    (top : w.head? = some head) : ∀ b ∈ w.blocks, b.slot ≤ head.slot := by
  obtain ⟨before, hblocks⟩ := List.getLast?_eq_some_iff.1 top
  rw [hblocks, List.pairwise_append] at rising
  intro b hb
  rcases List.mem_append.1 (hblocks ▸ hb) with hold | hlast
  · exact UInt64.le_of_lt (rising.2.2 b hold head (List.mem_singleton_self head))
  · rw [List.mem_singleton.1 hlast]
    exact UInt64.le_refl _

theorem lt_of_head_lt {slot : Slot} (rising : w.blocks.Pairwise fun b b' => b.slot < b'.slot)
    (above : ∀ b ∈ w.head?, b.slot < slot) : ∀ b ∈ w.blocks, b.slot < slot := by
  intro b hb
  cases hhead : w.head? with
  | none =>
    rw [List.getLast?_eq_none_iff.1 hhead] at hb
    cases hb
  | some head =>
    exact UInt64.lt_of_le_of_lt (le_head_of_rising rising hhead b hb) (above head hhead)

/-- The slots of the window rise, and it is not too small for its blocks. -/
structure Tidy (w : ChainWindow) : Prop where
  positive : 0 < w.capacity
  bounded : w.blocks.length ≤ w.capacity
  rising : w.blocks.Pairwise fun b b' => b.slot < b'.slot

theorem Tidy.keep (tidy : w.Tidy) (cut : w.blocks = older ++ newer) : (w.keep older).Tidy := by
  have hprefix : older.Sublist w.blocks := cut ▸ List.sublist_append_left older newer
  exact ⟨tidy.positive, Nat.le_trans hprefix.length_le tidy.bounded, tidy.rising.sublist hprefix⟩

theorem length_push_le (w : ChainWindow) (b : Block) (hpositive : 0 < w.capacity)
    (hbounded : w.blocks.length ≤ w.capacity) : (w.push b).blocks.length ≤ w.capacity := by
  rcases Nat.lt_or_eq_of_le hbounded with hroom | hfull
  · rw [push_of_lt hroom, keep, List.length_append, List.length_singleton]
    exact hroom
  · rw [push_of_full hfull, keep, List.length_append, List.length_drop, List.length_singleton]
    omega

theorem Tidy.push (tidy : w.Tidy) (hbelow : ∀ b' ∈ w.blocks, b'.slot < b.slot) :
    (w.push b).Tidy :=
  ⟨tidy.positive, w.length_push_le b tidy.positive tidy.bounded, rising_push tidy.rising hbelow⟩

/-- What a fork leaves has room for the new block. -/
theorem Tidy.push_keep (tidy : w.Tidy) (cut : w.blocks = older ++ newer) (hdropped : newer ≠ [])
    (b : Block) : (w.keep older).push b = w.keep (older ++ [b]) := by
  refine push_of_lt ?_ b
  have hlength := congrArg List.length cut
  have hpos := List.length_pos_iff.2 hdropped
  have hbounded := tidy.bounded
  rw [List.length_append] at hlength
  change older.length < w.capacity
  omega

theorem Takes.capacity_eq (takes : w.Takes d signal w') : w'.capacity = w.capacity := by
  cases takes <;> rfl

theorem Takes.tidy (takes : w.Takes d signal w') (tidy : w.Tidy) : w'.Tidy := by
  cases takes with
  | skipped | repeated | behind => exact tidy
  | extended _ above _ => exact tidy.push (lt_of_head_lt tidy.rising above.head)
  | @replaced hash older newer old _ cut _ known _ =>
    have hrising := tidy.rising
    rw [cut, List.pairwise_append] at hrising
    have hbelow : ∀ b ∈ older, b.slot < old.slot := fun b hb =>
      hrising.2.2 b hb old (List.mem_cons_self ..)
    exact (tidy.keep cut).push (known ▸ hbelow)
  | forked _ above _ _ _ cut _ _ =>
    exact (tidy.keep cut).push fun b hb =>
      lt_of_head_lt tidy.rising above.head b (cut ▸ List.mem_append_left _ hb)

def fresh (capacity : Nat) : ChainWindow := ⟨max capacity 1, []⟩

theorem ofCapacity?_eq_some_iff :
    ofCapacity? capacity = some w ↔ blockBytes * capacity ≤ mostBytes ∧ w = fresh capacity := by
  unfold ofCapacity?
  by_cases hroom : blockBytes * capacity ≤ mostBytes
  · rw [if_pos hroom]
    exact ⟨fun h => ⟨hroom, (Option.some.inj h).symm⟩, fun h => h.2 ▸ rfl⟩
  · rw [if_neg hroom]
    exact ⟨nofun, fun h => absurd h.1 hroom⟩

theorem tidy_fresh (capacity : Nat) : (fresh capacity).Tidy :=
  ⟨Nat.lt_of_lt_of_le Nat.one_pos (Nat.le_max_right ..), Nat.zero_le _, List.Pairwise.nil⟩

/-- The window after a fresh one has taken in these slots. -/
def after (capacity : Nat) (told : List Delivery) : ChainWindow :=
  ((fresh capacity).observeAll told).2

theorem Tidy.observeAll (tidy : w.Tidy) (told : List Delivery) :
    (w.observeAll told).2.Tidy ∧ (w.observeAll told).2.capacity = w.capacity := by
  induction told generalizing w with
  | nil => exact ⟨tidy, rfl⟩
  | cons d rest ih =>
    have takes := w.takes_observe d
    obtain ⟨hafter, hcapacity⟩ := ih (takes.tidy tidy)
    exact ⟨hafter, hcapacity.trans takes.capacity_eq⟩

theorem tidy_after (capacity : Nat) (told : List Delivery) : (after capacity told).Tidy :=
  ((tidy_fresh capacity).observeAll told).1

theorem capacity_after (capacity : Nat) (told : List Delivery) :
    (after capacity told).capacity = max capacity 1 :=
  ((tidy_fresh capacity).observeAll told).2

structure CutBack (w : ChainWindow) (d : Delivery) (depth : Nat) (w' : ChainWindow) : Prop where
  positive : 1 ≤ depth
  inside : depth ≤ w.blocks.length
  length : w'.blocks.length = w.blocks.length - depth + 1
  kept : w'.blocks.take (w.blocks.length - depth) = w.blocks.take (w.blocks.length - depth)
  head : ∃ hash, d.hash = some hash ∧ w'.head? = some ⟨d.slot, hash⟩

/-- What a slot that is no fork adds to a window. -/
def Grown (w : ChainWindow) (d : Delivery) (w' : ChainWindow) : Prop :=
  ∃ hash, d.hash = some hash ∧
    (w.blocks.length < w.capacity ∧ w'.blocks = w.blocks ++ [⟨d.slot, hash⟩] ∨
      w.blocks.length = w.capacity ∧ w'.blocks = w.blocks.drop 1 ++ [⟨d.slot, hash⟩])

/-- The head does not link to a parent that only an older block can be. -/
theorem dropped_ne_nil {head : Block} {parent : String} (top : w.head? = some head)
    (differs : head.hash ≠ parent) (cut : w.blocks = older ++ newer)
    (linked : ∀ b ∈ older.getLast?, b.hash = parent) : newer ≠ [] := by
  rintro rfl
  rw [head?, cut, List.append_nil] at top
  exact differs (linked head top)

/-- Every fork is a cut into blocks that stay and blocks that are dropped. -/
theorem Takes.cut (takes : w.Takes d (some fork) w') (tidy : w.Tidy) : ∃ older newer hash,
    w.blocks = older ++ newer ∧ fork.depth = newer.length ∧ newer ≠ [] ∧ d.hash = some hash ∧
      w' = w.keep (older ++ [⟨d.slot, hash⟩]) := by
  cases takes with
  | replaced produced cut _ _ _ =>
    exact ⟨_, _, _, cut, rfl, List.cons_ne_nil _ _, produced,
      tidy.push_keep cut (List.cons_ne_nil _ _) _⟩
  | @forked hash parent older newer head produced _ top _ differs cut linked _ =>
    have hdropped := dropped_ne_nil top differs cut linked
    exact ⟨older, newer, hash, cut, rfl, hdropped, produced, tidy.push_keep cut hdropped _⟩

theorem Takes.cutBack (takes : w.Takes d (some fork) w') (tidy : w.Tidy) :
    w.CutBack d fork.depth w' := by
  obtain ⟨older, newer, hash, cut, hdepth, hdropped, produced, rfl⟩ := takes.cut tidy
  have hpos := List.length_pos_iff.2 hdropped
  have hlength : w.blocks.length = older.length + newer.length := by rw [cut, List.length_append]
  have hkept : w.blocks.length - fork.depth = older.length := by omega
  refine ⟨by omega, by omega, ?_, ?_, hash, produced, List.getLast?_concat⟩
  · rw [hkept, keep, List.length_append, List.length_singleton]
  · rw [hkept, keep, cut, List.take_left, List.take_left]

theorem Takes.grown (takes : w.Takes d none w') (tidy : w.Tidy) : w' = w ∨ w.Grown d w' := by
  cases takes with
  | skipped | repeated | behind => exact .inl rfl
  | @extended hash produced _ _ =>
    refine .inr ⟨hash, produced, ?_⟩
    rcases Nat.lt_or_eq_of_le tidy.bounded with hroom | hfull
    · exact .inl ⟨hroom, by rw [push_of_lt hroom, keep]⟩
    · exact .inr ⟨hfull, by rw [push_of_full hfull, keep]⟩

/-- From an empty window on, whatever it is told: it never outgrows its capacity and its slots
rise. A fork takes away as many blocks as its depth says and leaves the others, with the new block
for a head; without a fork the window stays or gets the block, at the cost of the oldest one if it
was full. -/
theorem window_kept_in_order (capacity : Nat) (told : List Delivery) (d : Delivery) :
    let w := after capacity told
    (w.capacity = max capacity 1 ∧ w.blocks.length ≤ w.capacity ∧
        w.blocks.Pairwise fun b b' => b.slot < b'.slot) ∧
      (∀ fork, (w.observe d).1 = some fork → w.CutBack d fork.depth (w.observe d).2) ∧
      ((w.observe d).1 = none → (w.observe d).2 = w ∨ w.Grown d (w.observe d).2) := by
  intro w
  have tidy : w.Tidy := tidy_after capacity told
  have takes := w.takes_observe d
  refine ⟨⟨capacity_after capacity told, tidy.bounded, tidy.rising⟩, fun fork hfork => ?_,
    fun hquiet => ?_⟩
  · rw [hfork] at takes
    exact takes.cutBack tidy
  · rw [hquiet] at takes
    exact takes.grown tidy

def link (slot : Slot) (hash parent : String) : Delivery :=
  ⟨slot, some hash, some parent, none, []⟩

def row : List Delivery := [link 100 "a" "0", link 101 "b" "a", link 102 "c" "b"]

/-- The block in slot 101 is replaced, and the one above it goes with it. -/
theorem replaced_block_cuts_two :
    ((after 10 row).observe (link 101 "b2" "a")).1 = some ⟨101, "b", "a", 2⟩ ∧
      (after 10 row).CutBack (link 101 "b2" "a") 2
        ((after 10 row).observe (link 101 "b2" "a")).2 := by
  have reports : ((after 10 row).observe (link 101 "b2" "a")).1 = some ⟨101, "b", "a", 2⟩ := by
    decide +kernel
  exact ⟨reports, (window_kept_in_order 10 row _).2.1 _ reports⟩

end ChainWindow

end RouterHistory
