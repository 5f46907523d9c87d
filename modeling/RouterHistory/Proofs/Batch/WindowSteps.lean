import RouterHistory.Batch.ChainWindow

/-!
What observing a slot does to a window. There are six ways in which a slot is taken in. Two of
them are forks, and both cut the window into an older part that stays and a newer part that is
dropped.
-/
namespace RouterHistory

namespace ChainWindow

variable {w : ChainWindow} {d : Delivery} {older newer : List Block}

structure Above (w : ChainWindow) (slot : Slot) : Prop where
  absent : ∀ b ∈ w.blocks, b.slot ≠ slot
  head : ∀ b ∈ w.head?, b.slot < slot

def keep (w : ChainWindow) (older : List Block) : ChainWindow := { w with blocks := older }

/-- The ways in which a window takes in a slot, with the fork and the window that come of each. -/
inductive Takes (w : ChainWindow) (d : Delivery) : Option Fork → ChainWindow → Prop
  /-- No block was produced in the slot. -/
  | skipped (hash : d.hash = none) : Takes w d none w
  /-- The block is in the window. -/
  | repeated {hash : String} (produced : d.hash = some hash)
      (known : ⟨d.slot, hash⟩ ∈ w.blocks) : Takes w d none w
  /-- The slot is not above the head, and the window has no block to compare it with. -/
  | behind {hash : String} {head : Block} (produced : d.hash = some hash)
      (absent : ∀ b ∈ w.blocks, b.slot ≠ d.slot) (top : w.head? = some head)
      (below : d.slot ≤ head.slot) : Takes w d none w
  /-- The window has another block in the slot: it is dropped, with all above it. -/
  | replaced {hash : String} {older newer : List Block} {old : Block}
      (produced : d.hash = some hash) (cut : w.blocks = older ++ old :: newer)
      (first : ∀ b ∈ older, b.slot ≠ d.slot) (known : old.slot = d.slot)
      (differs : old.hash ≠ hash) :
      Takes w d (some ⟨d.slot, old.hash, d.parentHash.getD "", newer.length + 1⟩)
        ((w.keep older).push ⟨d.slot, hash⟩)
  /-- The block is above the head and builds on it, as far as it says. -/
  | extended {hash : String} (produced : d.hash = some hash) (above : w.Above d.slot)
      (linked : ∀ head ∈ w.head?, ∀ parent ∈ d.parentHash, head.hash = parent) :
      Takes w d none (w.push ⟨d.slot, hash⟩)
  /-- The block is above the head and builds on another one: all that is above that is dropped. -/
  | forked {hash parent : String} {older newer : List Block} {head : Block}
      (produced : d.hash = some hash) (above : w.Above d.slot) (top : w.head? = some head)
      (named : d.parentHash = some parent) (differs : head.hash ≠ parent)
      (cut : w.blocks = older ++ newer) (linked : ∀ b ∈ older.getLast?, b.hash = parent)
      (unlinked : ∀ b ∈ newer, b.hash ≠ parent) :
      Takes w d (some ⟨d.slot, head.hash, parent, newer.length⟩)
        ((w.keep older).push ⟨d.slot, hash⟩)

/-- What is found first parts the list. -/
theorem exists_of_findIdx? {α : Type} {p : α → Bool} {l : List α} {place : Nat}
    (h : l.findIdx? p = some place) : ∃ before x after, l = before ++ x :: after ∧
      before.length = place ∧ p x = true ∧ ∀ y ∈ before, p y = false := by
  obtain ⟨hlt, hx, hbefore⟩ := List.findIdx?_eq_some_iff_getElem.1 h
  refine ⟨l.take place, l[place], l.drop (place + 1), ?_, ?_, hx, fun y hy => ?_⟩
  · rw [List.getElem_cons_drop, List.take_append_drop]
  · rw [List.length_take, Nat.min_eq_left (Nat.le_of_lt hlt)]
  · obtain ⟨i, hi, rfl⟩ := List.getElem_of_mem hy
    rw [List.length_take] at hi
    rw [List.getElem_take]
    exact Bool.eq_false_iff.2 (hbefore i (by omega))

/-- The blocks that remain are those up to the last one of this hash. -/
theorem ancestry_spec (w : ChainWindow) (parent : String) : ∃ older newer,
    w.blocks = older ++ newer ∧ w.ancestry parent = older.length ∧
      (∀ b ∈ older.getLast?, b.hash = parent) ∧ ∀ b ∈ newer, b.hash ≠ parent := by
  unfold ancestry
  cases hfind : w.blocks.reverse.findIdx? fun b => b.hash = parent with
  | none =>
    rw [List.findIdx?_eq_none_iff] at hfind
    refine ⟨[], w.blocks, rfl, rfl, nofun, fun b hb => ?_⟩
    exact of_decide_eq_false (hfind b (List.mem_reverse.2 hb))
  | some place =>
    obtain ⟨newer, last, older, hblocks, rfl, hhash, hnewer⟩ := exists_of_findIdx? hfind
    rw [List.reverse_eq_iff, List.reverse_append, List.reverse_cons] at hblocks
    refine ⟨older.reverse ++ [last], newer.reverse, hblocks, ?_, fun b hb => ?_, fun b hb => ?_⟩
    · simp only [hblocks, List.length_append, List.length_reverse]
      omega
    · rw [List.getLast?_concat] at hb
      rw [← Option.some.inj hb]
      exact of_decide_eq_true hhash
    · exact of_decide_eq_false (hnewer b (List.mem_reverse.1 hb))

theorem take_eq_keep (hblocks : w.blocks = older ++ newer) :
    w.take older.length = w.keep older := by
  rw [take, hblocks, List.take_left, keep]

theorem takes_redeliver {hash : String} {place : Nat} (produced : d.hash = some hash)
    (hfind : (w.blocks.findIdx? fun b => b.slot = d.slot) = some place) {known : Block}
    (hknown : w.blocks[place]? = some known) :
    w.Takes d (w.redeliver d hash place known).1 (w.redeliver d hash place known).2 := by
  obtain ⟨older, old, newer, hblocks, rfl, hslot, holder⟩ := exists_of_findIdx? hfind
  have hold : old = known := by
    rw [hblocks, List.getElem?_append_right (Nat.le_refl _), Nat.sub_self] at hknown
    exact Option.some.inj hknown
  subst hold
  have hslot := of_decide_eq_true hslot
  unfold redeliver
  by_cases hsame : old.hash = hash
  · rw [if_pos hsame]
    refine .repeated produced ?_
    rw [hblocks, ← hslot, ← hsame]
    exact List.mem_append_right older (List.mem_cons_self ..)
  · rw [if_neg hsame]
    have hdepth : w.blocks.length - older.length = newer.length + 1 := by
      rw [hblocks, List.length_append, Nat.add_sub_cancel_left, List.length_cons]
    simp only [hdepth, take_eq_keep hblocks]
    exact .replaced produced hblocks (fun b hb => of_decide_eq_false (holder b hb)) hslot hsame

theorem takes_extend {hash : String} (produced : d.hash = some hash) (above : w.Above d.slot) :
    w.Takes d (w.extend d hash).1 (w.extend d hash).2 := by
  unfold extend mismatch?
  cases hhead : w.head? with
  | none => exact .extended produced above fun head htop => by rw [hhead] at htop; cases htop
  | some head =>
    cases hparent : d.parentHash with
    | none => exact .extended produced above fun _ _ parent hp => by rw [hparent] at hp; cases hp
    | some parent =>
      by_cases hsame : head.hash = parent
      · simp only [if_pos hsame]
        refine .extended produced above fun top htop named hnamed => ?_
        rw [hhead] at htop
        rw [hparent] at hnamed
        exact Option.some.inj htop ▸ Option.some.inj hnamed ▸ hsame
      · obtain ⟨older, newer, hblocks, hkept, hlinked, hunlinked⟩ := w.ancestry_spec parent
        have hdepth : w.blocks.length - older.length = newer.length := by
          rw [hblocks, List.length_append, Nat.add_sub_cancel_left]
        simp only [if_neg hsame, hkept, hdepth, take_eq_keep hblocks]
        exact .forked produced above hhead hparent hsame hblocks hlinked hunlinked

/-- Every slot is taken in in one of these ways. -/
theorem takes_observe (w : ChainWindow) (d : Delivery) :
    w.Takes d (w.observe d).1 (w.observe d).2 := by
  unfold observe
  cases hhash : d.hash with
  | none => exact .skipped hhash
  | some hash =>
    simp only
    cases hfind : w.blocks.findIdx? fun b => b.slot = d.slot with
    | some place =>
      obtain ⟨hlt, -⟩ := List.findIdx?_eq_some_iff_getElem.1 hfind
      simp only [List.getElem?_eq_getElem hlt]
      exact takes_redeliver hhash hfind (List.getElem?_eq_getElem hlt)
    | none =>
      have absent : ∀ b ∈ w.blocks, b.slot ≠ d.slot := fun b hb =>
        of_decide_eq_false (List.findIdx?_eq_none_iff.1 hfind b hb)
      cases hhead : w.head? with
      | none =>
        exact takes_extend hhash ⟨absent, fun b hb => by rw [hhead] at hb; cases hb⟩
      | some head =>
        by_cases hle : d.slot ≤ head.slot
        · simp only [if_pos hle]
          exact .behind hhash absent hhead hle
        · simp only [if_neg hle]
          refine takes_extend hhash ⟨absent, fun b hb => ?_⟩
          rw [hhead] at hb
          exact Option.some.inj hb ▸ UInt64.not_le.1 hle

end ChainWindow

end RouterHistory
