import RouterHistory.Proofs.Batch.WindowInvariant

/-!
A window that is told of a chain without forks, stretch by stretch. A stretch may go back to any
slot that was told before, also to one whose block has left the window, but it leaves none out.
Then every block above the window builds on its head, every other block is known or lies behind,
and no fork is seen.
-/
namespace RouterHistory

/-- Slots in rising order, in which a block that names a parent names the block before it. -/
structure Lineage (chain : List Delivery) : Prop where
  rising : chain.Pairwise fun d e => d.slot < e.slot
  builds : ∀ d ∈ chain, ∀ e ∈ chain, d.slot < e.slot → d.hash ≠ none → e.hash ≠ none →
    (∀ u ∈ chain, d.slot < u.slot → u.slot < e.slot → u.hash = none) →
      e.parentHash = none ∨ e.parentHash = d.hash

structure Stretch where
  start : Nat
  stop : Nat

namespace Stretch

def of (chain : List Delivery) (s : Stretch) : List Delivery := (chain.take s.stop).drop s.start

structure Within (chain : List Delivery) (s : Stretch) : Prop where
  nonempty : s.start < s.stop
  bounded : s.stop ≤ chain.length

/-- Each of the stretches starts between the `first` place and `next`, which is the place after
the highest one so far. -/
def GoOn (chain : List Delivery) (first : Nat) : (next : Nat) → List Stretch → Prop
  | _, [] => True
  | next, s :: rest => s.Within chain ∧ (first ≤ s.start ∧ s.start ≤ next) ∧
      GoOn chain first (max next s.stop) rest

end Stretch

def IsHighest (told : List Delivery) : Option Block → Prop
  | none => ∀ d ∈ told, d.hash = none
  | some b => (∃ d ∈ told, d.slot = b.slot ∧ d.hash = some b.hash) ∧
      ∀ d ∈ told, d.hash ≠ none → d.slot ≤ b.slot

namespace Lineage

variable {chain told past rest : List Delivery} {d e : Delivery} {w w' : ChainWindow}
  {signal : Option Fork} {head : Option Block} {b : Block} {first : Slot} {start next : Nat}

theorem eq_of_slot_eq (lineage : Lineage chain) (hd : d ∈ chain) (he : e ∈ chain)
    (hslot : d.slot = e.slot) : d = e := by
  obtain ⟨i, hi, rfl⟩ := List.getElem_of_mem hd
  obtain ⟨j, hj, rfl⟩ := List.getElem_of_mem he
  have hrising := List.pairwise_iff_getElem.1 lineage.rising
  rcases Nat.lt_trichotomy i j with hlt | rfl | hlt
  · exact absurd hslot (UInt64.ne_of_lt (hrising i j hi hj hlt))
  · rfl
  · exact absurd hslot.symm (UInt64.ne_of_lt (hrising j i hj hi hlt))

theorem isHighest_concat_skipped (highest : IsHighest told head) (hd : d.hash = none) :
    IsHighest (told ++ [d]) head := by
  cases head with
  | none => exact List.forall_mem_append.2 ⟨highest, List.forall_mem_singleton.2 hd⟩
  | some b =>
    obtain ⟨⟨e, he, hblock⟩, htop⟩ := highest
    refine ⟨⟨e, List.mem_append_left _ he, hblock⟩, List.forall_mem_append.2 ⟨htop, ?_⟩⟩
    exact List.forall_mem_singleton.2 fun hne => absurd hd hne

theorem isHighest_concat_below (highest : IsHighest told (some b)) (hle : d.slot ≤ b.slot) :
    IsHighest (told ++ [d]) (some b) := by
  obtain ⟨⟨e, he, hblock⟩, htop⟩ := highest
  refine ⟨⟨e, List.mem_append_left _ he, hblock⟩, List.forall_mem_append.2 ⟨htop, ?_⟩⟩
  exact List.forall_mem_singleton.2 fun _ => hle

theorem isHighest_concat_above {hash : String} (highest : IsHighest told head)
    (hd : d.hash = some hash) (habove : ∀ b ∈ head, b.slot < d.slot) :
    IsHighest (told ++ [d]) (some ⟨d.slot, hash⟩) := by
  refine ⟨⟨d, List.mem_append_right _ (List.mem_singleton_self d), rfl, hd⟩,
    List.forall_mem_append.2 ⟨fun e he hne => ?_, ?_⟩⟩
  · cases head with
    | none => exact absurd (highest e he) hne
    | some b => exact UInt64.le_of_lt (UInt64.lt_of_le_of_lt (highest.2 e he hne) (habove b rfl))
  · exact List.forall_mem_singleton.2 fun _ => UInt64.le_refl _

/-- The window knows the highest of the blocks that were told, and no other blocks than these. -/
structure Abreast (chain : List Delivery) (first : Slot) (past : List Delivery)
    (w : ChainWindow) : Prop where
  tidy : w.Tidy
  inside : ∀ e ∈ past, e ∈ chain ∧ first ≤ e.slot
  known : ∀ b ∈ w.blocks, ∃ e ∈ past, e.slot = b.slot ∧ e.hash = some b.hash
  top : IsHighest past w.head?

structure Next (chain : List Delivery) (first : Slot) (past : List Delivery) (d : Delivery) :
    Prop where
  mem : d ∈ chain
  first_le : first ≤ d.slot
  unbroken : ∀ e ∈ chain, first ≤ e.slot → e.slot < d.slot → e ∈ past

theorem Abreast.of_mem (abreast : Abreast chain first past w) (hb : b ∈ w.blocks) :
    ∃ e ∈ chain, first ≤ e.slot ∧ e.slot = b.slot ∧ e.hash = some b.hash := by
  obtain ⟨e, he, hblock⟩ := abreast.known b hb
  obtain ⟨hchain, hfirst⟩ := abreast.inside e he
  exact ⟨e, hchain, hfirst, hblock⟩

/-- A block above the window names its head, if it names a parent. -/
theorem parent_eq_head (lineage : Lineage chain) (abreast : Abreast chain first past w)
    (comes : Next chain first past d) (produced : d.hash ≠ none) (top : w.head? = some b)
    (habove : b.slot < d.slot) : d.parentHash = none ∨ d.parentHash = some b.hash := by
  obtain ⟨e, he, hfirst, hslot, hhash⟩ := abreast.of_mem (List.mem_of_getLast? top)
  have highest : IsHighest past (some b) := top ▸ abreast.top
  rw [← hhash]
  refine lineage.builds e he d comes.mem (hslot ▸ habove) (by simp [hhash]) produced ?_
  intro u hu hlow hhigh
  refine Classical.byContradiction fun hne => ?_
  have hpast := comes.unbroken u hu (UInt64.le_trans hfirst (UInt64.le_of_lt hlow)) hhigh
  exact UInt64.not_le.2 (hslot ▸ hlow) (highest.2 u hpast hne)

theorem Abreast.concat (abreast : Abreast chain first past w) (comes : Next chain first past d)
    (tidy : w'.Tidy)
    (hknown : ∀ b ∈ w'.blocks, b ∈ w.blocks ∨ d.slot = b.slot ∧ d.hash = some b.hash)
    (htop : IsHighest (past ++ [d]) w'.head?) : Abreast chain first (past ++ [d]) w' := by
  refine ⟨tidy, ?_, fun b hb => ?_, htop⟩
  · exact List.forall_mem_append.2
      ⟨abreast.inside, List.forall_mem_singleton.2 ⟨comes.mem, comes.first_le⟩⟩
  · rcases hknown b hb with hold | hnew
    · obtain ⟨e, he, hblock⟩ := abreast.known b hold
      exact ⟨e, List.mem_append_left _ he, hblock⟩
    · exact ⟨d, List.mem_append_right _ (List.mem_singleton_self d), hnew⟩

/-- What comes next is never a fork. -/
theorem Abreast.takes (lineage : Lineage chain) (abreast : Abreast chain first past w)
    (comes : Next chain first past d) (takes : w.Takes d signal w') :
    signal = none ∧ Abreast chain first (past ++ [d]) w' := by
  have tidy := takes.tidy abreast.tidy
  have stays : ∀ b ∈ w.blocks, b ∈ w.blocks ∨ d.slot = b.slot ∧ d.hash = some b.hash :=
    fun _ hb => .inl hb
  cases takes with
  | skipped skipped =>
    exact ⟨rfl, abreast.concat comes tidy stays (isHighest_concat_skipped abreast.top skipped)⟩
  | @repeated hash produced known =>
    have htop : w.head? = some (w.blocks.getLast (List.ne_nil_of_mem known)) :=
      List.getLast?_eq_some_getLast _
    have highest : IsHighest past (some _) := htop ▸ abreast.top
    refine ⟨rfl, abreast.concat comes tidy stays ?_⟩
    rw [htop]
    exact isHighest_concat_below highest
      (ChainWindow.le_head_of_rising abreast.tidy.rising htop _ known)
  | @behind hash top produced absent htop below =>
    have highest : IsHighest past (some top) := htop ▸ abreast.top
    refine ⟨rfl, abreast.concat comes tidy stays ?_⟩
    rw [htop]
    exact isHighest_concat_below highest below
  | @replaced hash older newer old produced cut _ known differs =>
    have hold : old ∈ w.blocks := cut ▸ List.mem_append_right older (List.mem_cons_self ..)
    obtain ⟨e, he, -, hslot, hhash⟩ := abreast.of_mem hold
    obtain rfl := lineage.eq_of_slot_eq he comes.mem (hslot.trans known)
    exact absurd (Option.some.inj (hhash.symm.trans produced)) differs
  | @extended hash produced above _ =>
    obtain ⟨kept, hkept, hblocks⟩ := w.exists_push ⟨d.slot, hash⟩
    have hhead : (w.push ⟨d.slot, hash⟩).head? = some ⟨d.slot, hash⟩ := List.getLast?_concat
    refine ⟨rfl, abreast.concat comes tidy (fun b hb => ?_) ?_⟩
    · rw [hblocks] at hb
      rcases List.mem_append.1 hb with hold | hnew
      · exact .inl (hkept.subset hold)
      · cases List.mem_singleton.1 hnew
        exact .inr ⟨rfl, produced⟩
    · rw [hhead]
      exact isHighest_concat_above abreast.top produced above.head
  | @forked hash parent older newer top produced above htop named differs _ _ _ =>
    have hne : d.hash ≠ none := by simp [produced]
    rcases parent_eq_head lineage abreast comes hne htop (above.head top htop) with hno | hsame
    · cases named.symm.trans hno
    · exact absurd (Option.some.inj (hsame.symm.trans named)) differs

def Unbroken (chain : List Delivery) (first : Slot) : List Delivery → List Delivery → Prop
  | _, [] => True
  | past, d :: rest => Next chain first past d ∧ Unbroken chain first (past ++ [d]) rest

theorem unbroken_append {before after : List Delivery} :
    Unbroken chain first past (before ++ after) ↔
      Unbroken chain first past before ∧ Unbroken chain first (past ++ before) after := by
  induction before generalizing past with
  | nil => simp [Unbroken]
  | cons d before ih => simp [Unbroken, ih, and_assoc]

theorem abreast_fresh (chain : List Delivery) (first : Slot) (capacity : Nat) :
    Abreast chain first [] (ChainWindow.fresh capacity) :=
  ⟨ChainWindow.tidy_fresh capacity, nofun, nofun, fun _ hd => absurd hd List.not_mem_nil⟩

theorem Abreast.observeAll (lineage : Lineage chain) (abreast : Abreast chain first past w)
    (unbroken : Unbroken chain first past rest) :
    (w.observeAll rest).1 = [] ∧ Abreast chain first (past ++ rest) (w.observeAll rest).2 := by
  induction rest generalizing past w with
  | nil => exact ⟨rfl, (List.append_nil past).symm ▸ abreast⟩
  | cons d rest ih =>
    obtain ⟨comes, hrest⟩ := unbroken
    obtain ⟨hquiet, hafter⟩ := abreast.takes lineage comes (w.takes_observe d)
    obtain ⟨hforks, hend⟩ := ih hafter hrest
    rw [List.append_assoc, List.singleton_append] at hend
    refine ⟨?_, hend⟩
    simp only [ChainWindow.observeAll, hquiet, hforks, Option.toList_none, List.append_nil]

/-- The places of the chain from `start` on, up to the one before `next`, were told. -/
def Covers (chain : List Delivery) (start next : Nat) (past : List Delivery) : Prop :=
  ∀ i (h : i < chain.length), start ≤ i → i < next → chain[i] ∈ past

/-- In a rising chain the places are in the order of their slots. -/
theorem lt_of_slot_lt (lineage : Lineage chain) {i j : Nat} (hi : i < chain.length)
    (hj : j < chain.length) (hlt : chain[i].slot < chain[j].slot) : i < j := by
  refine Nat.lt_of_not_le fun hle => ?_
  rcases Nat.lt_or_eq_of_le hle with hback | rfl
  · have hslots := List.pairwise_iff_getElem.1 lineage.rising j i hj hi hback
    exact UInt64.lt_asymm hlt hslots
  · exact UInt64.lt_irrefl _ hlt

theorem Covers.comes_next (lineage : Lineage chain) (hstart : start < chain.length) {i : Nat}
    (covers : Covers chain start i past) (hi : i < chain.length) (hle : start ≤ i) :
    Next chain chain[start].slot past chain[i] := by
  refine ⟨List.getElem_mem hi, ?_, fun e he hfirst hlt => ?_⟩
  · rcases Nat.lt_or_eq_of_le hle with hlt | rfl
    · have hslots := List.pairwise_iff_getElem.1 lineage.rising start i hstart hi hlt
      exact UInt64.le_of_lt hslots
    · exact UInt64.le_refl _
  · obtain ⟨j, hj, rfl⟩ := List.getElem_of_mem he
    have hlow : start ≤ j := Nat.le_of_not_lt fun hback => UInt64.not_le.2
      (List.pairwise_iff_getElem.1 lineage.rising j start hj hstart hback) hfirst
    exact covers j hj hlow (lineage.lt_of_slot_lt hj hi hlt)

theorem Covers.concat {i : Nat} (covers : Covers chain start i past) (hi : i < chain.length) :
    Covers chain start (i + 1) (past ++ [chain[i]]) := by
  intro j hj hlow hhigh
  rcases Nat.lt_or_eq_of_le (Nat.le_of_lt_succ hhigh) with hlt | rfl
  · exact List.mem_append_left _ (covers j hj hlow hlt)
  · exact List.mem_append_right _ (List.mem_singleton_self _)

/-- A stretch that starts where the places before it were told. -/
theorem Covers.unbroken (lineage : Lineage chain) (hstart : start < chain.length) {low stop : Nat}
    (hstop : stop ≤ chain.length) (covers : Covers chain start low past) (hle : start ≤ low) :
    Unbroken chain chain[start].slot past ((chain.take stop).drop low) := by
  induction hn : stop - low generalizing low past with
  | zero =>
    have hnil : (chain.take stop).drop low = [] := by
      rw [List.drop_eq_nil_iff, List.length_take]
      omega
    rw [hnil]
    trivial
  | succ n ih =>
    have hlow : low < (chain.take stop).length := by
      rw [List.length_take]
      omega
    rw [List.drop_eq_getElem_cons hlow, List.getElem_take]
    have hlength : low < chain.length := by omega
    exact ⟨covers.comes_next lineage hstart hlength hle,
      ih (covers.concat hlength) (by omega) (by omega)⟩

theorem Covers.append_stretch {s : Stretch} (covers : Covers chain start next past)
    (hle : s.start ≤ next) : Covers chain start (max next s.stop) (past ++ s.of chain) := by
  intro i hi hlow hhigh
  by_cases hnext : i < next
  · exact List.mem_append_left _ (covers i hi hlow hnext)
  · refine List.mem_append_right _ (List.mem_iff_getElem.2 ⟨i - s.start, ?_, ?_⟩)
    · rw [Stretch.of, List.length_drop, List.length_take]
      omega
    · simp only [Stretch.of, List.getElem_drop, List.getElem_take]
      congr 1
      omega

theorem unbroken_stretches (lineage : Lineage chain) (hstart : start < chain.length)
    {stretches : List Stretch} (covers : Covers chain start next past)
    (goOn : Stretch.GoOn chain start next stretches) :
    Unbroken chain chain[start].slot past (stretches.flatMap (·.of chain)) := by
  induction stretches generalizing next past with
  | nil => trivial
  | cons s rest ih =>
    obtain ⟨within, ⟨hlow, hhigh⟩, hrest⟩ := goOn
    rw [List.flatMap_cons, unbroken_append]
    have hbefore : Covers chain start s.start past := fun i hi hfirst hlt =>
      covers i hi hfirst (Nat.lt_of_lt_of_le hlt hhigh)
    exact ⟨hbefore.unbroken lineage hstart within.bounded hlow,
      ih (covers.append_stretch hhigh) hrest⟩

/-- Whatever the size of the window: as long as the stretches of a lineage start no lower than the
first one and leave no slot out, no delivery is a fork and the head is the highest block that was
told. -/
theorem no_false_forks (lineage : Lineage chain) (capacity : Nat) {s : Stretch}
    {rest : List Stretch} (within : s.Within chain)
    (goOn : Stretch.GoOn chain s.start s.stop rest) {told : List Delivery}
    (begun : told <+: (s :: rest).flatMap (·.of chain)) :
    ((ChainWindow.fresh capacity).observeAll told).1 = [] ∧
      IsHighest told (ChainWindow.after capacity told).head? := by
  have hnonempty := within.nonempty
  have hbounded := within.bounded
  have hstart : s.start < chain.length := by omega
  have hcovers : Covers chain s.start s.start [] := fun _ _ hlow hhigh => by omega
  have hall : Stretch.GoOn chain s.start s.start (s :: rest) := by
    refine ⟨within, ⟨Nat.le_refl _, Nat.le_refl _⟩, ?_⟩
    rwa [Nat.max_eq_right (Nat.le_of_lt hnonempty)]
  obtain ⟨later, hlater⟩ := begun
  have hunbroken := unbroken_stretches lineage hstart hcovers hall
  rw [← hlater, unbroken_append] at hunbroken
  obtain ⟨hforks, habreast⟩ :=
    (abreast_fresh chain _ capacity).observeAll lineage hunbroken.1
  exact ⟨hforks, habreast.top⟩

def shortChain : List Delivery :=
  [⟨1, some "a", some "0", none, []⟩, .skipped 2, ⟨4, some "b", some "a", none, []⟩,
    ⟨5, some "c", none, none, []⟩]

theorem lineage_shortChain : Lineage shortChain :=
  ⟨by decide +kernel, by decide +kernel⟩

/-- A window for one block. The second stretch goes back to one that is no longer in it. -/
theorem told_again_no_fork :
    ((ChainWindow.fresh 1).observeAll
        ([⟨0, 3⟩, ⟨0, 2⟩, ⟨1, 4⟩].flatMap (Stretch.of shortChain))).1 = [] ∧
      IsHighest ([⟨0, 3⟩, ⟨0, 2⟩, ⟨1, 4⟩].flatMap (Stretch.of shortChain))
        (ChainWindow.after 1 ([⟨0, 3⟩, ⟨0, 2⟩, ⟨1, 4⟩].flatMap
          (Stretch.of shortChain))).head? := by
  have goOn : Stretch.GoOn shortChain 0 3 [⟨0, 2⟩, ⟨1, 4⟩] :=
    ⟨⟨by decide, by decide⟩, by decide, ⟨by decide, by decide⟩, by decide, trivial⟩
  exact no_false_forks lineage_shortChain 1 ⟨by decide, by decide⟩ goOn (List.prefix_refl _)

end Lineage

end RouterHistory
