import RouterHistory.Batch.Fetch
import RouterHistory.Proofs.Batch.GaplessSlots
import RouterHistory.Proofs.Batch.WindowInvariant

/-!
A window against a chain that has no forks. As long as the deliveries go on where the window ends,
every block builds on the head of the window. A window that others have left behind is different:
its head is not the last block before the next delivery, and the first block that comes looks like
a fork.
-/
namespace RouterHistory

/-- A chain in which every block builds on the one before it. -/
structure LinearChain where
  /-- The hash of the block in a slot, if one was produced. -/
  hash : Slot → Option String
  /-- The parent that the block names. -/
  parent : Slot → Option String
  builds : ∀ {s t : Slot} {h k : String}, s < t → hash s = some h → hash t = some k →
    (∀ u, s < u → u < t → hash u = none) → parent t = some h

namespace LinearChain

variable {chain : LinearChain} {a : Nat} {h k : String} {slot : Slot}

def LastBelow (chain : LinearChain) (a : Nat) (h : String) : Prop :=
  ∃ q : Slot, q.toNat < a ∧ chain.hash q = some h ∧
    ∀ u : Slot, q < u → u.toNat < a → chain.hash u = none

theorem LastBelow.unique (hh : chain.LastBelow a h) (hk : chain.LastBelow a k) : h = k := by
  obtain ⟨q, hq, hhash, hnone⟩ := hh
  obtain ⟨r, hr, khash, knone⟩ := hk
  have hqr : ¬ q < r := fun hlt => by
    rw [hnone r hlt hr] at khash
    cases khash
  have hrq : ¬ r < q := fun hlt => by
    rw [knone q hlt hq] at hhash
    cases hhash
  have hsame : q = r := UInt64.le_antisymm (UInt64.not_lt.1 hrq) (UInt64.not_lt.1 hqr)
  subst hsame
  exact Option.some.inj (hhash.symm.trans khash)

theorem lastBelow_succ_of_some (hslot : chain.hash slot = some h) :
    chain.LastBelow (slot.toNat + 1) h := by
  refine ⟨slot, by omega, hslot, fun u hlt hle => ?_⟩
  rw [UInt64.lt_iff_toNat_lt] at hlt
  omega

/-- A slot without a block changes nothing. -/
theorem lastBelow_succ_of_none (hnone : ∀ s : Slot, s.toNat = a → chain.hash s = none) :
    chain.LastBelow (a + 1) h ↔ chain.LastBelow a h := by
  constructor
  · rintro ⟨q, hq, hhash, hrest⟩
    have hne : q.toNat ≠ a := fun heq => by
      rw [hnone q heq] at hhash
      cases hhash
    exact ⟨q, by omega, hhash, fun u hlt hle => hrest u hlt (by omega)⟩
  · rintro ⟨q, hq, hhash, hrest⟩
    refine ⟨q, by omega, hhash, fun u hlt hle => ?_⟩
    by_cases heq : u.toNat = a
    · exact hnone u heq
    · exact hrest u hlt (by omega)

/-- If there are blocks before a slot, one is the last. -/
theorem exists_lastBelow (hslot : chain.hash slot ≠ none) (hlt : slot.toNat < a) :
    ∃ h, chain.LastBelow a h := by
  induction a with
  | zero => omega
  | succ a ih =>
    by_cases hblock : ∃ s : Slot, s.toNat = a ∧ chain.hash s ≠ none
    · obtain ⟨s, rfl, hs⟩ := hblock
      obtain ⟨h, hh⟩ := Option.ne_none_iff_exists'.1 hs
      exact ⟨h, lastBelow_succ_of_some hh⟩
    · have hnone : ∀ s : Slot, s.toNat = a → chain.hash s = none := fun s hs =>
        not_not.1 fun hne => hblock ⟨s, hs, hne⟩
      have hne : slot.toNat ≠ a := fun heq => hslot (hnone slot heq)
      obtain ⟨h, hh⟩ := ih (by omega)
      exact ⟨h, (lastBelow_succ_of_none hnone).2 hh⟩

theorem LastBelow.parent (hlast : chain.LastBelow slot.toNat h)
    (hslot : chain.hash slot = some k) :
    chain.parent slot = some h := by
  obtain ⟨q, hq, hhash, hnone⟩ := hlast
  refine chain.builds (UInt64.lt_iff_toNat_lt.2 hq) hhash hslot fun u hlt hlt' => ?_
  exact hnone u hlt (UInt64.lt_iff_toNat_lt.1 hlt')

structure Tells (chain : LinearChain) (d : Delivery) : Prop where
  hash : d.hash = chain.hash d.slot
  parent : d.hash ≠ none → d.parentHash = chain.parent d.slot

/-- What may be delivered for a range: what the chain says, and no block is left out. -/
structure Serves (chain : LinearChain) (first last : Slot) (raw : List Delivery) : Prop where
  sound : ∀ d ∈ raw, chain.Tells d
  complete : ∀ slot, first ≤ slot → slot ≤ last → chain.hash slot ≠ none →
    ∃ d ∈ raw, d.slot = slot

variable {first last : Slot} {raw : List Delivery}

theorem Tells.with_transactions {d : Delivery} (tells : chain.Tells d) (txs : List Transaction) :
    chain.Tells { d with transactions := txs } := ⟨tells.hash, tells.parent⟩

/-- A slot that was delivered is gathered. -/
theorem getElem?_foldl_absorb_ne_none (deliveries : List Delivery) (table : Gapless.Table)
    (hslot : table[slot]? ≠ none ∨ ∃ d ∈ deliveries, d.slot = slot) :
    (deliveries.foldl Gapless.absorb table)[slot]? ≠ none := by
  induction deliveries generalizing table with
  | nil =>
    rcases hslot with htable | ⟨d, hd, -⟩
    · exact htable
    · exact absurd hd List.not_mem_nil
  | cons d rest ih =>
    refine ih _ ?_
    rw [Gapless.getElem?_absorb]
    by_cases hd : d.slot = slot
    · rw [if_pos hd]
      exact .inl nofun
    · rw [if_neg hd]
      refine hslot.imp_right fun hmem => ?_
      obtain ⟨d', hd', hsame⟩ := hmem
      rcases List.mem_cons.1 hd' with rfl | hrest
      · exact absurd hsame hd
      · exact ⟨d', hrest, hsame⟩

/-- What is gathered for a slot says what the chain says. -/
theorem Serves.tells_entry (served : chain.Serves first last raw) (hfirst : first ≤ slot)
    (hlast : slot ≤ last) : chain.Tells (Gapless.entry (Gapless.gather first last raw) slot) := by
  unfold Gapless.entry
  cases hentry : (Gapless.gather first last raw)[slot]? with
  | some d =>
    refine Gapless.foldl_absorb_header (fun _ d => chain.Tells d)
      (fun _ _ txs tells => tells.with_transactions txs) _ ?_ ∅ (by simp) slot d hentry
    exact fun d hd => served.sound d (List.mem_of_mem_filter hd)
  | none =>
    have hnone : chain.hash slot = none := by
      by_contra hne
      obtain ⟨d, hd, hsame⟩ := served.complete slot hfirst hlast hne
      refine getElem?_foldl_absorb_ne_none _ ∅
        (.inr ⟨d, List.mem_filter.2 ⟨hd, ?_⟩, hsame⟩) hentry
      simp [hsame, hfirst, hlast]
    exact ⟨hnone.symm, fun hne => absurd rfl hne⟩

/-- Deliveries of one slot after the other, from a slot on. -/
structure InTurn (chain : LinearChain) (a : Nat) (ds : List Delivery) : Prop where
  slots : ds.map (fun d => d.slot.toNat) = List.range' a ds.length
  tells : ∀ d ∈ ds, chain.Tells d

theorem InTurn.cons {d : Delivery} {rest : List Delivery} (turns : chain.InTurn a (d :: rest)) :
    d.slot.toNat = a ∧ chain.Tells d ∧ chain.InTurn (a + 1) rest := by
  have hslots := turns.slots
  rw [List.map_cons, List.length_cons, List.range'_succ, List.cons.injEq] at hslots
  exact ⟨hslots.1, turns.tells d (List.mem_cons_self ..), hslots.2,
    fun d' hd' => turns.tells d' (List.mem_cons_of_mem d hd')⟩

/-- A batch has every slot of its range, in order. -/
theorem map_slot_routerSlots (first last : Slot) (ids : List String) (raw : List Delivery) :
    (Batch.routerSlots first last ids raw).map Delivery.slot = Slot.through first last := by
  unfold Batch.routerSlots
  rw [List.map_map]
  exact Gapless.map_slot_slots first last raw

theorem toNat_routerSlots (first last : Slot) (ids : List String) (raw : List Delivery) :
    (Batch.routerSlots first last ids raw).map (fun d => d.slot.toNat) =
      List.range' first.toNat (last.toNat + 1 - first.toNat) := by
  rw [← Slot.toNat_through, ← map_slot_routerSlots first last ids raw, List.map_map]
  rfl

theorem length_routerSlots (first last : Slot) (ids : List String) (raw : List Delivery) :
    (Batch.routerSlots first last ids raw).length = last.toNat + 1 - first.toNat := by
  have hslots := congrArg List.length (toNat_routerSlots first last ids raw)
  rwa [List.length_map, List.length_range'] at hslots

/-- What was served for a batch comes in turn. -/
theorem Serves.inTurn (served : chain.Serves first last raw) (ids : List String) :
    chain.InTurn first.toNat (Batch.routerSlots first last ids raw) := by
  constructor
  · rw [length_routerSlots, toNat_routerSlots]
  · intro d hd
    obtain ⟨e, he, rfl⟩ := List.mem_map.1 hd
    rw [Gapless.slots_eq_fill] at he
    obtain ⟨s, hs, seen, rfl⟩ := Gapless.exists_of_mem_fill he
    obtain ⟨hfirst, hlast⟩ := Slot.mem_through.1 hs
    exact ((served.tells_entry hfirst hlast).with_transactions _).with_transactions _

structure Along (chain : LinearChain) (w : ChainWindow) : Prop where
  known : ∀ b ∈ w.blocks, chain.hash b.slot = some b.hash
  ordered : w.blocks.Pairwise fun b b' => b.slot < b'.slot

/-- The window has been left behind: before the slot there is a later block than its head. -/
def Lags (chain : LinearChain) (a : Nat) (w : ChainWindow) : Prop :=
  ∃ b h, w.head? = some b ∧ b.slot.toNat < a ∧ chain.LastBelow a h ∧ h ≠ b.hash

variable {w : ChainWindow} {b : Block} {d : Delivery}

theorem Along.head (along : chain.Along w) (hhead : w.head? = some b) :
    chain.hash b.slot = some b.hash := along.known b (List.mem_of_getLast? hhead)

theorem Along.take (along : chain.Along w) (count : Nat) : chain.Along (w.take count) :=
  ⟨fun b hb => along.known b (List.mem_of_mem_take hb),
    along.ordered.sublist (List.take_sublist count w.blocks)⟩

theorem head?_push (w : ChainWindow) (b : Block) : (w.push b).head? = some b :=
  List.getLast?_concat

theorem Along.push (along : chain.Along w) (hhash : chain.hash b.slot = some b.hash)
    (habove : ∀ b' ∈ w.blocks, b'.slot < b.slot) : chain.Along (w.push b) := by
  refine ⟨fun b' hb' => ?_, ChainWindow.rising_push along.ordered habove⟩
  obtain ⟨kept, hkept, hblocks⟩ := w.exists_push b
  rw [hblocks] at hb'
  rcases List.mem_append.1 hb' with hold | hnew
  · exact along.known b' (hkept.subset hold)
  · cases List.mem_singleton.1 hnew
    exact hhash

theorem observe_of_skipped (hd : d.hash = none) : w.observe d = (none, w) := by
  unfold ChainWindow.observe
  rw [hd]

/-- Nothing new is seen at or below the head. -/
theorem Along.observe_of_le (along : chain.Along w) (tells : chain.Tells d)
    (hhead : w.head? = some b) (hle : d.slot ≤ b.slot) : w.observe d = (none, w) := by
  cases hd : d.hash with
  | none => exact observe_of_skipped hd
  | some k =>
    unfold ChainWindow.observe
    rw [hd]
    simp only
    cases hplace : w.blocks.findIdx? fun b => b.slot = d.slot with
    | none => simp only [hhead, if_pos hle]
    | some place =>
      obtain ⟨hlt, hsame, -⟩ := List.findIdx?_eq_some_iff_getElem.1 hplace
      have hslot : w.blocks[place].slot = d.slot := of_decide_eq_true hsame
      have hknown := along.known _ (List.getElem_mem hlt)
      rw [hslot, ← tells.hash, hd] at hknown
      simp only [List.getElem?_eq_getElem hlt]
      unfold ChainWindow.redeliver
      rw [if_pos (Option.some.inj hknown).symm]

/-- A block above the window extends it. -/
theorem Along.observe_of_above (along : chain.Along w) (hk : d.hash = some k)
    (habove : ∀ b ∈ w.head?, b.slot < d.slot) : w.observe d = w.extend d k := by
  have hnew : (w.blocks.findIdx? fun b => b.slot = d.slot) = none := by
    rw [List.findIdx?_eq_none_iff]
    intro b' hb'
    have hlt := ChainWindow.lt_of_head_lt along.ordered habove b' hb'
    exact decide_eq_false (UInt64.ne_of_lt hlt)
  unfold ChainWindow.observe
  rw [hk]
  simp only [hnew]
  cases hhead : w.head? with
  | none => rfl
  | some top => exact if_neg (UInt64.not_le.2 (habove top hhead))

theorem head?_extend (w : ChainWindow) (d : Delivery) (k : String) :
    (w.extend d k).2.head? = some ⟨d.slot, k⟩ := by
  unfold ChainWindow.extend
  cases w.mismatch? d with
  | none => exact head?_push w _
  | some x => exact head?_push _ _

theorem Along.extend (along : chain.Along w) (tells : chain.Tells d) (hk : d.hash = some k)
    (habove : ∀ b ∈ w.head?, b.slot < d.slot) : chain.Along (w.extend d k).2 := by
  have hhash : chain.hash d.slot = some k := tells.hash.symm.trans hk
  have hall := ChainWindow.lt_of_head_lt along.ordered habove
  unfold ChainWindow.extend
  cases w.mismatch? d with
  | none => exact along.push hhash hall
  | some x =>
    obtain ⟨expected, actual⟩ := x
    exact (along.take _).push hhash fun b hb => hall b (List.mem_of_mem_take hb)

/-- A block looks like a fork exactly if the window has been left behind. -/
theorem Along.fork_extend_iff (along : chain.Along w) (tells : chain.Tells d)
    (hk : d.hash = some k)
    (habove : ∀ b ∈ w.head?, b.slot < d.slot) :
    (w.extend d k).1 ≠ none ↔ chain.Lags d.slot.toNat w := by
  have hhash : chain.hash d.slot = some k := tells.hash.symm.trans hk
  have hmismatch : (w.extend d k).1 ≠ none ↔ w.mismatch? d ≠ none := by
    unfold ChainWindow.extend
    cases w.mismatch? d <;> simp
  rw [hmismatch]
  unfold ChainWindow.mismatch?
  cases hhead : w.head? with
  | none =>
    refine iff_of_false (fun hne => hne rfl) ?_
    rintro ⟨b, h, hb, -⟩
    cases hhead.symm.trans hb
  | some top =>
    have hlt := UInt64.lt_iff_toNat_lt.1 (habove top hhead)
    have hproduced : chain.hash top.slot ≠ none := by simp [along.head hhead]
    obtain ⟨h, hlast⟩ := exists_lastBelow hproduced hlt
    have hparent : d.parentHash = some h := by
      rw [tells.parent (by simp [hk]), hlast.parent hhash]
    rw [hparent]
    by_cases hsame : top.hash = h
    · simp only [if_pos hsame]
      refine iff_of_false (fun hne => hne rfl) ?_
      rintro ⟨b, h', hb, -, hlast', hne⟩
      cases hhead.symm.trans hb
      exact hne ((hlast'.unique hlast).trans hsame.symm)
    · simp only [if_neg hsame]
      exact iff_of_true nofun ⟨top, h, hhead, hlt, hlast, fun heq => hsame heq.symm⟩

/-- A window has not been left behind right after its head. -/
theorem Along.not_lags_head (along : chain.Along w) (hhead : w.head? = some b) :
    ¬ chain.Lags (b.slot.toNat + 1) w := by
  rintro ⟨b', h, hb', -, hlast, hne⟩
  cases hhead.symm.trans hb'
  exact hne (hlast.unique (lastBelow_succ_of_some (along.head hhead)))

theorem Along.lags_succ_of_skipped (along : chain.Along w) (hnone : chain.hash slot = none) :
    chain.Lags (slot.toNat + 1) w ↔ chain.Lags slot.toNat w := by
  have hslot : ∀ s : Slot, s.toNat = slot.toNat → chain.hash s = none := fun s hs =>
    UInt64.toNat_inj.1 hs ▸ hnone
  constructor
  · rintro ⟨b, h, hhead, hlt, hlast, hne⟩
    have hb : b.slot.toNat ≠ slot.toNat := fun heq => by
      rw [← hslot b.slot heq] at hnone
      cases (along.head hhead).symm.trans (hslot b.slot heq)
    exact ⟨b, h, hhead, by omega, (lastBelow_succ_of_none hslot).1 hlast, hne⟩
  · rintro ⟨b, h, hhead, hlt, hlast, hne⟩
    exact ⟨b, h, hhead, by omega, (lastBelow_succ_of_none hslot).2 hlast, hne⟩

/-- A block leaves the window along the chain and caught up. It looks like a fork exactly if the
window had been left behind. -/
theorem Along.observe_block (along : chain.Along w) (tells : chain.Tells d)
    (hk : d.hash = some k) :
    chain.Along (w.observe d).2 ∧ ¬ chain.Lags (d.slot.toNat + 1) (w.observe d).2 ∧
      ((w.observe d).1 ≠ none ↔ chain.Lags d.slot.toNat w) := by
  by_cases hbelow : ∃ b, w.head? = some b ∧ d.slot ≤ b.slot
  · obtain ⟨b, hhead, hle⟩ := hbelow
    have hle' := UInt64.le_iff_toNat_le.1 hle
    have hcaught : ¬ chain.Lags (d.slot.toNat + 1) w := by
      rintro ⟨b', h, hb', hlt, hlast, hne⟩
      cases hhead.symm.trans hb'
      have hsame : d.slot.toNat = b.slot.toNat := by omega
      rw [hsame] at hlt hlast
      exact along.not_lags_head hhead ⟨b, h, hhead, hlt, hlast, hne⟩
    rw [along.observe_of_le tells hhead hle]
    refine ⟨along, hcaught, iff_of_false (fun hne => hne rfl) ?_⟩
    rintro ⟨b', h, hb', hlt, -⟩
    cases hhead.symm.trans hb'
    omega
  · have habove : ∀ b ∈ w.head?, b.slot < d.slot := fun b hb =>
      UInt64.not_le.1 fun hle => hbelow ⟨b, hb, hle⟩
    rw [along.observe_of_above hk habove]
    have hafter := along.extend tells hk habove
    exact ⟨hafter, hafter.not_lags_head (head?_extend w d k),
      along.fork_extend_iff tells hk habove⟩

/-- A window along the chain stays so, and it takes one of the blocks for a fork exactly if it had
been left behind before the first of them. -/
theorem Along.observeAll {ds : List Delivery} (along : chain.Along w)
    (turns : chain.InTurn a ds) :
    chain.Along (w.observeAll ds).2 ∧
      ((w.observeAll ds).1 ≠ [] ↔ chain.Lags a w ∧ ∃ d ∈ ds, d.hash ≠ none) := by
  induction ds generalizing a w with
  | nil =>
    refine ⟨along, iff_of_false (fun hne => hne rfl) ?_⟩
    rintro ⟨-, d, hd, -⟩
    exact List.not_mem_nil hd
  | cons d rest ih =>
    obtain ⟨rfl, tells, hrest⟩ := turns.cons
    have hforks : (w.observeAll (d :: rest)).1 =
        (w.observe d).1.toList ++ ((w.observe d).2.observeAll rest).1 := rfl
    rw [hforks]
    cases hd : d.hash with
    | none =>
      obtain ⟨hafter, hiff⟩ := ih (w := (w.observe d).2) (by rwa [observe_of_skipped hd]) hrest
      refine ⟨hafter, ?_⟩
      rw [observe_of_skipped hd] at hiff ⊢
      rw [along.lags_succ_of_skipped (tells.hash.symm.trans hd)] at hiff
      simpa [hd] using hiff
    | some k =>
      obtain ⟨halong, hcaught, hfork⟩ := along.observe_block tells hd
      obtain ⟨hafter, hiff⟩ := ih halong hrest
      -- The first block brings the window up to date, so no later one looks like a fork.
      have hnil : ((w.observe d).2.observeAll rest).1 = [] :=
        not_not.1 fun hne => hcaught (hiff.1 hne).1
      refine ⟨hafter, ?_⟩
      rw [hnil, List.append_nil, ← hfork]
      simp [hd]

/-- After them it lags exactly if it did before and there was no block. -/
theorem Along.lags_observeAll {ds : List Delivery} (along : chain.Along w)
    (turns : chain.InTurn a ds) : chain.Lags (a + ds.length) (w.observeAll ds).2 ↔
      chain.Lags a w ∧ ¬ ∃ d ∈ ds, d.hash ≠ none := by
  induction ds generalizing a w with
  | nil =>
    refine (and_iff_left ?_).symm
    rintro ⟨d, hd, -⟩
    exact List.not_mem_nil hd
  | cons d rest ih =>
    obtain ⟨rfl, tells, hrest⟩ := turns.cons
    have hafter : (w.observeAll (d :: rest)).2 = ((w.observe d).2.observeAll rest).2 := rfl
    have hlength : d.slot.toNat + (d :: rest).length = d.slot.toNat + 1 + rest.length := by
      rw [List.length_cons]
      omega
    rw [hafter, hlength]
    cases hd : d.hash with
    | none =>
      rw [ih (w := (w.observe d).2) (by rwa [observe_of_skipped hd]) hrest, observe_of_skipped hd,
        along.lags_succ_of_skipped (tells.hash.symm.trans hd)]
      simp [hd]
    | some k =>
      obtain ⟨halong, hcaught, -⟩ := along.observe_block tells hd
      rw [ih halong hrest]
      refine iff_of_false (fun h => hcaught h.1) fun h => h.2 ⟨d, List.mem_cons_self .., ?_⟩
      simp [hd]

def Produces (chain : LinearChain) (first last : Slot) : Prop :=
  ∃ slot, first ≤ slot ∧ slot ≤ last ∧ chain.hash slot ≠ none

def Gap (chain : LinearChain) (w : ChainWindow) (first last : Slot) : Prop :=
  chain.Lags first.toNat w ∧ chain.Produces first last

theorem Serves.produces_iff (served : chain.Serves first last raw) (ids : List String) :
    (∃ d ∈ Batch.routerSlots first last ids raw, d.hash ≠ none) ↔ chain.Produces first last := by
  have hturns := served.inTurn ids
  constructor
  · rintro ⟨d, hd, hne⟩
    have hslot : d.slot ∈ Slot.through first last := by
      rw [← map_slot_routerSlots first last ids raw]
      exact List.mem_map_of_mem hd
    obtain ⟨hfirst, hlast⟩ := Slot.mem_through.1 hslot
    exact ⟨d.slot, hfirst, hlast, (hturns.tells d hd).hash ▸ hne⟩
  · rintro ⟨slot, hfirst, hlast, hne⟩
    have hslot : slot ∈ (Batch.routerSlots first last ids raw).map Delivery.slot := by
      rw [map_slot_routerSlots first last ids raw]
      exact Slot.mem_through.2 ⟨hfirst, hlast⟩
    obtain ⟨d, hd, rfl⟩ := List.mem_map.1 hslot
    exact ⟨d, hd, (hturns.tells d hd).hash.symm ▸ hne⟩

/-- So a batch has forks exactly if there is a gap between the window and its slots. -/
theorem Along.forks_iff_gap (along : chain.Along w) (served : chain.Serves first last raw)
    (ids : List String) : ((w.observeAll (Batch.routerSlots first last ids raw)).1 ≠ [] ↔
      chain.Gap w first last) := by
  rw [(along.observeAll (served.inTurn ids)).2, served.produces_iff ids]
  rfl

/-- A batch with a block leaves no gap after it. -/
theorem Along.lags_after_iff (along : chain.Along w) (served : chain.Serves first last raw)
    (ids : List String) (hrange : first ≤ last) :
    chain.Lags (last.toNat + 1) (w.observeAll (Batch.routerSlots first last ids raw)).2 ↔
      chain.Lags first.toNat w ∧ ¬ chain.Produces first last := by
  rw [← served.produces_iff ids, ← along.lags_observeAll (served.inTurn ids)]
  have hle := UInt64.le_iff_toNat_le.1 hrange
  have hend : first.toNat + (last.toNat + 1 - first.toNat) = last.toNat + 1 := by omega
  rw [length_routerSlots, hend]

end LinearChain

end RouterHistory
