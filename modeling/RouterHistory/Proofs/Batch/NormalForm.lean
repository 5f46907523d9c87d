import RouterHistory.Proofs.Batch.Condensed

/-!
Gapless slots are a normal form. To make them gapless once more changes nothing, and two lists of
deliveries that differ only in how the deliveries of different slots follow one another have the
same gapless slots.
-/
namespace RouterHistory.Gapless

variable {first last : Slot} {raw raw' out : List Delivery} {d : Delivery}

theorem place_place (d : Delivery) (tx : Transaction) : place d (place d tx) = place d tx := by
  unfold place
  cases tx.blockTime <;> cases d.blockTime <;> rfl

/-- Where no signature is repeated, every copy is the first. -/
theorem firstCopies_eq_self {txs : List Transaction}
    (hnodup : (txs.map Transaction.signature).Nodup) : firstCopies txs = txs := by
  induction txs with
  | nil => rfl
  | cons tx rest ih =>
    rw [List.map_cons, List.nodup_cons] at hnodup
    have hkept : rest.filter (·.signature ≠ tx.signature) = rest := by
      rw [List.filter_eq_self]
      intro other hother
      have hother' : other.signature ≠ tx.signature :=
        fun hsame => hnodup.1 (hsame ▸ List.mem_map_of_mem hother)
      simpa using hother'
    rw [firstCopies, ih hnodup.2, hkept]

section Condensed

variable (h : Condensed first last raw out)

include h

theorem Condensed.delivered_eq (hd : d ∈ out) : delivered out d.slot = [d] := by
  have hnodup : (out.map Delivery.slot).Nodup := by
    refine List.Nodup.of_map UInt64.toNat ?_
    rw [List.map_map]
    exact h.consecutive ▸ List.nodup_range'
  exact filter_key_eq hnodup hd

/-- The transactions stand in their slot and have its block time already. -/
theorem Condensed.place_eq (hd : d ∈ out) {tx : Transaction} (htx : tx ∈ d.transactions) :
    place d tx = tx := by
  obtain ⟨copy, -, rfl⟩ := List.mem_map.1 ((h.placed d hd).subset htx)
  exact place_place d copy

theorem Condensed.nodup_signatures (hd : d ∈ out) :
    (d.transactions.map Transaction.signature).Nodup := by
  refine h.once.sublist (List.Sublist.map _ ?_)
  exact List.sublist_flatten_of_mem (List.mem_map_of_mem hd)

/-- A signature stands in one slot only. -/
theorem Condensed.eq_of_signature_eq {e : Delivery} (hd : d ∈ out) (he : e ∈ out)
    {tx copy : Transaction} (htx : tx ∈ d.transactions) (hcopy : copy ∈ e.transactions)
    (hsame : copy.signature = tx.signature) : e.slot = d.slot := by
  have heq : copy = tx := List.inj_on_of_nodup_map h.once (List.mem_flatMap.2 ⟨e, he, hcopy⟩)
    (List.mem_flatMap.2 ⟨d, hd, htx⟩) hsame
  calc
    e.slot = (place e copy).slot := rfl
    _ = copy.slot := by rw [h.place_eq he hcopy]
    _ = tx.slot := by rw [heq]
    _ = (place d tx).slot := by rw [h.place_eq hd htx]
    _ = d.slot := rfl

/-- A list that is gapless already is the one made of it. -/
theorem Condensed.self : Condensed first last out out := by
  constructor
  case consecutive => exact h.consecutive
  case header =>
    intro d hd
    have hleading : leading [d] = some d := by
      unfold leading
      cases hskipped : d.isSkipped <;> simp [hskipped]
    rw [h.delivered_eq hd, hleading]
    rfl
  case occurs =>
    intro S
    constructor
    · rintro ⟨tx, htx, hS⟩
      obtain ⟨d, hd, hin⟩ := List.mem_flatMap.1 htx
      exact ⟨d, hd, h.range hd, tx, hin, hS⟩
    · rintro ⟨d, hd, -, tx, hin, hS⟩
      exact ⟨tx, List.mem_flatMap.2 ⟨d, hd, hin⟩, hS⟩
  case once => exact h.once
  case lowest =>
    rintro d hd tx htx e he - ⟨copy, hcopy, hsame⟩
    rw [h.eq_of_signature_eq hd he htx hcopy hsame]
    exact UInt64.le_refl _
  case placed =>
    intro d hd
    have hcopies : copies out d.slot = d.transactions := by
      unfold copies
      rw [h.delivered_eq hd, List.flatMap_singleton]
    have hplaced : d.transactions.map (place d) = d.transactions :=
      (List.map_congr_left fun tx htx => h.place_eq hd htx).trans (List.map_id _)
    rw [hcopies, firstCopies_eq_self (h.nodup_signatures hd)]
    change d.transactions.Sublist (d.transactions.map (place d))
    rw [hplaced]

end Condensed

/-- Only what was gathered for the slots of the range matters. -/
theorem fill_congr {table table' : Table} {seen : Seen} {range : List Slot}
    (h : ∀ slot ∈ range, entry table slot = entry table' slot) :
    fill table seen range = fill table' seen range := by
  induction range generalizing seen with
  | nil => rfl
  | cons slot rest ih =>
    simp only [fill]
    rw [h slot (List.mem_cons_self ..), ih fun s hs => h s (List.mem_cons_of_mem slot hs)]

theorem slots_congr
    (h : ∀ slot, first ≤ slot ∧ slot ≤ last → delivered raw slot = delivered raw' slot) :
    slots first last raw = slots first last raw' := by
  rw [slots_eq_fill, slots_eq_fill]
  refine fill_congr fun slot hslot => ?_
  have hrange := Slot.mem_through.1 hslot
  rw [entry_gather_eq_joined hrange, entry_gather_eq_joined hrange]
  exact congrArg (joined slot) (h slot hrange)

/-- Making slots gapless twice is the same as once, and of the order in which deliveries came only
that among the deliveries of one slot of the range matters. -/
theorem slots_normal (first last : Slot) :
    (∀ raw, slots first last (slots first last raw) = slots first last raw) ∧
    ∀ raw raw', (∀ slot, first ≤ slot ∧ slot ≤ last → delivered raw slot = delivered raw' slot) →
      slots first last raw = slots first last raw' := by
  constructor
  · intro raw
    have hself : Condensed first last (slots first last raw) (slots first last raw) :=
      (condensed_slots first last raw).self
    exact (condensed_slots first last (slots first last raw)).unique hself
  · intro raw raw' h
    exact slots_congr h

def twoBlocks : List Delivery :=
  [⟨1, some "b1", none, none, [⟨⟨"a"⟩, 1, none, none, [], []⟩]⟩,
    ⟨1, some "b1", none, some 1700000001, [⟨⟨"b"⟩, 1, none, none, [], []⟩]⟩]

def lateBlock : List Delivery :=
  [⟨2, none, none, some 1700000002, [⟨⟨"c"⟩, 2, none, none, [], []⟩]⟩,
    ⟨2, some "b2", some "b1", none, [⟨⟨"a"⟩, 2, none, none, [], []⟩]⟩]

/-- The second slot in front of the first, with a slot between them that was not asked for. -/
def shuffled : List Delivery := lateBlock ++ [.skipped 9] ++ twoBlocks

theorem shuffled_has_same_slots :
    (∀ slot, 1 ≤ slot ∧ slot ≤ 3 →
      delivered (twoBlocks ++ lateBlock) slot = delivered shuffled slot) ∧
    slots 1 3 (twoBlocks ++ lateBlock) = slots 1 3 shuffled ∧
    slots 1 3 (slots 1 3 (twoBlocks ++ lateBlock)) = slots 1 3 shuffled := by
  have hdelivered : ∀ slot, 1 ≤ slot ∧ slot ≤ 3 →
      delivered (twoBlocks ++ lateBlock) slot = delivered shuffled slot := by
    intro slot hslot
    have hcases : slot = 1 ∨ slot = 2 ∨ slot = 3 := by
      simp only [UInt64.le_iff_toNat_le, ← UInt64.toNat_inj, UInt64.reduceToNat] at hslot ⊢
      omega
    rcases hcases with rfl | rfl | rfl <;> rfl
  obtain ⟨hagain, horder⟩ := slots_normal 1 3
  have hsame := horder _ _ hdelivered
  exact ⟨hdelivered, hsame, (hagain _).trans hsame⟩

end RouterHistory.Gapless
