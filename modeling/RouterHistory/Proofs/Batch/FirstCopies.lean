import RouterHistory.Proofs.Batch.GaplessSlots

/-!
Which copy of a transaction gapless slots keep. It is the first copy in the lowest slot of the
range that has one, and what a slot has depends on its own deliveries only, in the order in which
they came.
-/
namespace RouterHistory.Gapless

def copy? (d : Delivery) (S : Signature) : Option Transaction :=
  (d.transactions.find? (·.signature = S)).map (place d)

theorem signature_of_copy? {d : Delivery} {S : Signature} {tx : Transaction}
    (h : copy? d S = some tx) : tx.signature = S ∧ tx.slot = d.slot := by
  obtain ⟨copy, hcopy, rfl⟩ := Option.map_eq_some_iff.1 h
  have hS := List.find?_some hcopy
  exact ⟨of_decide_eq_true hS, rfl⟩

theorem find?_unseen (d : Delivery) (seen : Seen) (txs : List Transaction) (S : Signature) :
    (unseen d seen txs).1.find? (·.signature = S) =
      if S ∈ seen then none else (txs.find? (·.signature = S)).map (place d) := by
  induction txs generalizing seen with
  | nil => simp [unseen]
  | cons tx rest ih =>
    unfold unseen
    have hplace : (place d tx).signature = tx.signature := rfl
    by_cases hseen : tx.signature ∈ seen
    · rw [if_pos hseen, ih]
      by_cases hS : tx.signature = S
      · rw [if_pos (hS ▸ hseen), if_pos (hS ▸ hseen)]
      · rw [List.find?_cons_of_neg (by simpa using hS)]
    · rw [if_neg hseen]
      simp only
      by_cases hS : tx.signature = S
      · rw [List.find?_cons_of_pos (by simpa [hplace] using hS), if_neg (hS ▸ hseen),
          List.find?_cons_of_pos (by simpa using hS)]
        rfl
      · have hmem : S ∈ seen.insert tx.signature ↔ S ∈ seen := by
          simp [Std.ExtTreeSet.mem_insert, hS]
        rw [List.find?_cons_of_neg (by simpa [hplace] using hS), ih,
          List.find?_cons_of_neg (by simpa using hS)]
        simp only [hmem]

theorem find?_fill (table : Table) (seen : Seen) (range : List Slot) (S : Signature) :
    ((fill table seen range).flatMap Delivery.transactions).find? (·.signature = S) =
      if S ∈ seen then none else range.findSome? fun slot => copy? (entry table slot) S := by
  induction range generalizing seen with
  | nil => simp [fill]
  | cons slot rest ih =>
    rw [fill, List.flatMap_cons, List.find?_append, find?_unseen, ih, List.findSome?_cons]
    by_cases hseen : S ∈ seen
    · have hkept : S ∈ (unseen (entry table slot) seen (entry table slot).transactions).2 :=
        (mem_seen_unseen ..).2 (.inl hseen)
      rw [if_pos hseen, if_pos hseen, if_pos hkept, Option.none_or]
    · rw [if_neg hseen, if_neg hseen]
      unfold copy?
      cases hfind : (entry table slot).transactions.find? (·.signature = S) with
      | some tx => rfl
      | none =>
        have hnot : S ∉ (unseen (entry table slot) seen (entry table slot).transactions).2 := by
          rw [mem_seen_unseen, not_or]
          refine ⟨hseen, fun hmem => ?_⟩
          obtain ⟨tx, htx, hS⟩ := hmem
          simpa [hS] using List.find?_eq_none.1 hfind tx htx
        rw [if_neg hnot]
        rfl

theorem getElem?_foldl_absorb (raw : List Delivery) (table : Table) (slot : Slot) :
    (raw.foldl absorb table)[slot]? =
      ((raw.filter (·.slot = slot)).foldl absorb table)[slot]? := by
  suffices h : ∀ table' : Table, table[slot]? = table'[slot]? →
      (raw.foldl absorb table)[slot]? =
        ((raw.filter (·.slot = slot)).foldl absorb table')[slot]? from
    h table rfl
  induction raw generalizing table with
  | nil => exact fun table' h => h
  | cons d rest ih =>
    intro table' h
    rw [List.foldl_cons]
    by_cases hd : d.slot = slot
    · rw [List.filter_cons_of_pos (by simpa using hd), List.foldl_cons]
      refine ih _ _ ?_
      rw [getElem?_absorb, getElem?_absorb, h]
    · rw [List.filter_cons_of_neg (by simpa using hd)]
      refine ih _ _ ?_
      rw [getElem?_absorb, if_neg hd, h]

def joined (slot : Slot) (deliveries : List Delivery) : Delivery :=
  entry (deliveries.foldl absorb ∅) slot

/-- A slot of the range depends on its own deliveries only. -/
theorem entry_gather_eq_joined {first last slot : Slot} (hslot : first ≤ slot ∧ slot ≤ last)
    (raw : List Delivery) :
    entry (gather first last raw) slot = joined slot (raw.filter (·.slot = slot)) := by
  have hrange : (raw.filter fun d => first ≤ d.slot && d.slot ≤ last).filter (·.slot = slot) =
      raw.filter (·.slot = slot) := by
    rw [List.filter_filter]
    refine List.filter_congr fun d _ => ?_
    by_cases hd : d.slot = slot
    · simp [hd, hslot.1, hslot.2]
    · simp [hd]
  unfold joined entry gather
  rw [getElem?_foldl_absorb, hrange]

theorem findSome?_congr {α β : Type} {f g : α → Option β} {range : List α}
    (h : ∀ slot ∈ range, f slot = g slot) : range.findSome? f = range.findSome? g := by
  induction range with
  | nil => rfl
  | cons slot rest ih =>
    rw [List.findSome?_cons, List.findSome?_cons, h slot (List.mem_cons_self ..),
      ih fun slot' hslot => h slot' (List.mem_cons_of_mem slot hslot)]

/-- What is found first in ascending slots is what the lowest of them has. -/
theorem findSome?_eq_some_iff_lowest {β : Type} {f : Slot → Option β} {range : List Slot}
    (hordered : range.Pairwise (· < ·)) {x : β} :
    range.findSome? f = some x ↔
      ∃ slot ∈ range, f slot = some x ∧ ∀ lower ∈ range, lower < slot → f lower = none := by
  induction range with
  | nil => simp
  | cons slot rest ih =>
    obtain ⟨hfirst, hrest⟩ := List.pairwise_cons.1 hordered
    rw [List.findSome?_cons]
    cases hslot : f slot with
    | none =>
      simp only [ih hrest, List.mem_cons, exists_eq_or_imp, forall_eq_or_imp, hslot, reduceCtorEq,
        false_and, false_or, implies_true, true_and]
    | some y =>
      constructor
      · rintro ⟨⟩
        refine ⟨slot, List.mem_cons_self .., hslot, fun lower hlower hlt => ?_⟩
        rcases List.mem_cons.1 hlower with rfl | hlower
        · exact absurd hlt (UInt64.lt_irrefl _)
        · exact absurd (hfirst lower hlower) (UInt64.lt_asymm hlt)
      · intro h
        obtain ⟨slot', hmem, hfound, hnone⟩ := h
        rcases List.mem_cons.1 hmem with rfl | hmem
        · exact hslot.symm.trans hfound
        · rw [hnone slot (List.mem_cons_self ..) (hfirst slot' hmem)] at hslot
          cases hslot

/-- Of each signature the first copy in the lowest slot is kept. -/
theorem find?_transactions (first last : Slot) (raw : List Delivery) (S : Signature) :
    (transactions first last raw).find? (·.signature = S) =
      (Slot.through first last).findSome? fun slot =>
        copy? (joined slot (raw.filter (·.slot = slot))) S := by
  unfold transactions
  rw [slots_eq_fill, find?_fill, if_neg (by simp)]
  refine findSome?_congr fun slot hslot => ?_
  rw [entry_gather_eq_joined (Slot.mem_through.1 hslot)]

theorem mem_transactions_iff {first last : Slot} {raw : List Delivery} {tx : Transaction} :
    tx ∈ transactions first last raw ↔
      ((Slot.through first last).findSome? fun slot =>
        copy? (joined slot (raw.filter (·.slot = slot))) tx.signature) = some tx := by
  rw [← find?_transactions]
  constructor
  · intro htx
    cases hfind : (transactions first last raw).find? (·.signature = tx.signature) with
    | none => simpa using List.find?_eq_none.1 hfind tx htx
    | some tx' =>
      have hsame : tx'.signature = tx.signature := by simpa using List.find?_some hfind
      rw [List.inj_on_of_nodup_map (nodup_transactions first last raw)
        (List.mem_of_find?_eq_some hfind) htx hsame]
  · exact List.mem_of_find?_eq_some

end RouterHistory.Gapless
