import Mathlib.Data.List.Nodup
import RouterHistory.Batch.Fetch

/-!
What gapless slots hold. Every transaction in them was delivered for its slot and takes the slot
and, if need be, the block time of the slot's header. No signature occurs twice, and none that was
delivered for a slot of the range is lost.
-/
namespace RouterHistory.Gapless

def entry (table : Table) (slot : Slot) : Delivery := table[slot]?.getD (.skipped slot)

/-- The slots in order, after the signatures of slots before them were seen. -/
def fill (table : Table) : Seen → List Slot → List Delivery
  | _, [] => []
  | seen, slot :: rest =>
      let d := entry table slot
      { d with transactions := (unseen d seen d.transactions).1 } ::
        fill table (unseen d seen d.transactions).2 rest

theorem foldl_append (table : Table) (range : List Slot) (done : List Delivery) (seen : Seen) :
    (range.foldl (append table) (done, seen)).1.reverse =
      done.reverse ++ fill table seen range := by
  induction range generalizing done seen with
  | nil => simp [fill]
  | cons slot rest ih =>
    have hstep : append table (done, seen) slot =
        ({ entry table slot with
            transactions :=
              (unseen (entry table slot) seen (entry table slot).transactions).1 } ::
          done, (unseen (entry table slot) seen (entry table slot).transactions).2) := rfl
    rw [List.foldl_cons, hstep, ih]
    simp [fill]

theorem slots_eq_fill (first last : Slot) (raw : List Delivery) :
    slots first last raw = fill (gather first last raw) ∅ (Slot.through first last) := by
  simpa [slots] using foldl_append (gather first last raw) (Slot.through first last) [] ∅

theorem slots_ne_nil (first last : Slot) (raw : List Delivery) {slot : Slot}
    (h : first ≤ slot ∧ slot ≤ last) : slots first last raw ≠ [] := by
  have hrange : Slot.through first last ≠ [] := List.ne_nil_of_mem (Slot.mem_through.2 h)
  obtain ⟨s, rest, hs⟩ := List.exists_cons_of_ne_nil hrange
  rw [slots_eq_fill, hs]
  simp [fill]

/-- Each of them is what was gathered for its slot, without the copies that were seen. -/
theorem exists_of_mem_fill {table : Table} {seen : Seen} {range : List Slot} {d : Delivery}
    (hd : d ∈ fill table seen range) : ∃ s ∈ range, ∃ seen' : Seen,
      d = { entry table s with
        transactions := (unseen (entry table s) seen' (entry table s).transactions).1 } := by
  induction range generalizing seen with
  | nil => exact absurd hd List.not_mem_nil
  | cons s rest ih =>
    rcases List.mem_cons.1 hd with rfl | hrest
    · exact ⟨s, List.mem_cons_self .., seen, rfl⟩
    · obtain ⟨s', hs', hd'⟩ := ih hrest
      exact ⟨s', List.mem_cons_of_mem s hs', hd'⟩

theorem map_slot_fill (table : Table) (seen : Seen) (range : List Slot) :
    (fill table seen range).map Delivery.slot =
      range.map fun s => (entry table s).slot := by
  induction range generalizing seen with
  | nil => rfl
  | cons s rest ih => exact congrArg _ (ih _)

theorem getElem?_absorb (table : Table) (d : Delivery) (slot : Slot) :
    (absorb table d)[slot]? =
      if d.slot = slot then some ((table[slot]?.map fun e => merge e d).getD d)
      else table[slot]? := by
  unfold absorb
  by_cases h : d.slot = slot
  · subst h
    cases he : table[d.slot]? with
    | none => simp
    | some e => simp
  · cases he : table[d.slot]? with
    | none => simp [Std.ExtTreeMap.getElem?_insert, h]
    | some e => simp [Std.ExtTreeMap.getElem?_insert, h]

/-- A header comes from one of the deliveries of its slot. -/
theorem foldl_absorb_header (P : Slot → Delivery → Prop)
    (hheader : ∀ s d txs, P s d → P s { d with transactions := txs })
    (raw : List Delivery) (hraw : ∀ d ∈ raw, P d.slot d) (table : Table)
    (htable : ∀ s d, table[s]? = some d → P s d) (s : Slot) (d : Delivery)
    (h : (raw.foldl absorb table)[s]? = some d) : P s d := by
  induction raw generalizing table with
  | nil => exact htable s d h
  | cons e rest ih =>
    refine ih (fun d hd => hraw d (List.mem_cons_of_mem e hd)) (absorb table e) ?_ h
    intro s' d' h'
    rw [getElem?_absorb] at h'
    by_cases hs : e.slot = s'
    · have he : P s' e := hs ▸ hraw e (List.mem_cons_self ..)
      rw [if_pos hs] at h'
      cases hold : table[s']? with
      | none =>
        simp only [hold, Option.map_none, Option.getD_none, Option.some.injEq] at h'
        exact h' ▸ he
      | some old =>
        simp only [hold, Option.map_some, Option.getD_some, Option.some.injEq] at h'
        subst h'
        have hP := htable s' old hold
        unfold merge
        split
        · exact hheader s' e _ he
        · exact hheader s' old _ hP
    · rw [if_neg hs] at h'
      exact htable s' d' h'

theorem mem_foldl_absorb (raw : List Delivery) (table : Table) (s : Slot) (tx : Transaction) :
    tx ∈ (entry (raw.foldl absorb table) s).transactions ↔
      tx ∈ (entry table s).transactions ∨ ∃ d ∈ raw, d.slot = s ∧ tx ∈ d.transactions := by
  induction raw generalizing table with
  | nil => simp
  | cons e rest ih =>
    rw [List.foldl_cons, ih]
    have habsorb : tx ∈ (entry (absorb table e) s).transactions ↔
        tx ∈ (entry table s).transactions ∨ e.slot = s ∧ tx ∈ e.transactions := by
      unfold entry
      rw [getElem?_absorb]
      by_cases hs : e.slot = s
      · cases table[s]? with
        | none => simp [hs, Delivery.skipped]
        | some old => simp [hs, merge]
      · simp [hs]
    rw [habsorb]
    simp only [List.mem_cons, exists_eq_or_imp]
    tauto

/-- A transaction is gathered for a slot of the range if it was delivered for it. -/
theorem mem_entry_gather (first last : Slot) (raw : List Delivery) (s : Slot) (tx : Transaction)
    (hs : first ≤ s ∧ s ≤ last) :
    tx ∈ (entry (gather first last raw) s).transactions ↔
      ∃ d ∈ raw, d.slot = s ∧ tx ∈ d.transactions := by
  unfold gather
  rw [mem_foldl_absorb]
  have hempty : tx ∉ (entry ∅ s).transactions := by simp [entry, Delivery.skipped]
  simp only [hempty, false_or, List.mem_filter, Bool.and_eq_true, decide_eq_true_eq]
  constructor
  · intro h
    obtain ⟨d, ⟨hd, _⟩, hslot, htx⟩ := h
    exact ⟨d, hd, hslot, htx⟩
  · intro h
    obtain ⟨d, hd, rfl, htx⟩ := h
    exact ⟨d, ⟨hd, hs⟩, rfl, htx⟩

theorem slot_entry_gather (first last : Slot) (raw : List Delivery) (s : Slot) :
    (entry (gather first last raw) s).slot = s := by
  unfold entry
  cases h : (gather first last raw)[s]? with
  | none => rfl
  | some d =>
    exact foldl_absorb_header (fun s d => d.slot = s) (fun _ _ _ hd => hd) _ (fun _ _ => rfl) ∅
      (by simp) s d h

/-- Every slot of the range is there, in order. -/
theorem map_slot_slots (first last : Slot) (raw : List Delivery) :
    (slots first last raw).map Delivery.slot = Slot.through first last := by
  rw [slots_eq_fill, map_slot_fill]
  refine (List.map_congr_left fun s _ => ?_).trans (List.map_id _)
  exact slot_entry_gather first last raw s

/-- If all deliveries of a slot have one block time, so has what was gathered for it. -/
theorem blockTime_entry_gather (first last : Slot) (raw : List Delivery) (s : Slot)
    (time : Option Int) (htime : ∀ d ∈ raw, d.slot = s → d.blockTime = time) {tx : Transaction}
    (htx : tx ∈ (entry (gather first last raw) s).transactions) :
    (entry (gather first last raw) s).blockTime = time := by
  unfold entry at htx ⊢
  cases h : (gather first last raw)[s]? with
  | none => simp [h, Delivery.skipped] at htx
  | some d =>
    refine foldl_absorb_header (fun s' d => s' = s → d.blockTime = time) (fun _ _ _ hd => hd) _
      ?_ ∅ (by simp) s d h rfl
    exact fun d hd => htime d (List.mem_of_mem_filter hd)

theorem mem_seen_unseen (d : Delivery) (seen : Seen) (txs : List Transaction) (S : Signature) :
    S ∈ (unseen d seen txs).2 ↔ S ∈ seen ∨ ∃ tx ∈ txs, tx.signature = S := by
  induction txs generalizing seen with
  | nil => simp [unseen]
  | cons tx rest ih =>
    unfold unseen
    by_cases h : tx.signature ∈ seen
    · simp only [if_pos h, ih, List.mem_cons, exists_eq_or_imp]
      constructor
      · tauto
      · intro hS
        rcases hS with hS | rfl | hS
        · exact .inl hS
        · exact .inl h
        · exact .inr hS
    · simp only [if_neg h, ih, List.mem_cons, exists_eq_or_imp, Std.ExtTreeSet.mem_insert,
        Std.compare_eq_iff_eq]
      tauto

theorem signature_notMem_seen (d : Delivery) (seen : Seen) (txs : List Transaction) :
    ∀ tx ∈ (unseen d seen txs).1, tx.signature ∉ seen := by
  induction txs generalizing seen with
  | nil => simp [unseen]
  | cons tx rest ih =>
    unfold unseen
    by_cases h : tx.signature ∈ seen
    · simpa only [if_pos h] using ih seen
    · simp only [if_neg h, List.mem_cons]
      intro kept hkept
      rcases hkept with rfl | hkept
      · exact h
      · have hnot := ih (seen.insert tx.signature) kept hkept
        simp only [Std.ExtTreeSet.mem_insert, not_or] at hnot
        exact hnot.2

theorem nodup_unseen (d : Delivery) (seen : Seen) (txs : List Transaction) :
    ((unseen d seen txs).1.map Transaction.signature).Nodup := by
  induction txs generalizing seen with
  | nil => simp [unseen]
  | cons tx rest ih =>
    unfold unseen
    by_cases h : tx.signature ∈ seen
    · simpa only [if_pos h] using ih seen
    · simp only [if_neg h, List.map_cons, List.nodup_cons]
      refine ⟨fun hmem => ?_, ih _⟩
      obtain ⟨kept, hkept, hsame⟩ := List.mem_map.1 hmem
      have hnot := signature_notMem_seen d _ rest kept hkept
      exact hnot (by rw [hsame]; exact Std.ExtTreeSet.mem_insert_self)

theorem mem_unseen (d : Delivery) (seen : Seen) (txs : List Transaction) :
    ∀ tx ∈ (unseen d seen txs).1, ∃ copy ∈ txs, tx = place d copy := by
  induction txs generalizing seen with
  | nil => simp [unseen]
  | cons tx rest ih =>
    unfold unseen
    by_cases h : tx.signature ∈ seen
    · intro kept hkept
      rw [if_pos h] at hkept
      obtain ⟨copy, hcopy, rfl⟩ := ih seen kept hkept
      exact ⟨copy, List.mem_cons_of_mem _ hcopy, rfl⟩
    · intro kept hkept
      simp only [if_neg h, List.mem_cons] at hkept
      rcases hkept with rfl | hkept
      · exact ⟨tx, List.mem_cons_self .., rfl⟩
      · obtain ⟨copy, hcopy, rfl⟩ := ih _ kept hkept
        exact ⟨copy, List.mem_cons_of_mem _ hcopy, rfl⟩

/-- A signature that was not seen before keeps a copy. -/
theorem exists_mem_unseen (d : Delivery) (seen : Seen) (txs : List Transaction)
    {copy : Transaction} (hcopy : copy ∈ txs) (hnew : copy.signature ∉ seen) :
    ∃ tx ∈ (unseen d seen txs).1, tx.signature = copy.signature := by
  induction txs generalizing seen with
  | nil => cases hcopy
  | cons tx rest ih =>
    unfold unseen
    by_cases h : tx.signature ∈ seen
    · rw [if_pos h]
      rcases List.mem_cons.1 hcopy with rfl | hcopy
      · exact absurd h hnew
      · exact ih seen hcopy hnew
    · simp only [if_neg h, List.mem_cons, exists_eq_or_imp]
      by_cases hsame : tx.signature = copy.signature
      · exact .inl hsame
      · rcases List.mem_cons.1 hcopy with rfl | hcopy
        · exact absurd rfl hsame
        · refine .inr (ih _ hcopy ?_)
          simp [Std.ExtTreeSet.mem_insert, hsame, hnew]

theorem notMem_seen_fill (table : Table) (seen : Seen) (range : List Slot) :
    ∀ tx ∈ (fill table seen range).flatMap Delivery.transactions, tx.signature ∉ seen := by
  induction range generalizing seen with
  | nil => simp [fill]
  | cons slot rest ih =>
    intro tx htx
    simp only [fill, List.flatMap_cons, List.mem_append] at htx
    rcases htx with htx | htx
    · exact signature_notMem_seen _ seen _ tx htx
    · have hnot := ih _ tx htx
      rw [mem_seen_unseen, not_or] at hnot
      exact hnot.1

theorem nodup_fill (table : Table) (seen : Seen) (range : List Slot) :
    (((fill table seen range).flatMap Delivery.transactions).map
      Transaction.signature).Nodup := by
  induction range generalizing seen with
  | nil => simp [fill]
  | cons slot rest ih =>
    simp only [fill, List.flatMap_cons, List.map_append]
    refine List.Nodup.append (nodup_unseen _ seen _) (ih _) ?_
    intro S hhere hlater
    obtain ⟨tx, htx, rfl⟩ := List.mem_map.1 hhere
    obtain ⟨later, hmem, hsame⟩ := List.mem_map.1 hlater
    have hnot := notMem_seen_fill table _ rest later hmem
    obtain ⟨copy, hcopy, rfl⟩ := mem_unseen _ seen _ tx htx
    exact hnot ((mem_seen_unseen ..).2 (.inr ⟨copy, hcopy, hsame.symm⟩))

theorem mem_fill (table : Table) (seen : Seen) (range : List Slot) :
    ∀ tx ∈ (fill table seen range).flatMap Delivery.transactions,
      ∃ s ∈ range, ∃ copy ∈ (entry table s).transactions, tx = place (entry table s) copy := by
  induction range generalizing seen with
  | nil => simp [fill]
  | cons slot rest ih =>
    intro tx htx
    simp only [fill, List.flatMap_cons, List.mem_append] at htx
    rcases htx with htx | htx
    · obtain ⟨copy, hcopy, rfl⟩ := mem_unseen _ seen _ tx htx
      exact ⟨slot, List.mem_cons_self .., copy, hcopy, rfl⟩
    · obtain ⟨s, hs, copy, hcopy, rfl⟩ := ih _ tx htx
      exact ⟨s, List.mem_cons_of_mem _ hs, copy, hcopy, rfl⟩

theorem exists_mem_fill (table : Table) (seen : Seen) (range : List Slot) {s : Slot}
    (hs : s ∈ range) {copy : Transaction} (hcopy : copy ∈ (entry table s).transactions)
    (hnew : copy.signature ∉ seen) :
    ∃ tx ∈ (fill table seen range).flatMap Delivery.transactions,
      tx.signature = copy.signature := by
  induction range generalizing seen with
  | nil => cases hs
  | cons slot rest ih =>
    simp only [fill, List.flatMap_cons, List.mem_append]
    by_cases hseen : copy.signature ∈
        (unseen (entry table slot) seen (entry table slot).transactions).2
    · rcases (mem_seen_unseen ..).1 hseen with hold | ⟨here, hhere, hsame⟩
      · exact absurd hold hnew
      · obtain ⟨tx, htx, htxs⟩ := exists_mem_unseen (entry table slot) seen _ hhere (hsame ▸ hnew)
        exact ⟨tx, .inl htx, htxs.trans hsame⟩
    · rcases List.mem_cons.1 hs with rfl | hs
      · exact absurd ((mem_seen_unseen ..).2 (.inr ⟨copy, hcopy, rfl⟩)) hseen
      · obtain ⟨tx, htx, hsame⟩ := ih _ hs hseen
        exact ⟨tx, .inr htx, hsame⟩

def transactions (first last : Slot) (raw : List Delivery) : List Transaction :=
  (slots first last raw).flatMap Delivery.transactions

/-- No signature occurs twice. -/
theorem nodup_transactions (first last : Slot) (raw : List Delivery) :
    ((transactions first last raw).map Transaction.signature).Nodup := by
  unfold transactions
  rw [slots_eq_fill]
  exact nodup_fill _ ∅ _

/-- Every transaction is a copy that was delivered for a slot of the range, and stands in it. -/
theorem mem_transactions {first last : Slot} {raw : List Delivery} {tx : Transaction}
    (h : tx ∈ transactions first last raw) :
    ∃ s, (first ≤ s ∧ s ≤ last) ∧ (∃ d ∈ raw, d.slot = s ∧
      ∃ copy ∈ d.transactions, tx = place (entry (gather first last raw) s) copy) := by
  unfold transactions at h
  rw [slots_eq_fill] at h
  obtain ⟨s, hs, copy, hcopy, rfl⟩ := mem_fill _ ∅ _ tx h
  have hrange := Slot.mem_through.1 hs
  obtain ⟨d, hd, hslot, hmem⟩ := (mem_entry_gather first last raw s copy hrange).1 hcopy
  exact ⟨s, hrange, d, hd, hslot, copy, hmem, rfl⟩

/-- No signature that was delivered for a slot of the range is lost. -/
theorem exists_mem_transactions {first last : Slot} {raw : List Delivery} {d : Delivery}
    (hd : d ∈ raw) (hrange : first ≤ d.slot ∧ d.slot ≤ last) {copy : Transaction}
    (hcopy : copy ∈ d.transactions) :
    ∃ tx ∈ transactions first last raw, tx.signature = copy.signature := by
  unfold transactions
  rw [slots_eq_fill]
  refine exists_mem_fill _ ∅ _ (Slot.mem_through.2 hrange) ?_ (by simp)
  exact (mem_entry_gather first last raw d.slot copy hrange).2 ⟨d, hd, rfl, hcopy⟩

/-- Where no slot is delivered, there is no transaction. -/
theorem transactions_nil (first last : Slot) : transactions first last [] = [] := by
  refine List.eq_nil_iff_forall_not_mem.2 fun tx htx => ?_
  obtain ⟨_, _, _, hd, _⟩ := mem_transactions htx
  cases hd

end RouterHistory.Gapless
