import RouterHistory.Proofs.Store.LedgerWrites

/-!
How many rows, marks and quarantine entries the writing calls leave. A write adds a row exactly if
its signature had none, so over a batch in which no signature is repeated the table grows by the
number of new signatures.
-/
namespace RouterHistory.Ledger

variable (l : Ledger) {S : Signature} {s : Slot}

theorem size_marks_moveMark : (l.moveMark S s).marks.size = l.marks.size := by
  unfold moveMark
  split
  · next h => exact Std.ExtTreeMap.size_insert.trans (if_pos h)
  · rfl

/-- All marks that are kept are above the boundary, so all are listed. -/
theorem length_provisionalAfter_finalizeThrough (boundary : Slot) :
    ((l.finalizeThrough boundary).2.provisionalAfter boundary).length =
      (l.finalizeThrough boundary).2.marks.size := by
  have hkept : (l.finalizeThrough boundary).2.marks =
      l.marks.filter fun _ slot => boundary < slot := rfl
  unfold provisionalAfter
  rw [List.length_mergeSort, List.filter_eq_self.2, List.length_map, Std.ExtTreeMap.length_toList]
  intro mark hmark
  obtain ⟨⟨T, t⟩, hmem, rfl⟩ := List.mem_map.1 hmark
  rw [hkept, Std.ExtTreeMap.toList_filter] at hmem
  exact (List.mem_filter.1 hmem).2

/-- A mark is dropped and counted, or it is kept. -/
theorem finalized_add_kept (boundary : Slot) :
    (l.finalizeThrough boundary).1 + (l.finalizeThrough boundary).2.marks.size = l.marks.size :=
  Nat.sub_add_cancel Std.ExtTreeMap.size_filter_le_size

/-- The marks that are dropped are those at the boundary and below it. -/
theorem finalized_eq_size (boundary : Slot) :
    (l.finalizeThrough boundary).1 = (l.marks.filter fun _ slot => slot ≤ boundary).size := by
  have hsplit := List.length_eq_length_filter_add (l := l.marks.toList)
    fun entry => decide (entry.2 ≤ boundary)
  have hkept : (l.finalizeThrough boundary).2.marks.size =
      (l.marks.toList.filter fun entry => !decide (entry.2 ≤ boundary)).length := by
    change (l.marks.filter _).size = _
    rw [← Std.ExtTreeMap.length_toList, Std.ExtTreeMap.toList_filter]
    simp [← UInt64.not_le]
  have hboth := l.finalized_add_kept boundary
  rw [Std.ExtTreeMap.length_toList] at hsplit
  rw [← Std.ExtTreeMap.length_toList, Std.ExtTreeMap.toList_filter]
  omega

/-- A row that is removed is removed together with its mark. -/
theorem size_orphan (hmark : l.marks[S]? = some s) (hrow : S ∈ l.rows) :
    (l.orphan S s).1 = true ∧ (l.orphan S s).2.rows.size + 1 = l.rows.size ∧
      (l.orphan S s).2.marks.size + 1 = l.marks.size := by
  have hmem : S ∈ l.marks := Std.ExtTreeMap.mem_iff_isSome_getElem?.2 (by rw [hmark]; rfl)
  have hrows : (l.rows.erase S).size = l.rows.size - 1 :=
    Std.ExtTreeMap.size_erase.trans (if_pos hrow)
  have hmarks : (l.marks.erase S).size = l.marks.size - 1 :=
    Std.ExtTreeMap.size_erase.trans (if_pos hmem)
  have hrowsPos : 0 < l.rows.size := Nat.pos_of_ne_zero fun h =>
    Std.ExtTreeMap.not_mem_empty (Std.ExtTreeMap.eq_empty_iff_size_eq_zero.2 h ▸ hrow)
  have hmarksPos : 0 < l.marks.size := Nat.pos_of_ne_zero fun h =>
    Std.ExtTreeMap.not_mem_empty (Std.ExtTreeMap.eq_empty_iff_size_eq_zero.2 h ▸ hmem)
  unfold orphan
  rw [if_pos hmark]
  refine ⟨decide_eq_true hrow, ?_, ?_⟩
  · change (l.rows.erase S).size + 1 = _
    omega
  · change (l.marks.erase S).size + 1 = _
    omega

theorem size_rows_upsert (e : Entry) : (l.upsert e).2.rows.size =
    if e.signature ∈ l.rows then l.rows.size else l.rows.size + 1 := by
  rw [upsert_snd]
  by_cases heq : l.rows[e.signature]? = some e.record
  · have hmem : e.signature ∈ l.rows :=
      Std.ExtTreeMap.mem_iff_isSome_getElem?.2 (by rw [heq]; rfl)
    rw [if_pos heq, rows_moveMark, if_pos hmem]
  · rw [if_neg heq]
    exact Std.ExtTreeMap.size_insert

/-- A changed row is marked, whether or not it was before. -/
theorem size_marks_upsert {e : Entry} (hrow : l.rows[e.signature]? ≠ some e.record) :
    (l.upsert e).2.marks.size =
      if e.signature ∈ l.marks then l.marks.size else l.marks.size + 1 := by
  rw [upsert_snd, if_neg hrow]
  exact Std.ExtTreeMap.size_insert

/-- If no signature is written twice, the rows grow by the signatures that had none. -/
theorem size_rows_written {entries : List Entry} (hnodup : (entries.map Entry.signature).Nodup) :
    (l.written entries).rows.size = l.rows.size + entries.countP (·.signature ∉ l.rows) := by
  induction entries generalizing l with
  | nil => rfl
  | cons e rest ih =>
    rw [List.map_cons, List.nodup_cons] at hnodup
    have hrest : rest.countP (·.signature ∉ (l.upsert e).2.rows) =
        rest.countP (·.signature ∉ l.rows) := by
      refine List.countP_congr fun e' he' => ?_
      have hne : e.signature ≠ e'.signature := fun hsame =>
        hnodup.1 (hsame ▸ List.mem_map_of_mem he')
      simp [l.mem_rows_upsert e, hne]
    refine (ih (l.upsert e).2 hnodup.2).trans ?_
    rw [hrest, size_rows_upsert, List.countP_cons]
    by_cases hmem : e.signature ∈ l.rows
    · simp [hmem]
    · simp only [hmem, not_false_eq_true, decide_true, if_true, if_false]
      omega

/-- New signatures are marked as well. -/
theorem size_marks_written {entries : List Entry} (hnodup : (entries.map Entry.signature).Nodup)
    (hnew : ∀ e ∈ entries, e.signature ∉ l.rows ∧ e.signature ∉ l.marks) :
    (l.written entries).marks.size = l.marks.size + entries.length := by
  induction entries generalizing l with
  | nil => rfl
  | cons e rest ih =>
    rw [List.map_cons, List.nodup_cons] at hnodup
    obtain ⟨hrow, hmark⟩ := hnew e (List.mem_cons_self ..)
    have hrest : ∀ e' ∈ rest, e'.signature ∉ (l.upsert e).2.rows ∧
        e'.signature ∉ (l.upsert e).2.marks := by
      intro e' he'
      obtain ⟨hrow', hmark'⟩ := hnew e' (List.mem_cons_of_mem e he')
      have hne : e.signature ≠ e'.signature := fun hsame =>
        hnodup.1 (hsame ▸ List.mem_map_of_mem he')
      refine ⟨fun hmem => ((l.mem_rows_upsert e).1 hmem).elim hne hrow', fun hmem => hmark' ?_⟩
      rwa [Std.ExtTreeMap.mem_iff_isSome_getElem?, ← l.marks_upsert_of_ne hne,
        ← Std.ExtTreeMap.mem_iff_isSome_getElem?]
    have hchanged : l.rows[e.signature]? ≠ some e.record := by
      rw [Std.ExtTreeMap.getElem?_eq_none hrow]
      simp
    refine (ih (l.upsert e).2 hnodup.2 hrest).trans ?_
    rw [l.size_marks_upsert hchanged, if_neg hmark, List.length_cons]
    omega

theorem size_quarantineAll {entries : List Quarantined}
    (hnodup : (entries.map Quarantined.signature).Nodup)
    (hnew : ∀ q ∈ entries, q.signature ∉ l.quarantine) :
    (l.quarantineAll entries).quarantine.size = l.quarantine.size + entries.length := by
  rw [quarantineAll_quarantine]
  generalize l.quarantine = table at hnew
  induction entries generalizing table with
  | nil => rfl
  | cons q rest ih =>
    rw [List.map_cons, List.nodup_cons] at hnodup
    have hrest : ∀ q' ∈ rest, q'.signature ∉ table.insert q.signature q := by
      intro q' hq' hmem
      rcases Std.ExtTreeMap.mem_insert.1 hmem with hsame | hold
      · exact hnodup.1 (Std.compare_eq_iff_eq.1 hsame ▸ List.mem_map_of_mem hq')
      · exact hnew q' (List.mem_cons_of_mem q hq') hold
    have hinsert : (table.insert q.signature q).size = table.size + 1 :=
      Std.ExtTreeMap.size_insert.trans (if_neg (hnew q (List.mem_cons_self ..)))
    rw [List.foldl_cons, ih hnodup.2 _ hrest, hinsert, List.length_cons]
    omega

end RouterHistory.Ledger
