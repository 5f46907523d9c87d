import Mathlib.Data.List.Basic
import RouterHistory.Store.Ledger

/-!
What the writing calls do to the row, the mark and the quarantine entry of one signature. Equal
writes keep ledgers that hold the same history equal, even if their rejections were dated at
different times.
-/
namespace RouterHistory

theorem WriteOutcome.decide_eq_unchanged {stored : Option Record} {row : Record} :
    decide stored row = .unchanged ↔ stored = some row := by
  cases stored with
  | none => simp [decide]
  | some old => by_cases h : old = row <;> simp [decide, h]

namespace Ledger

variable (l : Ledger)

@[simp] theorem rows_moveMark (S : Signature) (s : Slot) : (l.moveMark S s).rows = l.rows := by
  unfold moveMark
  split <;> rfl

@[simp] theorem quarantine_moveMark (S : Signature) (s : Slot) :
    (l.moveMark S s).quarantine = l.quarantine := by
  unfold moveMark
  split <;> rfl

@[simp] theorem checkpoints_moveMark (S : Signature) (s : Slot) :
    (l.moveMark S s).checkpoints = l.checkpoints := by
  unfold moveMark
  split <;> rfl

theorem marks_moveMark_of_ne {S T : Signature} (h : T ≠ S) (s : Slot) :
    (l.moveMark T s).marks[S]? = l.marks[S]? := by
  unfold moveMark
  split
  · simp [Std.ExtTreeMap.getElem?_insert, h]
  · rfl

theorem marks_moveMark_self (S : Signature) (s : Slot) :
    (l.moveMark S s).marks[S]? = l.marks[S]?.map fun _ => s := by
  unfold moveMark
  by_cases h : S ∈ l.marks
  · rw [if_pos h]
    obtain ⟨old, hold⟩ := Option.isSome_iff_exists.1 (Std.ExtTreeMap.mem_iff_isSome_getElem?.1 h)
    simp [hold]
  · rw [if_neg h]
    simp [Std.ExtTreeMap.getElem?_eq_none h]

theorem upsert_snd (e : Entry) :
    (l.upsert e).2 =
      if l.rows[e.signature]? = some e.record then l.moveMark e.signature e.slot
      else l.put e := by
  unfold upsert
  by_cases h : l.rows[e.signature]? = some e.record
  · rw [WriteOutcome.decide_eq_unchanged.2 h, if_pos h]
  · have hchanged := mt WriteOutcome.decide_eq_unchanged.1 h
    rw [if_neg h]
    split
    · next hunchanged => exact absurd hunchanged hchanged
    · rfl

@[simp] theorem quarantine_upsert (e : Entry) : (l.upsert e).2.quarantine = l.quarantine := by
  rw [upsert_snd]
  split
  · exact l.quarantine_moveMark _ _
  · rfl

@[simp] theorem checkpoints_upsert (e : Entry) : (l.upsert e).2.checkpoints = l.checkpoints := by
  rw [upsert_snd]
  split
  · exact l.checkpoints_moveMark _ _
  · rfl

/-- Whether or not the row was equal, afterwards it is the entry's. -/
theorem rows_upsert (e : Entry) (S : Signature) :
    (l.upsert e).2.rows[S]? = if e.signature = S then some e.record else l.rows[S]? := by
  rw [upsert_snd]
  by_cases heq : l.rows[e.signature]? = some e.record
  · rw [if_pos heq, rows_moveMark]
    by_cases hS : e.signature = S
    · rw [if_pos hS, ← hS, heq]
    · rw [if_neg hS]
  · rw [if_neg heq]
    simp [put, Std.ExtTreeMap.getElem?_insert]

theorem mem_rows_upsert (e : Entry) {S : Signature} :
    S ∈ (l.upsert e).2.rows ↔ e.signature = S ∨ S ∈ l.rows := by
  rw [Std.ExtTreeMap.mem_iff_isSome_getElem?, Std.ExtTreeMap.mem_iff_isSome_getElem?, rows_upsert]
  by_cases h : e.signature = S <;> simp [h]

theorem marks_upsert_of_ne {e : Entry} {S : Signature} (h : e.signature ≠ S) :
    (l.upsert e).2.marks[S]? = l.marks[S]? := by
  rw [upsert_snd]
  split
  · exact l.marks_moveMark_of_ne h _
  · simp [put, Std.ExtTreeMap.getElem?_insert, h]

/-- A final row that is equal stays final; any other is provisional at the entry's slot. -/
theorem marks_upsert_self (e : Entry) :
    (l.upsert e).2.marks[e.signature]? =
      if l.rows[e.signature]? = some e.record ∧ l.marks[e.signature]? = none then none
      else some e.slot := by
  rw [upsert_snd]
  by_cases heq : l.rows[e.signature]? = some e.record
  · rw [if_pos heq, marks_moveMark_self]
    cases l.marks[e.signature]? with
    | none => simp [heq]
    | some old => simp
  · rw [if_neg heq, if_neg (fun h => heq h.1)]
    simp [put]

def written (l : Ledger) (entries : List Entry) : Ledger :=
  entries.foldl (fun l e => (l.upsert e).2) l

theorem upsertAll_snd (entries : List Entry) : (l.upsertAll entries).2 = l.written entries := by
  suffices h : ∀ t, (upsertFrom t l entries).2 = l.written entries from h .zero
  induction entries generalizing l with
  | nil => exact fun t => rfl
  | cons e rest ih => exact fun t => ih _ _

@[simp] theorem quarantine_written (entries : List Entry) :
    (l.written entries).quarantine = l.quarantine := by
  induction entries generalizing l with
  | nil => rfl
  | cons e rest ih => exact (ih _).trans (l.quarantine_upsert e)

@[simp] theorem checkpoints_written (entries : List Entry) :
    (l.written entries).checkpoints = l.checkpoints := by
  induction entries generalizing l with
  | nil => rfl
  | cons e rest ih => exact (ih _).trans (l.checkpoints_upsert e)

theorem rows_written_of_forall_ne {entries : List Entry} {S : Signature}
    (h : ∀ e ∈ entries, e.signature ≠ S) : (l.written entries).rows[S]? = l.rows[S]? := by
  induction entries generalizing l with
  | nil => rfl
  | cons e rest ih =>
    have hrest := ih (l.upsert e).2 fun e' he' => h e' (List.mem_cons_of_mem e he')
    refine hrest.trans ?_
    rw [rows_upsert, if_neg (h e (List.mem_cons_self ..))]

theorem marks_written_of_forall_ne {entries : List Entry} {S : Signature}
    (h : ∀ e ∈ entries, e.signature ≠ S) : (l.written entries).marks[S]? = l.marks[S]? := by
  induction entries generalizing l with
  | nil => rfl
  | cons e rest ih =>
    have hrest := ih (l.upsert e).2 fun e' he' => h e' (List.mem_cons_of_mem e he')
    exact hrest.trans (l.marks_upsert_of_ne (h e (List.mem_cons_self ..)))

theorem mem_rows_written {entries : List Entry} {S : Signature} (h : S ∈ l.rows) :
    S ∈ (l.written entries).rows := by
  induction entries generalizing l with
  | nil => exact h
  | cons e rest ih => exact ih _ ((l.mem_rows_upsert e).2 (.inr h))

/-- If no signature is written twice, each entry is written as if it were alone. -/
theorem rows_written_of_mem {entries : List Entry} (hnodup : (entries.map Entry.signature).Nodup)
    {e : Entry} (he : e ∈ entries) :
    (l.written entries).rows[e.signature]? = some e.record := by
  induction entries generalizing l with
  | nil => cases he
  | cons first rest ih =>
    rw [List.map_cons, List.nodup_cons] at hnodup
    rcases List.mem_cons.1 he with rfl | he
    · have hother : ∀ e' ∈ rest, e'.signature ≠ e.signature := fun e' he' hsame =>
        hnodup.1 (hsame ▸ List.mem_map_of_mem he')
      refine ((l.upsert e).2.rows_written_of_forall_ne hother).trans ?_
      rw [rows_upsert, if_pos rfl]
    · exact ih _ hnodup.2 he

theorem marks_written_of_mem {entries : List Entry} (hnodup : (entries.map Entry.signature).Nodup)
    {e : Entry} (he : e ∈ entries) :
    (l.written entries).marks[e.signature]? =
      if l.rows[e.signature]? = some e.record ∧ l.marks[e.signature]? = none then none
      else some e.slot := by
  induction entries generalizing l with
  | nil => cases he
  | cons first rest ih =>
    rw [List.map_cons, List.nodup_cons] at hnodup
    rcases List.mem_cons.1 he with rfl | he
    · have hother : ∀ e' ∈ rest, e'.signature ≠ e.signature := fun e' he' hsame =>
        hnodup.1 (hsame ▸ List.mem_map_of_mem he')
      refine ((l.upsert e).2.marks_written_of_forall_ne hother).trans ?_
      exact l.marks_upsert_self e
    · have hne : first.signature ≠ e.signature := fun hsame =>
        hnodup.1 (hsame ▸ List.mem_map_of_mem he)
      refine (ih _ hnodup.2 he).trans ?_
      rw [rows_upsert, if_neg hne, marks_upsert_of_ne l hne]

theorem quarantineAll_quarantine (l : Ledger) (entries : List Quarantined) :
    (l.quarantineAll entries).quarantine =
      entries.foldl (fun table q => table.insert q.signature q) l.quarantine := rfl

theorem mem_quarantineAll (entries : List Quarantined) (S : Signature) :
    S ∈ (l.quarantineAll entries).quarantine ↔
      S ∈ l.quarantine ∨ ∃ q ∈ entries, q.signature = S := by
  rw [quarantineAll_quarantine]
  generalize l.quarantine = table
  induction entries generalizing table with
  | nil => simp
  | cons q rest ih =>
    rw [List.foldl_cons, ih, Std.ExtTreeMap.mem_insert, Std.compare_eq_iff_eq]
    simp only [List.mem_cons, exists_eq_or_imp]
    tauto

/-- An entry is kept under its signature, or was there before. -/
theorem getElem?_quarantineAll {entries : List Quarantined} {S : Signature} {q : Quarantined}
    (h : (l.quarantineAll entries).quarantine[S]? = some q) :
    q ∈ entries ∧ q.signature = S ∨ l.quarantine[S]? = some q := by
  rw [quarantineAll_quarantine] at h
  generalize l.quarantine = table at h ⊢
  induction entries generalizing table with
  | nil => exact .inr h
  | cons first rest ih =>
    rcases ih _ h with ⟨hmem, hsame⟩ | h
    · exact .inl ⟨List.mem_cons_of_mem _ hmem, hsame⟩
    · rw [Std.ExtTreeMap.getElem?_insert] at h
      by_cases hS : first.signature = S
      · rw [if_pos (Std.compare_eq_iff_eq.2 hS)] at h
        cases h
        exact .inl ⟨List.mem_cons_self .., hS⟩
      · rw [if_neg (mt Std.compare_eq_iff_eq.1 hS)] at h
        exact .inr h

theorem getElem?_quarantineAll_of_forall_ne {entries : List Quarantined} {S : Signature}
    (h : ∀ q ∈ entries, q.signature ≠ S) :
    (l.quarantineAll entries).quarantine[S]? = l.quarantine[S]? := by
  rw [quarantineAll_quarantine]
  generalize l.quarantine = table
  induction entries generalizing table with
  | nil => rfl
  | cons first rest ih =>
    have hfirst : ¬ compare first.signature S = .eq :=
      mt Std.compare_eq_iff_eq.1 (h first (List.mem_cons_self ..))
    rw [List.foldl_cons, ih (fun q hq => h q (List.mem_cons_of_mem first hq)),
      Std.ExtTreeMap.getElem?_insert, if_neg hfirst]

/-- If no signature is turned down twice, each entry is kept as it is. -/
theorem getElem?_quarantineAll_of_mem {entries : List Quarantined}
    (hnodup : (entries.map Quarantined.signature).Nodup) {q : Quarantined} (hq : q ∈ entries) :
    (l.quarantineAll entries).quarantine[q.signature]? = some q := by
  obtain ⟨before, after, rfl⟩ := List.append_of_mem hq
  have hafter : ∀ q' ∈ after, q'.signature ≠ q.signature := by
    intro q' hq' hsame
    rw [List.map_append, List.map_cons] at hnodup
    have hcons := (List.nodup_append.1 hnodup).2.1
    exact (List.nodup_cons.1 hcons).1 (hsame ▸ List.mem_map_of_mem hq')
  have hsplit : l.quarantineAll (before ++ q :: after) =
      (l.quarantineAll (before ++ [q])).quarantineAll after := by
    simp [quarantineAll]
  rw [hsplit, getElem?_quarantineAll_of_forall_ne _ hafter, quarantineAll_quarantine]
  simp

/-- A move is possible from the slot where the checkpoint is. -/
theorem checkMove_eq_ok {now : Int} {m : Move} {next : Option Checkpoint} :
    l.checkMove now (some m) = .ok next ↔
      ∃ cp, l.checkpoints[m.pipelineId]? = some cp ∧ cp.slot = m.expected ∧
        m.expected < m.target ∧ next = some
          { cp with slot := m.target, revision := cp.revision + 1, updatedAt := now } := by
  unfold checkMove Checkpoints.after
  cases hcp : l.checkpoints[m.pipelineId]? with
  | none => simp [hcp, Except.map]
  | some cp =>
    simp only [hcp, Checkpoint.moved]
    by_cases hmove : cp.slot = m.expected ∧ cp.slot < m.target
    · obtain ⟨hslot, hlt⟩ := hmove
      rw [if_pos ⟨hslot, hlt⟩]
      simp [Except.map, hslot, hslot ▸ hlt, eq_comm]
    · rw [if_neg hmove]
      simp only [Except.map, reduceCtorEq, false_iff]
      intro h
      obtain ⟨cp', hcp', hslot, hlt, -⟩ := h
      cases hcp'
      exact hmove ⟨hslot, hslot ▸ hlt⟩

/-- A commit whose move is not possible changes nothing. -/
theorem commit_eq_of_error {now : Int} {c : Commit} {f : Failure}
    (h : l.checkMove now c.move = .error f) : l.commit now c = (.error f, l) := by
  unfold commit
  rw [h]

theorem commit_of_error {now : Int} {c : Commit} {f : Failure}
    (h : l.checkMove now c.move = .error f) : (l.commit now c).2 = l :=
  congrArg Prod.snd (l.commit_eq_of_error h)

theorem exists_receipt {now : Int} {c : Commit} {next : Option Checkpoint}
    (h : l.checkMove now c.move = .ok next) :
    ∃ tally, l.commit now c = (.ok ⟨tally, next⟩, (l.commit now c).2) := by
  unfold commit
  rw [h]
  exact ⟨_, rfl⟩

theorem commit_of_ok {now : Int} {c : Commit} {next : Option Checkpoint}
    (h : l.checkMove now c.move = .ok next) :
    (l.commit now c).2 =
      ((l.written c.entries).quarantineAll c.quarantined).storeCheckpoint next := by
  unfold commit
  rw [h]
  simp only [upsertAll_snd]

@[simp] theorem rows_storeCheckpoint (next : Option Checkpoint) :
    (l.storeCheckpoint next).rows = l.rows := by
  cases next <;> rfl

@[simp] theorem marks_storeCheckpoint (next : Option Checkpoint) :
    (l.storeCheckpoint next).marks = l.marks := by
  cases next <;> rfl

@[simp] theorem quarantine_storeCheckpoint (next : Option Checkpoint) :
    (l.storeCheckpoint next).quarantine = l.quarantine := by
  cases next <;> rfl

section Commit

variable {now : Int} {c : Commit} {next : Option Checkpoint}

theorem rows_commit (h : l.checkMove now c.move = .ok next) :
    (l.commit now c).2.rows = (l.written c.entries).rows := by
  rw [l.commit_of_ok h, rows_storeCheckpoint]
  rfl

theorem marks_commit (h : l.checkMove now c.move = .ok next) :
    (l.commit now c).2.marks = (l.written c.entries).marks := by
  rw [l.commit_of_ok h, marks_storeCheckpoint]
  rfl

theorem quarantine_commit (h : l.checkMove now c.move = .ok next) :
    (l.commit now c).2.quarantine = (l.quarantineAll c.quarantined).quarantine := by
  rw [l.commit_of_ok h, quarantine_storeCheckpoint, quarantineAll_quarantine, quarantine_written,
    quarantineAll_quarantine]

theorem checkpoints_commit {cp : Checkpoint} (h : l.checkMove now c.move = .ok (some cp)) :
    (l.commit now c).2.checkpoints = l.checkpoints.insert cp.pipelineId cp := by
  have hkept : ((l.written c.entries).quarantineAll c.quarantined).checkpoints =
      l.checkpoints := l.checkpoints_written c.entries
  rw [l.commit_of_ok h, ← hkept]
  rfl

end Commit

theorem mem_rows_commit {S : Signature} (h : S ∈ l.rows) (now : Int) (c : Commit) :
    S ∈ (l.commit now c).2.rows := by
  cases hmove : l.checkMove now c.move with
  | error f => rwa [l.commit_of_error hmove]
  | ok next =>
    rw [l.rows_commit hmove]
    exact l.mem_rows_written h

theorem orphan_of_ne {S : Signature} {s : Slot} (h : l.marks[S]? ≠ some s) :
    l.orphan S s = (false, l) := by
  unfold orphan
  rw [if_neg h]

theorem orphan_of_eq {S : Signature} {s : Slot} (h : l.marks[S]? = some s) :
    (l.orphan S s).2 = { l with marks := l.marks.erase S, rows := l.rows.erase S } := by
  unfold orphan
  rw [if_pos h]

/-- Only one call removes a row, and it removes that of a signature whose mark is where the call
says, together with the mark. -/
theorem orphan_of_notMem_rows {now : Int} {call : StoreCall} {S : Signature} (h : S ∈ l.rows)
    (hgone : S ∉ (l.answer now call).2.rows) :
    ∃ s, call = .orphan S s ∧ l.marks[S]? = some s ∧ S ∉ (l.answer now call).2.marks := by
  cases call with
  | upsert e => exact absurd ((l.mem_rows_upsert e).2 (.inr h)) hgone
  | upsertAll entries =>
    have hkept : S ∈ (l.upsertAll entries).2.rows := by
      rw [upsertAll_snd]
      exact l.mem_rows_written h
    exact absurd hkept hgone
  | commit batch => exact absurd (l.mem_rows_commit h now batch) hgone
  | moveMark T s =>
    have hkept : S ∈ (l.moveMark T s).rows := by rwa [rows_moveMark]
    exact absurd hkept hgone
  | orphan T s =>
    have hafter : (l.answer now (.orphan T s)).2 = (l.orphan T s).2 := rfl
    rw [hafter] at hgone ⊢
    by_cases hmark : l.marks[T]? = some s
    · rw [orphan_of_eq l hmark] at hgone ⊢
      have hsame : T = S := by
        by_contra hne
        exact hgone (Std.ExtTreeMap.mem_erase.2 ⟨mt Std.compare_eq_iff_eq.1 hne, h⟩)
      subst hsame
      exact ⟨s, rfl, hmark, by simp [Std.ExtTreeMap.mem_erase]⟩
    · rw [orphan_of_ne l hmark] at hgone
      exact absurd h hgone
  | _ => exact absurd h hgone

end Ledger

/-- The values of a table, in the order of their keys. -/
theorem values_eq_map_toList {κ β : Type} [Ord κ] [Std.TransOrd κ] (table : Std.ExtTreeMap κ β) :
    table.values = table.toList.map Prod.snd := by
  obtain ⟨⟨inner⟩⟩ := table
  induction inner using Quotient.ind with
  | _ tree =>
    change tree.inner.values =
      (Std.DTreeMap.Internal.Impl.Const.toList tree.inner).map Prod.snd
    rw [Std.DTreeMap.Internal.Impl.values_eq_map_snd,
      Std.DTreeMap.Internal.Impl.Const.toList_eq_toListModel_map, List.map_map]
    rfl

namespace Ledger

variable (l : Ledger)

theorem mem_quarantined {q : Quarantined} :
    q ∈ l.quarantined ↔ ∃ S : Signature, l.quarantine[S]? = some q := by
  unfold quarantined sortQuarantine
  rw [List.mem_mergeSort, values_eq_map_toList]
  simp [Std.ExtTreeMap.mem_toList_iff_getElem?_eq_some]

theorem mem_provisionalAfter {boundary : Slot} {mark : Mark} :
    mark ∈ l.provisionalAfter boundary ↔
      l.marks[mark.signature]? = some mark.slot ∧ boundary < mark.slot := by
  unfold provisionalAfter
  rw [List.mem_mergeSort, List.mem_filter, decide_eq_true_eq, List.mem_map]
  refine and_congr_left fun _ => ?_
  constructor
  · intro h
    obtain ⟨⟨S, s⟩, hmem, rfl⟩ := h
    exact Std.ExtTreeMap.mem_toList_iff_getElem?_eq_some.1 hmem
  · intro h
    exact ⟨(mark.signature, mark.slot), Std.ExtTreeMap.mem_toList_iff_getElem?_eq_some.2 h, rfl⟩

/-- A signature is listed once. -/
theorem nodup_provisionalAfter (boundary : Slot) :
    ((l.provisionalAfter boundary).map Mark.signature).Nodup := by
  have hkeys : (l.marks.toList.map Prod.fst).Nodup := by
    have hdistinct := Std.ExtTreeMap.distinct_keys_toList (t := l.marks)
    refine List.Pairwise.map _ (fun a b h => ?_) hdistinct
    intro hsame
    exact h (Std.compare_eq_iff_eq.2 hsame)
  unfold provisionalAfter
  rw [((List.mergeSort_perm _ Mark.le).map Mark.signature).nodup_iff]
  refine List.Nodup.sublist (List.filter_sublist.map Mark.signature) ?_
  rw [List.map_map]
  exact hkeys

theorem lifecycle_eq_unseen {S : Signature} :
    l.lifecycle S = .unseen ↔ S ∉ l.marks ∧ S ∉ l.rows := by
  unfold lifecycle
  by_cases hmark : S ∈ l.marks
  · simp [hmark]
  · by_cases hrow : S ∈ l.rows <;> simp [hmark, hrow]

end Ledger

def Quarantined.undated (q : Quarantined) : Signature × Slot × String :=
  (q.signature, q.slot, q.reason)

/-- Two ledgers have the same rows, marks and quarantine, apart from times of detection. -/
structure Ledger.Same (l l' : Ledger) : Prop where
  rows : l.rows = l'.rows
  marks : l.marks = l'.marks
  quarantine : ∀ S : Signature,
    l.quarantine[S]?.map Quarantined.undated = l'.quarantine[S]?.map Quarantined.undated

namespace Ledger

variable {l l' : Ledger}

theorem upsert_congr (hrows : l.rows = l'.rows) (hmarks : l.marks = l'.marks) (e : Entry) :
    (l.upsert e).2.rows = (l'.upsert e).2.rows ∧
    (l.upsert e).2.marks = (l'.upsert e).2.marks := by
  rw [upsert_snd, upsert_snd, hrows]
  split
  · refine ⟨by rw [rows_moveMark, rows_moveMark, hrows], ?_⟩
    unfold moveMark
    rw [hmarks]
    split
    · rfl
    · exact hmarks
  · unfold put
    rw [hrows, hmarks]
    exact ⟨rfl, rfl⟩

theorem written_congr (hrows : l.rows = l'.rows) (hmarks : l.marks = l'.marks)
    (entries : List Entry) :
    (l.written entries).rows = (l'.written entries).rows ∧
      (l.written entries).marks = (l'.written entries).marks := by
  induction entries generalizing l l' with
  | nil => exact ⟨hrows, hmarks⟩
  | cons e rest ih =>
    obtain ⟨hrows', hmarks'⟩ := upsert_congr hrows hmarks e
    exact ih hrows' hmarks'

/-- When rejections were dated makes no other difference. -/
theorem quarantineAll_congr {entries entries' : List Quarantined}
    (hentries : entries.map Quarantined.undated = entries'.map Quarantined.undated)
    (h : ∀ S : Signature,
      l.quarantine[S]?.map Quarantined.undated = l'.quarantine[S]?.map Quarantined.undated)
    (S : Signature) :
    ((l.quarantineAll entries).quarantine[S]?).map Quarantined.undated =
      ((l'.quarantineAll entries').quarantine[S]?).map Quarantined.undated := by
  rw [quarantineAll_quarantine, quarantineAll_quarantine]
  generalize l.quarantine = table at h ⊢
  generalize l'.quarantine = table' at h ⊢
  induction entries generalizing entries' table table' with
  | nil =>
    rw [List.map_eq_nil_iff.1 hentries.symm]
    exact h S
  | cons q rest ih =>
    obtain ⟨q', rest', rfl, hq, hrest⟩ := List.map_eq_cons_iff.1 hentries.symm
    have hsignature : q'.signature = q.signature := congrArg Prod.fst hq
    refine ih hrest.symm _ _ fun T => ?_
    rw [Std.ExtTreeMap.getElem?_insert, Std.ExtTreeMap.getElem?_insert, hsignature]
    by_cases hT : compare q.signature T = .eq
    · rw [if_pos hT, if_pos hT, Option.map_some, Option.map_some, hq]
    · rw [if_neg hT, if_neg hT, h T]

end Ledger

end RouterHistory
