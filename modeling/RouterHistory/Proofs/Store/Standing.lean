import RouterHistory.Proofs.Store.LedgerWrites

/-!
Where a signature stands in a ledger, its row and its mark, and which calls move it.
-/
namespace RouterHistory

def StoreCall.Touches (S : Signature) : StoreCall → Prop
  | .upsert e => e.signature = S
  | .upsertAll entries => ∃ e ∈ entries, e.signature = S
  | .commit batch => ∃ e ∈ batch.entries, e.signature = S
  | .moveMark T _ => T = S
  | .orphan T _ => T = S
  | .finalizeThrough _ => True
  | _ => False

namespace Ledger

variable (l : Ledger)

def standing (S : Signature) : Option Record × Option Slot := (l.rows[S]?, l.marks[S]?)

variable {l}

theorem standing_congr {l' : Ledger} {S : Signature} (hrows : l'.rows[S]? = l.rows[S]?)
    (hmarks : l'.marks[S]? = l.marks[S]?) : l'.standing S = l.standing S := by
  unfold standing
  rw [hrows, hmarks]

/-- Ledgers in which every signature stands alike differ in quarantine and checkpoints only. -/
theorem eq_of_standing {l l' : Ledger} (hstanding : ∀ S, l'.standing S = l.standing S)
    (hquarantine : l'.quarantine = l.quarantine) (hcheckpoints : l'.checkpoints = l.checkpoints) :
    l' = l := by
  have hrows : l'.rows = l.rows :=
    Std.ExtTreeMap.ext_getElem? fun S => congrArg Prod.fst (hstanding S)
  have hmarks : l'.marks = l.marks :=
    Std.ExtTreeMap.ext_getElem? fun S => congrArg Prod.snd (hstanding S)
  cases l
  cases l'
  simp_all

theorem standing_upsert_of_ne {e : Entry} {S : Signature} (h : e.signature ≠ S) :
    (l.upsert e).2.standing S = l.standing S := by
  refine standing_congr ?_ (l.marks_upsert_of_ne h)
  rw [rows_upsert, if_neg h]

theorem standing_written_of_forall_ne {entries : List Entry} {S : Signature}
    (h : ∀ e ∈ entries, e.signature ≠ S) : (l.written entries).standing S = l.standing S :=
  standing_congr (l.rows_written_of_forall_ne h) (l.marks_written_of_forall_ne h)

/-- If no signature is written twice, an entry is written unless it is the row of a final
signature. -/
theorem standing_written_of_mem {entries : List Entry}
    (hnodup : (entries.map Entry.signature).Nodup) {e : Entry} (he : e ∈ entries) :
    (l.written entries).standing e.signature = (some e.record, some e.slot) ∨
      (l.written entries).standing e.signature = l.standing e.signature := by
  have hrow := l.rows_written_of_mem hnodup he
  have hmark := l.marks_written_of_mem hnodup he
  by_cases hfinal : l.rows[e.signature]? = some e.record ∧ l.marks[e.signature]? = none
  · rw [if_pos hfinal] at hmark
    refine .inr (standing_congr ?_ ?_)
    · rw [hrow, hfinal.1]
    · rw [hmark, hfinal.2]
  · rw [if_neg hfinal] at hmark
    left
    unfold standing
    rw [hrow, hmark]

/-- What is provisional takes the entry's row and slot. -/
theorem standing_written_of_provisional {entries : List Entry}
    (hnodup : (entries.map Entry.signature).Nodup) {e : Entry} (he : e ∈ entries)
    {slot : Slot} (hmarked : l.marks[e.signature]? = some slot) :
    (l.written entries).standing e.signature = (some e.record, some e.slot) := by
  have hrow := l.rows_written_of_mem hnodup he
  have hmark := l.marks_written_of_mem hnodup he
  rw [hmarked] at hmark
  unfold standing
  rw [hrow, hmark]
  simp

/-- What has no row gets the entry's row and slot. -/
theorem standing_written_of_notMem_rows {entries : List Entry}
    (hnodup : (entries.map Entry.signature).Nodup) {e : Entry} (he : e ∈ entries)
    (hnew : e.signature ∉ l.rows) :
    (l.written entries).standing e.signature = (some e.record, some e.slot) := by
  have hrow := l.rows_written_of_mem hnodup he
  have hmark := l.marks_written_of_mem hnodup he
  have hnone : l.rows[e.signature]? = none := Std.ExtTreeMap.getElem?_eq_none hnew
  rw [hnone, if_neg (by simp)] at hmark
  unfold standing
  rw [hrow, hmark]

theorem standing_moveMark {S : Signature} {row : Record} {old : Slot}
    (h : l.standing S = (some row, some old)) (slot : Slot) :
    (l.moveMark S slot).standing S = (some row, some slot) := by
  obtain ⟨hrow, hmark⟩ := Prod.mk.injEq .. ▸ h
  unfold standing
  rw [rows_moveMark, marks_moveMark_self, hrow, hmark]
  rfl

theorem standing_commit {now : Int} {c : Commit} {next : Option Checkpoint}
    (h : l.checkMove now c.move = .ok next) (S : Signature) :
    (l.commit now c).2.standing S = (l.written c.entries).standing S := by
  unfold standing
  rw [l.rows_commit h, l.marks_commit h]

/-- A commit writes each of its entries or leaves the signature where it stands. -/
theorem standing_commit_of_mem (now : Int) {c : Commit}
    (hnodup : (c.entries.map Entry.signature).Nodup) {e : Entry} (he : e ∈ c.entries) :
    (l.commit now c).2.standing e.signature = (some e.record, some e.slot) ∨
      (l.commit now c).2.standing e.signature = l.standing e.signature := by
  cases hmove : l.checkMove now c.move with
  | error f =>
    rw [l.commit_of_error hmove]
    exact .inr rfl
  | ok next =>
    rw [standing_commit hmove]
    exact standing_written_of_mem hnodup he

/-- The calls that do not touch a signature leave it where it stands. -/
theorem standing_answer {now : Int} {call : StoreCall} {S : Signature} (h : ¬ call.Touches S) :
    (l.answer now call).2.standing S = l.standing S := by
  cases call with
  | upsert e => exact standing_upsert_of_ne h
  | upsertAll entries =>
    have hother : ∀ e ∈ entries, e.signature ≠ S := fun e he hsame => h ⟨e, he, hsame⟩
    change (l.upsertAll entries).2.standing S = _
    rw [upsertAll_snd]
    exact standing_written_of_forall_ne hother
  | commit batch =>
    have hother : ∀ e ∈ batch.entries, e.signature ≠ S := fun e he hsame => h ⟨e, he, hsame⟩
    change (l.commit now batch).2.standing S = _
    cases hmove : l.checkMove now batch.move with
    | error f => rw [l.commit_of_error hmove]
    | ok next =>
      rw [standing_commit hmove]
      exact standing_written_of_forall_ne hother
  | moveMark T slot =>
    refine standing_congr ?_ (l.marks_moveMark_of_ne h slot)
    change (l.moveMark T slot).rows[S]? = _
    rw [rows_moveMark]
  | orphan T slot =>
    have hother : ¬ compare T S = .eq := mt Std.compare_eq_iff_eq.1 h
    change (l.orphan T slot).2.standing S = _
    by_cases hmark : l.marks[T]? = some slot
    · rw [l.orphan_of_eq hmark]
      refine standing_congr ?_ ?_
      · rw [Std.ExtTreeMap.getElem?_erase, if_neg hother]
      · rw [Std.ExtTreeMap.getElem?_erase, if_neg hother]
    · rw [l.orphan_of_ne hmark]
  | finalizeThrough boundary => exact absurd trivial h
  | _ => rfl

end Ledger

end RouterHistory
