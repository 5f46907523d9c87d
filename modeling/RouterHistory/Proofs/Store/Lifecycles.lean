import Mathlib.Data.Set.Card
import RouterHistory.Proofs.Store.CheckpointMoves

/-!
What a store tells of the lifecycles of its signatures. Where a signature stands is not stored: it
is read off two tables, the rows and the marks, which the calls write separately. Since a marked
signature always has a row, the counts, the listing of marks, removals and finalisation agree with
the lifecycles, after any calls.
-/
namespace RouterHistory

/-- The order of marks, by slot and then by signature, without repetition. -/
def Mark.Before (a b : Mark) : Prop :=
  a.slot < b.slot ∨ a.slot = b.slot ∧ compare a.signature b.signature = .lt

def Ledger.signaturesIn (l : Ledger) (state : Lifecycle) : Set Signature :=
  {S | l.lifecycle S = state}

/-- What the store answers about lifecycles is so, and everything is kept under its own name. -/
structure Ledger.Accountable (l : Ledger) : Prop where
  marked : ∀ S : Signature, S ∈ l.marks → S ∈ l.rows
  row : ∀ (S : Signature) (row : Record), l.rows[S]? = some row → row.signature = S
  entry : ∀ (S : Signature) (q : Quarantined), l.quarantine[S]? = some q → q.signature = S
  checkpoint : ∀ (id : String) (c : Checkpoint), l.checkpoints[id]? = some c → c.pipelineId = id
  /-- The rows are counted as those that are provisional and those that are final. -/
  counted : ∀ now, ∃ n : Nat, l.answer now .count = (.ok n, l) ∧
    (n : ENat) = (l.signaturesIn .provisional).encard + (l.signaturesIn .final).encard
  /-- The marks above a slot are listed in order, each once, and none is left out. -/
  listed : ∀ now boundary, ∃ marks : List Mark,
    l.answer now (.provisionalAfter boundary) = (.ok marks, l) ∧ marks.Pairwise Mark.Before ∧
    ∀ mark, mark ∈ marks ↔ l.lifecycle mark.signature = .provisional ∧
      l.marks[mark.signature]? = some mark.slot ∧ boundary < mark.slot
  /-- A row is removed exactly if it is provisional at the slot, and then nothing is left of it.
  -/
  orphaned : ∀ now S slot, ∃ removed : Bool, (l.answer now (.orphan S slot)).1 = .ok removed ∧
    (removed = true ↔ l.lifecycle S = .provisional ∧ l.marks[S]? = some slot) ∧
    (removed = true → (l.answer now (.orphan S slot)).2.lifecycle S = .unseen)
  /-- The number of rows that were provisional and are final now. -/
  finalized : ∀ now boundary, ∃ n : Nat, (l.answer now (.finalizeThrough boundary)).1 = .ok n ∧
    (n : ENat) = (l.signaturesIn .provisional ∩
      (l.answer now (.finalizeThrough boundary)).2.signaturesIn .final).encard

namespace Mark

theorem le_iff {a b : Mark} :
    a.le b = true ↔ a.slot < b.slot ∨ a.slot = b.slot ∧
    (compare a.signature b.signature).isLE := by
  unfold le
  simp

theorem le_trans {a b c : Mark} (hab : a.le b = true) (hbc : b.le c = true) : a.le c = true := by
  rw [le_iff] at *
  simp only [UInt64.lt_iff_toNat_lt] at *
  rcases hab with hab | ⟨hab, hsignature⟩
  · rcases hbc with hbc | ⟨hbc, -⟩
    · left; omega
    · left; rwa [← hbc]
  · rcases hbc with hbc | ⟨hbc, hsignature'⟩
    · left; rwa [hab]
    · exact .inr ⟨hab.trans hbc, Std.TransOrd.isLE_trans hsignature hsignature'⟩

theorem le_total (a b : Mark) : (a.le b || b.le a) = true := by
  rw [Bool.or_eq_true, le_iff, le_iff]
  by_cases hslot : a.slot = b.slot
  · by_cases hsignature : (compare a.signature b.signature).isLE
    · exact .inl (.inr ⟨hslot, hsignature⟩)
    · right; right
      have hgt : compare a.signature b.signature = .gt := by simpa using hsignature
      refine ⟨hslot.symm, ?_⟩
      rw [Std.OrientedCmp.gt_iff_lt.1 hgt]
      rfl
  · have hne : a.slot.toNat ≠ b.slot.toNat := fun h => hslot (UInt64.toNat_inj.1 h)
    simp only [UInt64.lt_iff_toNat_lt]
    omega

/-- Two marks in order are strictly so unless they are of one signature. -/
theorem before_of_le {a b : Mark} (h : a.le b = true) (hne : a.signature ≠ b.signature) :
    a.Before b := by
  rcases le_iff.1 h with hslot | ⟨hslot, hsignature⟩
  · exact .inl hslot
  · refine .inr ⟨hslot, ?_⟩
    have hcompare : compare a.signature b.signature ≠ .eq := mt Std.compare_eq_iff_eq.1 hne
    cases horder : compare a.signature b.signature with
    | lt => rfl
    | eq => exact absurd horder hcompare
    | gt => rw [horder] at hsignature; cases hsignature

end Mark

namespace Ledger

variable {l : Ledger}

theorem pairwise_provisionalAfter (l : Ledger) (boundary : Slot) :
    (l.provisionalAfter boundary).Pairwise Mark.Before := by
  have hsorted : (l.provisionalAfter boundary).Pairwise fun a b => a.le b = true := by
    unfold provisionalAfter
    apply List.pairwise_mergeSort
    · intro a b c
      exact Mark.le_trans
    · exact Mark.le_total
  have hnodup := l.nodup_provisionalAfter boundary
  rw [List.Nodup, List.pairwise_map] at hnodup
  exact hsorted.imp₂ (fun _ _ => Mark.before_of_le) hnodup

theorem lifecycle_eq_provisional {S : Signature} :
    l.lifecycle S = .provisional ↔ S ∈ l.marks := by
  unfold lifecycle
  by_cases hmark : S ∈ l.marks
  · simp [hmark]
  · by_cases hrow : S ∈ l.rows <;> simp [hmark, hrow]

theorem lifecycle_eq_final {S : Signature} :
    l.lifecycle S = .final ↔ S ∉ l.marks ∧ S ∈ l.rows := by
  unfold lifecycle
  by_cases hmark : S ∈ l.marks
  · simp [hmark]
  · by_cases hrow : S ∈ l.rows <;> simp [hmark, hrow]

/-- A table has as many entries as it has keys. -/
theorem encard_keys {β : Type} (table : Std.ExtTreeMap Signature β) :
    {S | S ∈ table}.encard = (table.size : ENat) := by
  have hkeys : {S | S ∈ table} = (table.keys.toFinset : Set Signature) := by
    ext S
    simp
  rw [hkeys, Set.encard_coe_eq_coe_finsetCard, List.toFinset_card_of_nodup table.nodup_keys,
    Std.ExtTreeMap.length_keys]

/-- The rows are those of provisional and of final signatures. -/
theorem size_rows (h : l.Regular) : (l.rows.size : ENat) =
    (l.signaturesIn .provisional).encard + (l.signaturesIn .final).encard := by
  have hapart : ∀ S, S ∈ l.signaturesIn .provisional → S ∉ l.signaturesIn .final := by
    intro S hprovisional hfinal
    have hboth : Lifecycle.provisional = .final := hprovisional.symm.trans hfinal
    cases hboth
  rw [← encard_keys, ← Set.encard_union_eq (Set.disjoint_left.2 fun S => hapart S)]
  congr 1
  ext S
  have hmarked := h.marked S
  simp only [signaturesIn, Set.mem_ofPred_eq, Set.mem_union, lifecycle_eq_provisional,
    lifecycle_eq_final]
  tauto

/-- The marks that finalisation drops are those of the signatures that it makes final. -/
theorem dropped_finalizeThrough (h : l.Regular) (boundary : Slot) :
    ((l.finalizeThrough boundary).1 : ENat) = (l.signaturesIn .provisional ∩
      (l.finalizeThrough boundary).2.signaturesIn .final).encard := by
  let kept := l.marks.filter fun _ slot => boundary < slot
  let turned := l.signaturesIn .provisional ∩ (l.finalizeThrough boundary).2.signaturesIn .final
  have hturned : ∀ S, S ∈ turned ↔ S ∈ l.marks ∧ S ∉ kept := by
    intro S
    have hmarked := h.marked S
    have hfinal : (l.finalizeThrough boundary).2.lifecycle S = .final ↔ S ∉ kept ∧ S ∈ l.rows :=
      lifecycle_eq_final
    simp only [turned, signaturesIn, Set.mem_inter_iff, Set.mem_ofPred_eq,
      lifecycle_eq_provisional,
      hfinal]
    tauto
  have hunion : {S | S ∈ l.marks} = {S | S ∈ kept} ∪ turned := by
    ext S
    have hkept : S ∈ kept → S ∈ l.marks := Std.ExtTreeMap.mem_of_mem_filter
    simp only [Set.mem_union, Set.mem_ofPred_eq, hturned]
    tauto
  have hapart : ∀ S, S ∈ {S | S ∈ kept} → S ∉ turned := fun S hkept hS =>
    ((hturned S).1 hS).2 hkept
  have hsize : (l.marks.size : ENat) = kept.size + turned.encard := by
    rw [← encard_keys, ← encard_keys,
      ← Set.encard_union_eq (Set.disjoint_left.2 fun S => hapart S), ← hunion]
  have hle : kept.size ≤ l.marks.size := Std.ExtTreeMap.size_filter_le_size
  have hnumber : (l.finalizeThrough boundary).1 + kept.size = l.marks.size :=
    Nat.sub_add_cancel hle
  have hcast : ((l.finalizeThrough boundary).1 : ENat) + kept.size =
      turned.encard + kept.size := by
    rw [← Nat.cast_add, hnumber, hsize, add_comm]
  exact (ENat.add_left_injective_of_ne_top (ENat.natCast_ne_top kept.size)) hcast

/-- A removal that succeeds leaves neither row nor mark. -/
theorem orphan_iff (h : l.Regular) (S : Signature) (slot : Slot) :
    ((l.orphan S slot).1 = true ↔ l.lifecycle S = .provisional ∧ l.marks[S]? = some slot) ∧
      ((l.orphan S slot).1 = true → (l.orphan S slot).2.lifecycle S = .unseen) := by
  rw [lifecycle_eq_provisional]
  by_cases hmark : l.marks[S]? = some slot
  · have hmem : S ∈ l.marks := by
      rw [Std.ExtTreeMap.mem_iff_isSome_getElem?, hmark]
      rfl
    have hremoved : (l.orphan S slot).1 = true := by
      unfold orphan
      rw [if_pos hmark]
      exact decide_eq_true (h.marked S hmem)
    refine ⟨iff_of_true hremoved ⟨hmem, hmark⟩, fun _ => ?_⟩
    rw [l.orphan_of_eq hmark, lifecycle_eq_unseen]
    simp
  · rw [l.orphan_of_ne hmark]
    simp [hmark]

theorem Regular.accountable (h : l.Regular) : l.Accountable where
  marked := h.marked
  row S row hrow := (h.row S row hrow).1
  entry S q hq := (h.entry S q hq).1
  checkpoint id c hc := (h.checkpoint id c hc).1
  counted now := ⟨l.rows.size, rfl, size_rows h⟩
  listed now boundary := by
    refine ⟨l.provisionalAfter boundary, rfl, l.pairwise_provisionalAfter boundary,
      fun mark => ?_⟩
    rw [l.mem_provisionalAfter, lifecycle_eq_provisional, Std.ExtTreeMap.mem_iff_isSome_getElem?]
    constructor
    · intro hmark
      exact ⟨by rw [hmark.1]; rfl, hmark⟩
    · exact And.right
  orphaned now S slot := ⟨(l.orphan S slot).1, rfl, orphan_iff h S slot⟩
  finalized now boundary :=
    ⟨(l.finalizeThrough boundary).1, rfl, dropped_finalizeThrough h boundary⟩

end Ledger

/-- After any calls a store gives true account of its signatures. -/
theorem accountable_after (calls : List TimedCall) : (Ledger.empty.after calls).Accountable :=
  (Ledger.Regular.after Ledger.holds_empty calls).accountable

end RouterHistory
