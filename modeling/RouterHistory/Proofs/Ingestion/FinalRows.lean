import RouterHistory.Proofs.Ingestion.ExactlyOnce
import RouterHistory.Proofs.Pipeline.StepEnds
import RouterHistory.Proofs.Reconciliation.Outcome

/-!
Final rows under ingestion. That a row is final is not stored: it is a row without a mark. A
commit writes each of its rows whatever is stored, and a row that differs gets a mark again. So a
final row outlasts a batch step exactly if no transaction that the step stores gives another row
to its signature; removing a row or moving a mark spares final rows, storing a batch does not.
-/
namespace RouterHistory.Ingestion

open Shared Pipeline

/-- The transactions that a step stored: those of the slots of its batch, as they were delivered,
or none. -/
inductive Stores (s : Settings) (past : List Call) :
    Except Failure StepOutcome → List Transaction → Prop
  | committed {first last : Slot} {raw : List Delivery} {tally : Tally}
      (fetched : Fetched s past first last raw) :
      Stores s past (.ok (.committed first last tally)) (s.transactionsOf first last raw)
  | nothing {result : Except Failure StepOutcome}
      (uncommitted : ∀ first last tally, result ≠ .ok (.committed first last tally)) :
      Stores s past result []

/-- The row of a final signature after a step, by the transactions that the step stored. -/
structure Outlasts (c : Classifier) (txs : List Transaction) (S : Signature) (row : Record)
    (l' : Ledger) : Prop where
  kept_iff : (l'.lifecycle S = .final ∧ l'.rows[S]? = some row) ↔
    ∀ tx ∈ txs, tx.signature = S → ∀ row', c.classify tx = .ok row' → row' = row
  rewritten : ∀ tx ∈ txs, tx.signature = S → ∀ row', c.classify tx = .ok row' → row' ≠ row →
    l'.standing S = (some row', some tx.slot)

variable {s : Settings} {l l' : Ledger} {S : Signature} {row : Record}

theorem final_iff_standing :
    l.lifecycle S = .final ∧ l.rows[S]? = some row ↔ l.standing S = (some row, none) := by
  rw [Reconciliation.lifecycle_eq_final_iff]
  constructor
  · intro h
    obtain ⟨⟨row', hstanding⟩, hrow⟩ := h
    obtain ⟨hrow', -⟩ := Prod.mk.inj hstanding
    rw [hstanding, ← hrow', hrow]
  · intro hstanding
    exact ⟨⟨row, hstanding⟩, (Prod.mk.inj hstanding).1⟩

/-- An entry with another row makes a final signature provisional again; one with the same row
leaves it alone. -/
theorem standing_written_of_final (final : l.standing S = (some row, none)) {entries : List Entry}
    (hnodup : (entries.map Entry.signature).Nodup) {e : Entry} (he : e ∈ entries)
    (hS : e.signature = S) : (l.written entries).standing S =
      if e.record = row then (some row, none) else (some e.record, some e.slot) := by
  subst hS
  obtain ⟨hrow, hmark⟩ := Prod.mk.inj final
  unfold Ledger.standing
  rw [l.rows_written_of_mem hnodup he, l.marks_written_of_mem hnodup he, hrow, hmark]
  by_cases hsame : e.record = row
  · simp [hsame]
  · simp [hsame, Ne.symm hsame]

/-- Storing the transactions of a batch, each signature once. -/
theorem outlasts_written {c : Classifier} {txs : List Transaction}
    (hnodup : (txs.map Transaction.signature).Nodup) (final : l.standing S = (some row, none))
    (hl' : l'.standing S = (l.written (Sorted.ofTransactions c txs).entries).standing S) :
    Outlasts c txs S row l' := by
  have hentries : ((Sorted.ofTransactions c txs).entries.map Entry.signature).Nodup :=
    Sorted.nodup_entries hnodup
  have hwritten : ∀ tx ∈ txs, tx.signature = S → ∀ row', c.classify tx = .ok row' →
      l'.standing S = if row' = row then (some row, none) else (some row', some tx.slot) := by
    intro tx htx hS row' hrow'
    have he : Entry.mk row' tx.slot ∈ (Sorted.ofTransactions c txs).entries :=
      Sorted.mem_entries.2 ⟨tx, htx, row', hrow', rfl⟩
    rw [hl']
    exact standing_written_of_final final hentries he
      ((Classifier.signature_of_classify hrow').trans hS)
  refine ⟨?_, fun tx htx hS row' hrow' hne => by rw [hwritten tx htx hS row' hrow', if_neg hne]⟩
  rw [final_iff_standing]
  constructor
  · intro hkept tx htx hS row' hrow'
    by_contra hne
    rw [hwritten tx htx hS row' hrow', if_neg hne] at hkept
    cases hkept
  · intro hagrees
    by_cases hstored : ∃ tx ∈ txs, tx.signature = S ∧ ∃ row', c.classify tx = .ok row'
    · obtain ⟨tx, htx, hS, row', hrow'⟩ := hstored
      rw [hwritten tx htx hS row' hrow', if_pos (hagrees tx htx hS row' hrow')]
    · rw [hl', Ledger.standing_written_of_forall_ne, final]
      intro e he hS
      obtain ⟨tx, htx, row', hrow', rfl⟩ := Sorted.mem_entries.1 he
      have hsame : row'.signature = tx.signature := Classifier.signature_of_classify hrow'
      exact hstored ⟨tx, htx, hsame.symm.trans hS, row', hrow'⟩

theorem outlasts_of_ended {past : List Call} {result : Except Failure StepOutcome}
    (ended : Ended s l past l' result) (final : l.standing S = (some row, none)) :
    ∃ txs, Stores s past result txs ∧ Outlasts s.classifier txs S row l' := by
  cases ended with
  | @committed first last raw stamp now opened next tally opens fetched moves stored counted =>
    refine ⟨_, .committed fetched, outlasts_written Settings.nodup_transactionsOf
      ((opens.standing S).trans final) ?_⟩
    rw [stored]
    exact Ledger.standing_commit moves S
  | otherwise uncommitted opens =>
    refine ⟨[], .nothing uncommitted, ?_, nofun⟩
    rw [final_iff_standing, opens.standing S]
    exact iff_of_true final nofun

/-- However the source answers and whatever fails, a batch step that runs alone keeps a final row
if and only if every transaction of that signature that it stores has the same row; a transaction
with another row puts its own in place and makes it provisional. -/
theorem final_kept_iff_agrees {site : Site} (lossless : ¬ site.lossy) {p : Pipeline}
    (hp : p.Fits s)
    (final : l.lifecycle S = .final) (stored : l.rows[S]? = some row) :
    p.step.Ends site (fun past l' x =>
      ∃ txs, Stores s past x.1 txs ∧ Outlasts s.classifier txs S row l') [] l :=
  Program.ends_imp (step_ends lossless hp) fun _ _ _ ended =>
    outlasts_of_ended ended (final_iff_standing.1 ⟨final, stored⟩)

def lateCopy (slot : Slot) (time : Int) : Host where
  source
    | .head => (40 : Slot)
    | .slots _ _ _ => [⟨slot, some "b", none, some time,
        [⟨soundSignature, slot, none, none, [⟨"router", "2"⟩], []⟩]⟩]
    | .resolve _ => .absent
  now := 0

def finalAtOne : Ledger :=
  let host := lateCopy 1 1700000001
  (host.around.run (host.around.run .empty (Pipeline.ofSettings slotwise ⟨1, []⟩).step).2
    (Reconciler.ofSettings slotwise).cycle).2

/-- The next step of the pipeline: the source has the transaction in slot two, a second later. -/
def rewriting : (Except Failure StepOutcome × Pipeline) × Ledger :=
  (lateCopy 2 1700000002).around.run finalAtOne (Pipeline.ofSettings slotwise ⟨1, []⟩).step

def rowOfOne : Record := ⟨soundSignature, ⟨1700000001, 0, by decide, by decide⟩, true, 1⟩

def rowOfTwo : Record := ⟨soundSignature, ⟨1700000002, 0, by decide, by decide⟩, true, 1⟩

theorem final_finalAtOne : finalAtOne.lifecycle soundSignature = .final ∧
    finalAtOne.rows[soundSignature]? = some rowOfOne :=
  final_iff_standing.2 (by decide +kernel)

theorem standing_rewriting :
    rewriting.2.standing soundSignature = (some rowOfTwo, some 2) := by
  decide +kernel

/-- The row of slot one is rewritten by the one of slot two and is provisional again. -/
theorem final_row_rewritten :
    finalAtOne.Attained ∧ finalAtOne.lifecycle soundSignature = .final ∧
      finalAtOne.rows[soundSignature]? = some rowOfOne ∧
      rewriting.2.standing soundSignature = (some rowOfTwo, some 2) ∧
      rowOfTwo.timestamp ≠ rowOfOne.timestamp :=
  ⟨(Ledger.Attained.empty.run _ _).run _ _, final_finalAtOne.1, final_finalAtOne.2,
    standing_rewriting, by decide⟩

theorem rewriting_copy_disagrees : ∃ past result txs tx row, Stores slotwise past result txs ∧
    tx ∈ txs ∧ tx.signature = soundSignature ∧
    finalAtOne.rows[soundSignature]? = some rowOfOne ∧
    slotwise.classifier.classify tx = .ok row ∧ row ≠ rowOfOne := by
  have hfits : (Pipeline.ofSettings slotwise ⟨1, []⟩).Fits slotwise := ⟨rfl, rfl, rfl⟩
  have hends := final_kept_iff_agrees (lateCopy 2 1700000002).lossless_fallible hfits
    final_finalAtOne.1 final_finalAtOne.2
  obtain ⟨past, txs, hstores, houtlasts⟩ := hends.run (lateCopy 2 1700000002).suits_fallible
  have hdiffers := mt houtlasts.kept_iff.2 fun hkept => by
    have hstanding := (final_iff_standing.1 hkept).symm.trans standing_rewriting
    cases hstanding
  push Not at hdiffers
  obtain ⟨tx, htx, hS, row, hrow, hne⟩ := hdiffers
  exact ⟨past, _, txs, tx, row, hstores, htx, hS, final_finalAtOne.2, hrow, hne⟩

end RouterHistory.Ingestion
