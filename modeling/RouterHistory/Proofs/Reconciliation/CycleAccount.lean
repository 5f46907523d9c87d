import RouterHistory.Proofs.Pipeline.BatchAccount
import RouterHistory.Proofs.Reconciliation.Recovery
import RouterHistory.Proofs.Reconciliation.ResolutionOrder
import RouterHistory.Proofs.Store.TableSizes

/-!
The account of a cycle. Each mark that is not dropped is resolved once and counted once, what the
cycle removes and what it records is all that the tables lose and gain, and the report has the
numbers.
-/
namespace RouterHistory

def CycleReport.settled (report : CycleReport) : Nat :=
  report.unchanged + report.overwritten + report.orphaned + report.unresolved

/-- The report of a cycle from `l` to `l'` that recorded as many rows accounts for the tables. The
rows are counted in a word, which is wide enough for any list that fits into a machine. -/
structure CycleReport.Accounts (report : CycleReport) (l l' : Ledger) (recorded : Nat) :
    Prop where
  recovered : report.recovered = recorded % UInt64.size
  covered : report.finalized + report.checked = l.marks.size
  counted : report.checked =
    report.unchanged + report.overwritten + report.orphaned + report.unresolved
  rows : l'.rows.size + report.orphaned = l.rows.size + recorded
  marks : l'.marks.size + report.orphaned = report.checked + recorded
  quarantine : l'.quarantine.size = l.quarantine.size + report.quarantined

namespace Reconciler

open Shared

variable {r : Reconciler} {l l' l'' : Ledger} {report report' report'' : CycleReport}

structure Booked (l : Ledger) (report : CycleReport) (l' : Ledger) (report' : CycleReport)
    (findings : Nat) : Prop where
  settled : report'.settled = report.settled + findings
  rows : l'.rows.size + report'.orphaned = l.rows.size + report.orphaned
  marks : l'.marks.size + report'.orphaned = l.marks.size + report.orphaned
  finalized : report'.finalized = report.finalized
  checked : report'.checked = report.checked
  recovered : report'.recovered = report.recovered
  quarantined : report'.quarantined = report.quarantined

theorem Booked.trans {m n : Nat} (h : Booked l report l' report' m)
    (h' : Booked l' report' l'' report'' n) : Booked l report l'' report'' (m + n) where
  settled := by rw [h'.settled, h.settled, Nat.add_assoc]
  rows := h'.rows.trans h.rows
  marks := h'.marks.trans h.marks
  finalized := h'.finalized.trans h.finalized
  checked := h'.checked.trans h.checked
  recovered := h'.recovered.trans h.recovered
  quarantined := h'.quarantined.trans h.quarantined

/-- A finding for a marked row removes the row and its mark and is counted as orphaned, or the row
and the mark stay and it is counted as something else. -/
theorem Finding.booked {f : Finding} {mark : Mark} (hf : f.Of mark.signature)
    (hmark : l.marks[mark.signature]? = some mark.slot) (hrow : mark.signature ∈ l.rows)
    (report : CycleReport) :
    Booked l report (f.settle l mark) (f.count l mark report) 1 := by
  have hmem : mark.signature ∈ l.marks :=
    Std.ExtTreeMap.mem_iff_isSome_getElem?.2 (by rw [hmark]; rfl)
  cases f with
  | unknown => exact ⟨rfl, rfl, rfl, rfl, rfl, rfl, rfl⟩
  | gone =>
    obtain ⟨hremoved, hrows, hmarks⟩ := l.size_orphan hmark hrow
    simp only [Finding.settle, Finding.count, hremoved, if_true]
    refine ⟨?_, ?_, ?_, rfl, rfl, rfl, rfl⟩ <;> simp only [CycleReport.settled] <;> omega
  | found row slot =>
    simp only [Finding.settle, Finding.count]
    by_cases hsame : l.rows[mark.signature]? = some row
    · rw [if_pos hsame, if_pos hsame]
      refine ⟨?_, ?_, ?_, rfl, rfl, rfl, rfl⟩
      · simp only [CycleReport.settled]
        omega
      · split
        · rfl
        · rw [l.rows_moveMark]
      · split
        · rfl
        · rw [l.size_marks_moveMark]
    · rw [if_neg hsame, if_neg hsame]
      have hsignature : (Entry.mk row slot).signature = mark.signature := hf
      have hchanged : l.rows[(Entry.mk row slot).signature]? ≠ some row := hsignature ▸ hsame
      refine ⟨?_, ?_, ?_, rfl, rfl, rfl, rfl⟩
      · simp only [CycleReport.settled]
        omega
      · rw [l.size_rows_upsert, if_pos (hsignature ▸ hrow)]
      · rw [l.size_marks_upsert hchanged, if_pos (hsignature ▸ hmem)]

theorem Finding.rows_settle_of_ne {f : Finding} {mark : Mark} {S : Signature}
    (hf : f.Of mark.signature) (hne : mark.signature ≠ S) (hrow : S ∈ l.rows) :
    S ∈ (f.settle l mark).rows := by
  have hkept := congrArg Prod.fst (Finding.standing_settle_of_ne hf hne (l := l))
  rw [Std.ExtTreeMap.mem_iff_isSome_getElem?] at hrow ⊢
  exact (congrArg Option.isSome hkept).trans hrow

theorem booked_settleAll {resolved : List Resolved}
    (hof : ∀ x ∈ resolved, (r.finding x.verdict).Of x.mark.signature)
    (hnodup : (resolved.map fun x => x.mark.signature).Nodup)
    (hmarks : ∀ x ∈ resolved, l.marks[x.mark.signature]? = some x.mark.slot)
    (hrows : ∀ x ∈ resolved, x.mark.signature ∈ l.rows) (report : CycleReport) :
    Booked l report (r.settleAll l resolved) (r.countAll l report resolved) resolved.length := by
  induction resolved generalizing l report with
  | nil => exact ⟨rfl, rfl, rfl, rfl, rfl, rfl, rfl⟩
  | cons first rest ih =>
    rw [List.map_cons, List.nodup_cons] at hnodup
    have hoff := hof first (List.mem_cons_self ..)
    have hapart : ∀ x ∈ rest, first.mark.signature ≠ x.mark.signature := fun x hx hsame =>
      hnodup.1 (hsame ▸ List.mem_map_of_mem hx)
    have hfirst := Finding.booked hoff (hmarks first (List.mem_cons_self ..))
      (hrows first (List.mem_cons_self ..)) report
    have hrest := ih (l := (r.finding first.verdict).settle l first.mark)
      (fun x hx => hof x (List.mem_cons_of_mem first hx)) hnodup.2
      (fun x hx => (congrArg Prod.snd (Finding.standing_settle_of_ne hoff (hapart x hx))).trans
        (hmarks x (List.mem_cons_of_mem first hx)))
      (fun x hx => Finding.rows_settle_of_ne hoff (hapart x hx)
        (hrows x (List.mem_cons_of_mem first hx)))
      ((r.finding first.verdict).count l first.mark report)
    rw [List.length_cons, Nat.add_comm]
    exact hfirst.trans hrest

variable {host : Host}

/-- What is found is in none of the tables. -/
theorem fresh_of_mem_foundAt
    (named : ∀ (S : Signature) (q : Quarantined), l.quarantine[S]? = some q → q.signature = S)
    {tx : Transaction} (htx : tx ∈ r.foundAt host l) :
    tx.signature ∉ l.rows ∧ tx.signature ∉ l.marks ∧ tx.signature ∉ l.quarantine := by
  obtain ⟨-, -, hunknown, hunseen⟩ := mem_missing.1 htx
  obtain ⟨hmark, hrow⟩ := l.lifecycle_eq_unseen.1 hunseen
  refine ⟨hrow, hmark, fun hmem => hunknown ?_⟩
  obtain ⟨q, hq⟩ := Option.isSome_iff_exists.1 (Std.ExtTreeMap.mem_iff_isSome_getElem?.1 hmem)
  exact List.mem_map.2 ⟨q, l.mem_quarantined.2 ⟨_, hq⟩, named _ q hq⟩

section Recorded

variable {found : List Transaction} {times : Nat → Int}
variable (hfresh : ∀ tx ∈ found,
  tx.signature ∉ l.rows ∧ tx.signature ∉ l.marks ∧ tx.signature ∉ l.quarantine)

include hfresh

theorem fresh_entries : ∀ e ∈ (Sorted.ofTransactions r.classifier found).entries,
    e.signature ∉ l.rows ∧ e.signature ∉ l.marks := by
  intro e he
  obtain ⟨tx, htx, row, hrow, rfl⟩ := Sorted.mem_entries.1 he
  have hsame : (Entry.mk row tx.slot).signature = tx.signature :=
    Classifier.signature_of_classify hrow
  rw [hsame]
  exact ⟨(hfresh tx htx).1, (hfresh tx htx).2.1⟩

variable (hnodup : (found.map Transaction.signature).Nodup)

include hnodup

/-- Each transaction that is new and can be classified is counted as a row. -/
theorem recovered_countRecorded : (r.countRecorded l report found).recovered =
    report.recovered + (Sorted.ofTransactions r.classifier found).entries.length %
      UInt64.size := by
  have hinserted : (Sorted.ofTransactions r.classifier found).entries.countP
      (l.outcome · = .inserted) = (Sorted.ofTransactions r.classifier found).entries.length := by
    refine List.countP_eq_length.2 fun e he => decide_eq_true ?_
    exact Ledger.outcome_eq_inserted.2 (fresh_entries hfresh e he).1
  have htally : (l.upsertAll (Sorted.ofTransactions r.classifier found).entries).1.inserted =
      0 + UInt64.ofNat _ :=
    congrArg Tally.inserted (l.tally_upsertFrom (Sorted.nodup_entries hnodup) .zero)
  rw [hinserted, UInt64.zero_add] at htally
  unfold countRecorded
  simp only [htally, UInt64.toNat_ofNat']

theorem size_rows_recorded : (r.recorded l times found).rows.size =
    l.rows.size + (Sorted.ofTransactions r.classifier found).entries.length := by
  refine (l.size_rows_written (Sorted.nodup_entries hnodup)).trans (congrArg _ ?_)
  exact List.countP_eq_length.2 fun e he => decide_eq_true (fresh_entries hfresh e he).1

theorem size_marks_recorded : (r.recorded l times found).marks.size =
    l.marks.size + (Sorted.ofTransactions r.classifier found).entries.length :=
  l.size_marks_written (Sorted.nodup_entries hnodup) (fresh_entries hfresh)

theorem size_quarantine_recorded : (r.recorded l times found).quarantine.size =
    l.quarantine.size + (Sorted.ofTransactions r.classifier found).rejected.length := by
  have hnew : ∀ q ∈ (Sorted.ofTransactions r.classifier found).quarantined times,
      q.signature ∉
        (l.written (Sorted.ofTransactions r.classifier found).entries).quarantine := by
    intro q hq
    obtain ⟨tx, htx, rejection, -, now, rfl⟩ := Sorted.mem_quarantined hq
    rw [Ledger.quarantine_written]
    exact (hfresh tx htx).2.2
  have hsize := Ledger.size_quarantineAll _
    (hnodup.sublist (Sorted.signatures_quarantined times)) hnew
  rw [Ledger.quarantine_written] at hsize
  exact hsize.trans (congrArg _ (Sorted.length_quarantined _ times))

end Recorded

variable {w : Replies} {turns : Turns}

theorem length_repliedAt :
    (r.repliedAt w l turns).length = (r.finalized w.host l).marks.size := by
  rw [(perm_repliedAt turns).length_eq, List.length_map]
  exact l.length_provisionalAfter_finalizeThrough _

/-- Every mark that is kept is resolved, applied and counted. -/
theorem booked_settledBy (marked : ∀ S : Signature, S ∈ l.marks → S ∈ l.rows)
    (canonical : ∀ S tx, w.source (.resolve S) = .ok (.canonical tx) → tx.signature = S) :
    Booked (r.finalized w.host l) (r.surveyBy w l turns).report (r.settledBy w l turns)
      (r.countAll (r.finalized w.host l) (r.surveyBy w l turns).report (r.repliedAt w l turns))
      (r.finalized w.host l).marks.size := by
  have hmarks : ∀ x ∈ r.repliedAt w l turns,
      (r.finalized w.host l).marks[x.mark.signature]? = some x.mark.slot := by
    intro x hx
    obtain ⟨mark, hpending, rfl⟩ := mem_repliedAt.1 hx
    exact ((Ledger.mem_provisionalAfter _).1 hpending).1
  have hrows : ∀ x ∈ r.repliedAt w l turns, x.mark.signature ∈ (r.finalized w.host l).rows := by
    intro x hx
    obtain ⟨mark, hpending, rfl⟩ := mem_repliedAt.1 hx
    have hmark : l.marks[mark.signature]? = some mark.slot := (mem_pendingAt.1 hpending).1
    exact marked _ (Std.ExtTreeMap.mem_iff_isSome_getElem?.2 (hmark ▸ rfl))
  rw [← length_repliedAt]
  exact booked_settleAll (of_repliedAt fun mark _ => canonical mark.signature) nodup_repliedAt
    hmarks hrows _

def recordedBy (r : Reconciler) (w : Replies) (l : Ledger) (turns : Turns) : List Entry :=
  (Sorted.ofTransactions r.classifier (r.foundAt w.host (r.settledBy w l turns))).entries

theorem length_recordedBy_le :
    (r.recordedBy w l turns).length ≤ (r.refetched w.host l).length := by
  have hsorted : ((r.recordedBy w l turns).map Entry.signature).length ≤
      ((r.foundAt w.host (r.settledBy w l turns)).map Transaction.signature).length :=
    Sorted.signatures_entries.length_le
  rw [List.length_map, List.length_map] at hsorted
  have hfiltered : (r.foundAt w.host (r.settledBy w l turns)).length ≤
      (r.refetched w.host (r.settledBy w l turns)).length := List.length_filter_le _ _
  exact Nat.le_trans hsorted (r.refetched_settledBy w l turns ▸ hfiltered)

theorem accounts_reportBy (marked : ∀ S : Signature, S ∈ l.marks → S ∈ l.rows)
    (named : ∀ (S : Signature) (q : Quarantined), l.quarantine[S]? = some q → q.signature = S)
    (canonical : ∀ S tx, w.source (.resolve S) = .ok (.canonical tx) → tx.signature = S) :
    (r.reportBy w l turns).Accounts l (r.cycledBy w l turns) (r.recordedBy w l turns).length := by
  have hquarantine := r.quarantine_settledBy w l turns
  have hfresh : ∀ tx ∈ r.foundAt w.host (r.settledBy w l turns), _ :=
    fun tx htx => fresh_of_mem_foundAt (hquarantine ▸ named) htx
  have booked : Booked _ _ (r.settledBy w l turns) _ _ := booked_settledBy marked canonical
  generalize hcounted : r.countAll (r.finalized w.host l) (r.surveyBy w l turns).report
    (r.repliedAt w l turns) = counted at booked
  have hreport : r.reportBy w l turns =
      r.countRecorded (r.settledBy w l turns) counted
        (r.foundAt w.host (r.settledBy w l turns)) :=
    hcounted ▸ rfl
  have hchecked : counted.checked = (r.finalized w.host l).marks.size :=
    booked.checked.trans length_repliedAt
  have hsettled : counted.settled = 0 + _ := booked.settled
  have hrows : (r.settledBy w l turns).rows.size + counted.orphaned = l.rows.size + 0 :=
    booked.rows
  have hmarks : _ = _ + 0 := booked.marks
  rw [hreport]
  constructor
  case recovered =>
    rw [recovered_countRecorded hfresh nodup_foundAt, booked.recovered]
    exact Nat.zero_add _
  case covered =>
    change counted.finalized + counted.checked = _
    rw [hchecked, booked.finalized]
    exact l.finalized_add_kept _
  case counted =>
    change counted.checked = counted.settled
    omega
  case rows =>
    have hrecorded : (r.recorded _ (fun _ => w.now) _).rows.size = _ :=
      size_rows_recorded hfresh nodup_foundAt
    change (r.recorded _ _ _).rows.size + counted.orphaned = _ + (Sorted.entries _).length
    omega
  case marks =>
    have hrecorded : (r.recorded _ (fun _ => w.now) _).marks.size = _ :=
      size_marks_recorded hfresh nodup_foundAt
    change (r.recorded _ _ _).marks.size + counted.orphaned =
      counted.checked + (Sorted.entries _).length
    omega
  case quarantine =>
    change (r.recorded _ _ _).quarantine.size = _ + (counted.quarantined + _)
    rw [size_quarantine_recorded hfresh nodup_foundAt, hquarantine, booked.quarantined]
    exact congrArg _ (Nat.zero_add _).symm

end Reconciler

namespace Reconciliation

open Shared Reconciler

/-- However its resolutions fare, a cycle that runs alone and ends well accounts for every mark,
and for every row and entry by which the tables change. -/
theorem report_accounts_for_tables (r : Reconciler) (w : Replies) (l : Ledger) (turns : Turns)
    (marked : ∀ S : Signature, S ∈ l.marks → S ∈ l.rows)
    (named : ∀ (S : Signature) (q : Quarantined), l.quarantine[S]? = some q → q.signature = S)
    (canonical : ∀ S tx, w.source (.resolve S) = .ok (.canonical tx) → tx.signature = S)
    {report : CycleReport} {l' : Ledger}
    (ends : w.around.run l (r.cycleIn turns) = (.ok report, l')) :
    ∃ recorded ≤ (r.refetched w.host l).length, report.Accounts l l' recorded := by
  cases hhead : w.source .head with
  | error f =>
    rw [r.headless_cycleIn w l turns hhead] at ends
    cases ends
  | ok head =>
    rw [r.replied_cycleIn w l turns hhead] at ends
    obtain ⟨hreport, rfl⟩ := Prod.mk.inj ends
    obtain rfl := Except.ok.inj hreport
    exact ⟨_, length_recordedBy_le, accounts_reportBy marked named canonical⟩

/-- The same source after two more transactions were included in slot ten, one of which is turned
down. -/
def filling : Replies where
  source
    | .slots _ _ _ => .ok [⟨10, some "b10", none, some 1700000000,
        [reincluded ⟨"late"⟩, reincluded ⟨String.ofList (List.replicate 63 '1' ++ ['2'])⟩]⟩]
    | call => stuttering.source call
  now := 0

/-- One mark of each kind, a row that was missing and a transaction that is turned down. -/
theorem filling_cycle_accounts :
    ∃ report l' recorded,
      filling.around.run assorted
        (Reconciler.cycleIn ⟨⟨["router"], 0, [1]⟩, 5, some ("p", 0)⟩ .inOrder) =
        (.ok report, l') ∧
      report = ⟨10, 5, 1, 3, 0, 1, 1, 1, 1, 1⟩ ∧ report.Accounts assorted l' recorded := by
  let r : Reconciler := ⟨⟨["router"], 0, [1]⟩, 5, some ("p", 0)⟩
  have attained : assorted.Attained := Ledger.Attained.empty.afterCalls 0 _
  have canonical : ∀ S tx, filling.source (.resolve S) = .ok (.canonical tx) →
      tx.signature = S := by
    intro S tx htx
    simp only [filling, stuttering] at htx
    split at htx
    · cases htx
    · split at htx
      · cases htx
      · cases htx
        rfl
  have hhead : filling.source .head = .ok (10 : Slot) := rfl
  have ends := r.replied_cycleIn filling assorted .inOrder hhead
  obtain ⟨recorded, -, accounts⟩ := report_accounts_for_tables r filling assorted .inOrder
    attained.regular.marked (fun S q hq => (attained.regular.entry S q hq).1) canonical ends
  have hpending : r.pendingAt filling.host assorted =
      [⟨soundSignature, 9⟩, ⟨⟨"gone"⟩, 9⟩, ⟨⟨"unsound"⟩, 9⟩] :=
    (congrArg (List.mergeSort · Mark.le) (by decide +kernel)).trans
      (List.mergeSort_of_pairwise (by decide +kernel))
  have hreport : r.reportBy filling assorted .inOrder = ⟨10, 5, 1, 3, 0, 1, 1, 1, 1, 1⟩ := by
    unfold reportBy settledBy surveyBy repliedAt
    rw [hpending]
    decide +kernel
  exact ⟨_, _, recorded, ends, hreport, accounts⟩

end Reconciliation

end RouterHistory
