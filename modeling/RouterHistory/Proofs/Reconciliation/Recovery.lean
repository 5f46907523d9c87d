import RouterHistory.Proofs.Reconciliation.Outcome
import RouterHistory.Proofs.Shared.CycleConduct

/-!
What a cycle that runs alone adds to the history. It fetches the slots above the boundary and the
genesis slot again, up to the checkpoint, and records the router transactions that have neither a
row nor a quarantine entry by then. A quarantine entry is never looked at again, so a transaction
that was turned down before stays out of the history even if it can be classified now.
-/
namespace RouterHistory.Reconciler

open Shared

def resolving (r : Reconciler) : Reconciler := { r with rescan := none }

/-- The router transactions above a slot, up to the checkpoint of a pipeline. -/
def openTransactions (r : Reconciler) (host : Host) (l : Ledger) (id : String) (floor : Slot) :
    List Transaction :=
  match l.checkpoints[id]? with
  | none => []
  | some c =>
      if floor < c.slot then
        (Gapless.transactions (floor + 1) c.slot
          (host.source (.slots (floor + 1) c.slot r.classifier.programIds))).filter
            r.classifier.isRouterTransaction
      else []

variable {r : Reconciler} {host : Host} {l : Ledger} {turns : Turns} {S : Signature}

theorem settleAll_resolving (resolved : List Resolved) :
    r.resolving.settleAll l resolved = r.settleAll l resolved := by
  induction resolved generalizing l with
  | nil => rfl
  | cons x rest ih => exact ih

theorem cycledAt_resolving : r.resolving.cycledAt host l turns = r.settledAt host l turns :=
  settleAll_resolving _

theorem run_resolving : host.around.run l (r.resolving.cycleIn turns) =
    (.ok (r.resolving.reportAt host l turns), r.settledAt host l turns) := by
  rw [run_cycleIn, cycledAt_resolving]

theorem lt_rescanStart_iff {boundary genesis last : Slot}
    (h : max boundary genesis ≠ Slot.top) :
    last < rescanStart boundary genesis ↔ ¬ max boundary genesis < last := by
  rw [UInt64.lt_iff_toNat_lt, UInt64.lt_iff_toNat_lt, toNat_rescanStart h]
  omega

theorem filter_refetched {id : String} {genesis : Slot} (hrescan : r.rescan = some (id, genesis))
    (hboundary : r.boundaryAt host < Slot.top) (hgenesis : genesis < Slot.top) :
    (r.refetched host l).filter r.classifier.isRouterTransaction =
      r.openTransactions host l id (max (r.boundaryAt host) genesis) := by
  unfold refetched openTransactions
  rw [hrescan]
  simp only
  cases l.checkpoints[id]? with
  | none => rfl
  | some c =>
    have hstart : c.slot < rescanStart (r.boundaryAt host) genesis ↔ _ :=
      lt_rescanStart_iff (max_ne_top hboundary hgenesis)
    simp only
    by_cases hopen : max (r.boundaryAt host) genesis < c.slot
    · rw [if_pos hopen, if_neg fun h => hstart.1 h hopen]
      rfl
    · rw [if_neg hopen, if_pos (hstart.2 hopen)]
      rfl

theorem mem_known (h : l.Regular) : S ∈ known l ↔ S ∈ l.quarantine := by
  unfold known
  rw [List.mem_map, Std.ExtTreeMap.mem_iff_isSome_getElem?]
  constructor
  · intro hmem
    obtain ⟨q, hq, rfl⟩ := hmem
    obtain ⟨T, hT⟩ := l.mem_quarantined.1 hq
    rw [(h.entry T q hT).1, hT]
    rfl
  · intro hmem
    obtain ⟨q, hq⟩ := Option.isSome_iff_exists.1 hmem
    exact ⟨q, l.mem_quarantined.2 ⟨S, hq⟩, (h.entry S q hq).1⟩

theorem lifecycle_eq_unseen_iff (h : l.Regular) : l.lifecycle S = .unseen ↔ S ∉ l.rows := by
  rw [Ledger.lifecycle_eq_unseen]
  exact ⟨And.right, fun hrow => ⟨fun hmark => hrow (h.marked S hmark), hrow⟩⟩

theorem mem_foundAt (h : l.Regular) {tx : Transaction} :
    tx ∈ r.foundAt host l ↔ tx ∈ (r.refetched host l).filter r.classifier.isRouterTransaction ∧
      tx.signature ∉ l.rows ∧ tx.signature ∉ l.quarantine := by
  unfold foundAt
  rw [mem_missing, mem_known h, lifecycle_eq_unseen_iff h, List.mem_filter]
  tauto

theorem nodup_refetched : ((r.refetched host l).map Transaction.signature).Nodup := by
  unfold refetched
  split
  · exact List.nodup_nil
  · simp only
    split
    · exact List.nodup_nil
    · split
      · exact List.nodup_nil
      · exact Gapless.nodup_transactions _ _ _

theorem nodup_foundAt : ((r.foundAt host l).map Transaction.signature).Nodup :=
  nodup_refetched.sublist (List.filter_sublist.map _)

theorem quarantine_recorded_of_forall_ne {times : Nat → Int} {found : List Transaction}
    (hne : ∀ tx ∈ found, ∀ rejection, r.classifier.classify tx = .error rejection →
      tx.signature ≠ S) :
    (r.recorded l times found).quarantine[S]? = l.quarantine[S]? := by
  have hwritten : (r.recorded l times found).quarantine[S]? =
      (l.written (Sorted.ofTransactions r.classifier found).entries).quarantine[S]? := by
    refine Ledger.getElem?_quarantineAll_of_forall_ne _ fun q hq => ?_
    obtain ⟨tx, htx, rejection, hrejection, now, rfl⟩ := Sorted.mem_quarantined hq
    exact hne tx htx rejection hrejection
  rw [hwritten, Ledger.quarantine_written]

theorem mem_rows_recorded {times : Nat → Int} {found : List Transaction} (h : S ∈ l.rows) :
    S ∈ (r.recorded l times found).rows :=
  l.mem_rows_written h

theorem mem_quarantine_recorded {times : Nat → Int} {found : List Transaction}
    (h : S ∈ l.quarantine) :
    S ∈ (r.recorded l times found).quarantine := by
  refine (Ledger.mem_quarantineAll _ _ _).2 (.inl ?_)
  rwa [Ledger.quarantine_written]

section Recorded

variable {times : Nat → Int} {found : List Transaction}
  (hnodup : (found.map Transaction.signature).Nodup) {tx : Transaction} (htx : tx ∈ found)

include hnodup htx

theorem standing_recorded_of_mem {row : Record} (hrow : r.classifier.classify tx = .ok row)
    (hnew : tx.signature ∉ l.rows) :
    (r.recorded l times found).standing tx.signature = (some row, some tx.slot) := by
  have hsame : (Entry.mk row tx.slot).signature = tx.signature :=
    Classifier.signature_of_classify hrow
  have hentry : Entry.mk row tx.slot ∈ (Sorted.ofTransactions r.classifier found).entries :=
    Sorted.mem_entries.2 ⟨tx, htx, row, hrow, rfl⟩
  have hstanding := Ledger.standing_written_of_notMem_rows (Sorted.nodup_entries hnodup) hentry
    (l := l) (hsame ▸ hnew)
  rw [hsame] at hstanding
  exact hstanding

theorem quarantine_recorded_of_mem {rejection : Rejection}
    (hrejection : r.classifier.classify tx = .error rejection) :
    ∃ i, (r.recorded l times found).quarantine[tx.signature]? =
      some ⟨tx.signature, tx.slot, Sorted.rejection tx rejection, times i⟩ := by
  obtain ⟨i, hmem⟩ := Sorted.exists_mem_quarantined htx hrejection times
  exact ⟨i, Ledger.getElem?_quarantineAll_of_mem _
    (hnodup.sublist (Sorted.signatures_quarantined times)) hmem⟩

end Recorded

end RouterHistory.Reconciler

namespace RouterHistory.Reconciliation

open Shared Reconciler

/-- What becomes of the transactions of a window, by whether they are recorded before. -/
structure Recovers (c : Classifier) (now : Int) (window : List Transaction) (l l' : Ledger) :
    Prop where
  classified : ∀ tx ∈ window, tx.signature ∉ l.rows → tx.signature ∉ l.quarantine →
    ∀ row, c.classify tx = .ok row →
      l'.standing tx.signature = (some row, some tx.slot) ∧ tx.signature ∉ l'.quarantine
  rejected : ∀ tx ∈ window, tx.signature ∉ l.rows → tx.signature ∉ l.quarantine →
    ∀ rejection, c.classify tx = .error rejection →
      l'.standing tx.signature = (none, none) ∧ l'.quarantine[tx.signature]? =
        some ⟨tx.signature, tx.slot, Sorted.rejection tx rejection, now⟩
  others : ∀ S, (∀ tx ∈ window, tx.signature = S → S ∈ l.rows ∨ S ∈ l.quarantine) →
    l'.standing S = l.standing S ∧ l'.quarantine[S]? = l.quarantine[S]?
  complete : ∀ tx ∈ window, tx.signature ∈ l'.rows ∨ tx.signature ∈ l'.quarantine

variable {r : Reconciler} {host : Host} {l : Ledger} {turns : Turns}

/-- No two transactions that are found have one signature. -/
theorem eq_of_mem_foundAt {tx tx' : Transaction} (h : tx ∈ r.foundAt host l)
    (h' : tx' ∈ r.foundAt host l) (hsame : tx'.signature = tx.signature) : tx' = tx :=
  List.inj_on_of_nodup_map nodup_foundAt h' h hsame

section Found

variable (h : l.Regular) (times : Nat → Int) {tx : Transaction}

include h

theorem recorded_of_ok (htx : tx ∈ r.foundAt host l) {row : Record}
    (hrow : r.classifier.classify tx = .ok row) :
    (r.recorded l times (r.foundAt host l)).standing tx.signature = (some row, some tx.slot) ∧
      tx.signature ∉ (r.recorded l times (r.foundAt host l)).quarantine := by
  obtain ⟨-, hnew, hunknown⟩ := (mem_foundAt h).1 htx
  refine ⟨standing_recorded_of_mem nodup_foundAt htx hrow hnew, fun hmem => hunknown ?_⟩
  rw [Std.ExtTreeMap.mem_iff_isSome_getElem?] at hmem ⊢
  rwa [quarantine_recorded_of_forall_ne fun tx' htx' rejection hrejection hsame => ?_] at hmem
  rw [eq_of_mem_foundAt htx htx' hsame, hrow] at hrejection
  cases hrejection

theorem recorded_of_error (htx : tx ∈ r.foundAt host l) {rejection : Rejection}
    (hrejection : r.classifier.classify tx = .error rejection) :
    (r.recorded l times (r.foundAt host l)).standing tx.signature = (none, none) ∧
      ∃ i, (r.recorded l times (r.foundAt host l)).quarantine[tx.signature]? =
        some ⟨tx.signature, tx.slot, Sorted.rejection tx rejection, times i⟩ := by
  obtain ⟨-, hnew, -⟩ := (mem_foundAt h).1 htx
  refine ⟨?_, quarantine_recorded_of_mem nodup_foundAt htx hrejection⟩
  have hunmarked : tx.signature ∉ l.marks := fun hmark => hnew (h.marked _ hmark)
  have hstanding : l.standing tx.signature = (none, none) := by
    unfold Ledger.standing
    rw [Std.ExtTreeMap.getElem?_eq_none hnew, Std.ExtTreeMap.getElem?_eq_none hunmarked]
  rw [standing_recorded_of_forall_ne fun tx' htx' row hrow hsame => ?_, hstanding]
  rw [eq_of_mem_foundAt htx htx' hsame, hrejection] at hrow
  cases hrow

/-- What has a row or an entry stays as it was. -/
theorem recorded_of_closed {S : Signature}
    (closed : ∀ tx ∈ (r.refetched host l).filter r.classifier.isRouterTransaction,
      tx.signature = S → S ∈ l.rows ∨ S ∈ l.quarantine) :
    (r.recorded l times (r.foundAt host l)).standing S = l.standing S ∧
      (r.recorded l times (r.foundAt host l)).quarantine[S]? = l.quarantine[S]? := by
  have hother : ∀ tx ∈ r.foundAt host l, tx.signature ≠ S := by
    intro tx htx hsame
    obtain ⟨hwindow, hnew, hunknown⟩ := (mem_foundAt h).1 htx
    rw [hsame] at hnew hunknown
    exact (closed tx hwindow hsame).elim hnew hunknown
  exact ⟨standing_recorded_of_forall_ne fun tx htx _ _ => hother tx htx,
    quarantine_recorded_of_forall_ne fun tx htx _ _ => hother tx htx⟩

end Found

theorem recovers_recorded (h : l.Regular) (now : Int) :
    Recovers r.classifier now ((r.refetched host l).filter r.classifier.isRouterTransaction) l
      (r.recorded l (fun _ => now) (r.foundAt host l)) := by
  constructor
  case classified =>
    intro tx htx hnew hunknown row hrow
    exact recorded_of_ok h _ ((mem_foundAt h).2 ⟨htx, hnew, hunknown⟩) hrow
  case rejected =>
    intro tx htx hnew hunknown rejection hrejection
    obtain ⟨hstanding, -, hentry⟩ :=
      recorded_of_error h (fun _ => now) ((mem_foundAt h).2 ⟨htx, hnew, hunknown⟩) hrejection
    exact ⟨hstanding, hentry⟩
  case others => exact fun S hrecorded => recorded_of_closed h _ hrecorded
  case complete =>
    intro tx htx
    by_cases hrow : tx.signature ∈ l.rows
    · exact .inl (mem_rows_recorded hrow)
    by_cases hknown : tx.signature ∈ l.quarantine
    · exact .inr (mem_quarantine_recorded hknown)
    have hfound : tx ∈ r.foundAt host l := (mem_foundAt h).2 ⟨htx, hrow, hknown⟩
    rw [Std.ExtTreeMap.mem_iff_isSome_getElem?, Std.ExtTreeMap.mem_iff_isSome_getElem?]
    cases hclassify : r.classifier.classify tx with
    | ok row =>
      rw [(Prod.mk.inj (recorded_of_ok h _ hfound hclassify).1).1]
      exact .inl rfl
    | error rejection =>
      obtain ⟨-, i, hentry⟩ := recorded_of_error h (fun _ => now) hfound hclassify
      rw [hentry]
      exact .inr rfl

theorem recovers_cycledAt (attained : l.Attained) :
    Recovers r.classifier host.now
      ((r.refetched host l).filter r.classifier.isRouterTransaction)
      (r.settledAt host l turns) (r.cycledAt host l turns) := by
  have hresolved := attained.run host (r.resolving.cycleIn turns)
  rw [run_resolving] at hresolved
  rw [← r.refetched_settledAt host l turns]
  exact recovers_recorded hresolved.regular host.now

/-- A cycle that runs alone ends well, and after what it resolved is applied it records exactly
what is missing from the open slots of its pipeline. -/
theorem cycle_recovers_unrecorded (r : Reconciler) (host : Host) (turns : Turns) {l : Ledger}
    (attained : l.Attained) {id : String} {genesis : Slot}
    (rescans : r.rescan = some (id, genesis))
    (boundary_lt : r.boundaryAt host < Slot.top) (genesis_lt : genesis < Slot.top) :
    ∃ report resolved report' l',
      host.around.run l (r.resolving.cycleIn turns) = (.ok report, resolved) ∧
      host.around.run l (r.cycleIn turns) = (.ok report', l') ∧
      resolved.quarantine = l.quarantine ∧
      Recovers r.classifier host.now
        (r.openTransactions host l id (max (r.boundaryAt host) genesis)) resolved l' := by
  refine ⟨_, _, _, _, run_resolving, r.run_cycleIn host l turns, quarantine_settledAt .., ?_⟩
  rw [← filter_refetched rescans boundary_lt genesis_lt]
  exact recovers_cycledAt attained

def inSlotOne (time : Option Int) (S : Signature) : Transaction :=
  ⟨S, 1, time, none, [⟨"router", "2"⟩], []⟩

def slotOneWith (time : Option Int) (signatures : List Signature) : Host where
  source
    | .head => (1 : Slot)
    | .slots _ _ _ => [⟨1, some "b1", none, time, signatures.map (inSlotOne time)⟩]
    | .resolve S => .canonical (inSlotOne time S)
  now := 0

def oneRouter : Settings := { Settings.default with classifier := ⟨["router"], 0, [1]⟩ }

/-- A row and a quarantine entry at slot one, and the checkpoint behind them. -/
def partlyRecorded : Ledger :=
  Ledger.empty.afterCalls 0 [.start oneRouter.id 0, .commit
    ⟨[⟨⟨⟨"kept"⟩, .epoch, true, 1⟩, 1⟩], [⟨⟨"odd"⟩, 1, "odd", 0⟩], some ⟨oneRouter.id, 0, 1⟩⟩]

def replacing : Host :=
  slotOneWith (some 1700000000) [soundSignature, ⟨"kept"⟩, ⟨"odd"⟩, ⟨"new"⟩]

theorem replacement_is_recovered :
    ∃ report l' row,
      replacing.around.run partlyRecorded ((Reconciler.ofSettings oneRouter).cycleIn .inOrder) =
        (.ok report, l') ∧
      l'.standing soundSignature = (some row, some 1) ∧ (⟨"new"⟩ : Signature) ∈ l'.quarantine ∧
      l'.standing ⟨"kept"⟩ = partlyRecorded.standing ⟨"kept"⟩ ∧
      l'.quarantine[(⟨"odd"⟩ : Signature)]? = some ⟨⟨"odd"⟩, 1, "odd", 0⟩ := by
  obtain ⟨report, resolved, report', l', hresolving, hrun, hquarantine, recovers⟩ :=
    cycle_recovers_unrecorded (Reconciler.ofSettings oneRouter) replacing .inOrder
      (Ledger.Attained.empty.afterCalls 0 _ : partlyRecorded.Attained) rfl (by decide) (by decide)
  have hresolved := (congrArg Prod.snd hresolving).symm
  simp only at hresolved
  subst hresolved
  have hsound : ∃ tx ∈ (Reconciler.ofSettings oneRouter).openTransactions replacing
      partlyRecorded oneRouter.id 0, tx.signature = soundSignature ∧ tx.slot = 1 ∧
        oneRouter.classifier.classify tx =
          .ok ⟨soundSignature, ⟨1700000000, 0, by decide, by decide⟩, true, 1⟩ := by
    decide +kernel
  have hnew : ∃ tx ∈ (Reconciler.ofSettings oneRouter).openTransactions replacing
      partlyRecorded oneRouter.id 0, tx.signature = ⟨"new"⟩ ∧
        oneRouter.classifier.classify tx = .error .signatureMalformed := by
    decide +kernel
  obtain ⟨tx, htx, hsignature, hslot, hrow⟩ := hsound
  obtain ⟨tx', htx', hsignature', hrejection⟩ := hnew
  have hclassified := recovers.classified tx htx (hsignature ▸ by decide +kernel)
    (hsignature ▸ by decide +kernel) _ hrow
  have hrejected := recovers.rejected tx' htx' (hsignature' ▸ by decide +kernel)
    (hsignature' ▸ by decide +kernel) _ hrejection
  rw [hsignature, hslot] at hclassified
  rw [hsignature'] at hrejected
  refine ⟨report', l', _, hrun, hclassified.1, ?_, ?_, ?_⟩
  · rw [Std.ExtTreeMap.mem_iff_isSome_getElem?, hrejected.2]
    rfl
  · refine (recovers.others ⟨"kept"⟩ fun _ _ _ => ?_).1.trans (by decide +kernel)
    exact .inl (by decide +kernel)
  · refine (recovers.others ⟨"odd"⟩ fun _ _ _ => ?_).2.trans (by decide +kernel)
    exact .inr (by decide +kernel)

/-- What a quarantine entry keeps out: a transaction that can be classified is in the history
after the cycle if it was there after the first half, or if its signature is not in quarantine. -/
theorem recorded_iff_not_quarantined (r : Reconciler) (host : Host) (turns : Turns) {l : Ledger}
    (attained : l.Attained) {tx : Transaction} (fetched : tx ∈ r.refetched host l)
    (router : r.classifier.isRouterTransaction tx = true) {row : Record}
    (classified : r.classifier.classify tx = .ok row) :
    ∃ report resolved report' l',
      host.around.run l (r.resolving.cycleIn turns) = (.ok report, resolved) ∧
      host.around.run l (r.cycleIn turns) = (.ok report', l') ∧
      (tx.signature ∈ l'.rows ↔
        tx.signature ∈ resolved.rows ∨ tx.signature ∉ l.quarantine) := by
  refine ⟨_, _, _, _, run_resolving, r.run_cycleIn host l turns, ?_⟩
  have recovers : Recovers r.classifier host.now _ (r.settledAt host l turns)
    (r.cycledAt host l turns) := recovers_cycledAt attained
  have hwindow := List.mem_filter.2 ⟨fetched, router⟩
  have hquarantine := r.quarantine_settledAt host l turns
  by_cases hrow : tx.signature ∈ (r.settledAt host l turns).rows
  · exact iff_of_true (mem_rows_recorded hrow) (.inl hrow)
  by_cases hknown : tx.signature ∈ l.quarantine
  · have hkept := (recovers.others tx.signature fun _ _ _ => .inr (hquarantine ▸ hknown)).1
    have hrows := (Prod.mk.inj hkept).1
    rw [Std.ExtTreeMap.mem_iff_isSome_getElem?, hrows, ← Std.ExtTreeMap.mem_iff_isSome_getElem?]
    simp [hrow, hknown]
  · have hstanding :=
      (recovers.classified tx hwindow hrow (hquarantine ▸ hknown) row classified).1
    refine iff_of_true ?_ (.inr hknown)
    rw [Std.ExtTreeMap.mem_iff_isSome_getElem?, (Prod.mk.inj hstanding).1]
    rfl

def ingestedFrom (host : Host) : Ledger :=
  (host.around.run .empty (Pipeline.ofSettings oneRouter ⟨1, []⟩).step).2

theorem attained_ingestedFrom (host : Host) : (ingestedFrom host).Attained :=
  Ledger.Attained.empty.run host _

/-- Slot one before and after the time of its block was known. -/
def untimed : Host := slotOneWith none [soundSignature]

def timed : Host := slotOneWith (some 1700000000) [soundSignature]

/-- The transaction was turned down without a time; with one it can be classified, but the cycle
that fetches it again does not record it. -/
theorem timed_stays_unrecorded :
    (ingestedFrom untimed).Attained ∧
    ∃ report l', timed.around.run (ingestedFrom untimed)
        ((Reconciler.ofSettings oneRouter).cycleIn .inOrder) = (.ok report, l') ∧
      ∃ tx ∈ (Reconciler.ofSettings oneRouter).refetched timed (ingestedFrom untimed),
        oneRouter.classifier.isRouterTransaction tx = true ∧
        (∃ row, oneRouter.classifier.classify tx = .ok row) ∧ tx.signature ∉ l'.rows := by
  refine ⟨attained_ingestedFrom untimed, _, _, Reconciler.run_cycleIn _ timed _ _, ?_⟩
  have hmissed : ∃ tx ∈ (Reconciler.ofSettings oneRouter).refetched timed (ingestedFrom untimed),
      oneRouter.classifier.isRouterTransaction tx = true ∧
      oneRouter.classifier.classify tx =
        .ok ⟨soundSignature, ⟨1700000000, 0, by decide, by decide⟩, true, 1⟩ ∧
      tx.signature ∉ ((Reconciler.ofSettings oneRouter).cycledAt timed (ingestedFrom untimed)
        .inOrder).rows := by
    decide +kernel
  obtain ⟨tx, htx, hrouter, hrow, hnot⟩ := hmissed
  exact ⟨tx, htx, hrouter, ⟨_, hrow⟩, hnot⟩

theorem timed_is_kept_out :
    ∃ tx report l', tx.signature = soundSignature ∧
      tx ∈ (Reconciler.ofSettings oneRouter).refetched timed (ingestedFrom untimed) ∧
      timed.around.run (ingestedFrom untimed)
        ((Reconciler.ofSettings oneRouter).cycleIn .inOrder) =
        (.ok report, l') ∧
      tx.signature ∈ (ingestedFrom untimed).quarantine ∧ tx.signature ∉ l'.rows := by
  have hfetched : ∃ tx ∈ (Reconciler.ofSettings oneRouter).refetched timed (ingestedFrom untimed),
      tx.signature = soundSignature ∧ oneRouter.classifier.isRouterTransaction tx = true ∧
      oneRouter.classifier.classify tx =
        .ok ⟨soundSignature, ⟨1700000000, 0, by decide, by decide⟩, true, 1⟩ := by
    decide +kernel
  obtain ⟨tx, htx, hsignature, hrouter, hrow⟩ := hfetched
  obtain ⟨report, resolved, report', l', hresolving, hrun, hiff⟩ :=
    recorded_iff_not_quarantined (Reconciler.ofSettings oneRouter) timed .inOrder
      (attained_ingestedFrom untimed) htx hrouter hrow
  have hresolved := (congrArg Prod.snd hresolving).symm
  simp only at hresolved
  subst hresolved
  have hknown : tx.signature ∈ (ingestedFrom untimed).quarantine :=
    hsignature ▸ by decide +kernel
  refine ⟨tx, report', l', hsignature, htx, hrun, hknown, fun hmem => ?_⟩
  refine (hiff.1 hmem).elim ?_ (absurd hknown)
  rw [hsignature]
  decide +kernel

end RouterHistory.Reconciliation
