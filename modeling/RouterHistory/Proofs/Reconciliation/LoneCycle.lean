import RouterHistory.Proofs.Reconciliation.Findings
import RouterHistory.Proofs.Shared.CycleConduct
import RouterHistory.Proofs.Shared.LoneRun

/-!
A cycle that runs alone. Nothing comes between its requests, so the ledger that it leaves is
computed from what it is told. If calls of the store may fail, so may the cycle, but every write
is a single call, and what it leaves behind is the ledger after some of its parts, each as a
whole.
-/
namespace RouterHistory.Reconciler

open Shared

variable {alone : Lone} {r : Reconciler} {l l' : Ledger} {turns : Turns}
variable {report : CycleReport}

structure Answers (alone : Lone) (marks : List Mark) (resolved : List Resolved) : Prop where
  marks : resolved.map Resolved.mark = marks
  replies : ∀ x ∈ resolved, alone.source (.resolve x.mark.signature) x.verdict

theorem resolveAll_finishes (marks : List Mark) :
    (resolveAll marks).Finishes alone (fun _ => True)
      (fun l' resolved => l' = l ∧ Answers alone marks resolved) l := by
  induction marks with
  | nil => exact ⟨rfl, rfl, by simp⟩
  | cons mark rest ih =>
    refine Program.finishes_source trivial fun verdict told => ?_
    refine Program.finishes_bind (Program.finishes_imp ih ?_)
    intro l' others h
    obtain ⟨hsame, hmarks, hreplies⟩ := h
    exact ⟨hsame, by rw [List.map_cons, hmarks], List.forall_mem_cons.2 ⟨told, hreplies⟩⟩

/-- The survey of a cycle that was told of this head and these answers. -/
def surveyFrom (r : Reconciler) (l : Ledger) (head : Slot) (resolved : List Resolved) :
    Survey where
  head := head
  boundary := Slot.down head r.finalityDepth
  finalized := (l.finalizeThrough (Slot.down head r.finalityDepth)).1
  resolved := resolved

/-- The ledger after the marks were dropped that are deep enough below the head. -/
def droppedAt (r : Reconciler) (l : Ledger) (head : Slot) : Ledger :=
  (l.finalizeThrough (Slot.down head r.finalityDepth)).2

def leftAt (r : Reconciler) (l : Ledger) (head : Slot) : List Mark :=
  (r.droppedAt l head).provisionalAfter (Slot.down head r.finalityDepth)

/-- No mark is resolved twice. -/
theorem Answers.pending {head : Slot} {resolved : List Resolved}
    (h : Answers alone (turns.asked (r.leftAt l head)) resolved) :
    (∀ x ∈ turns.answered resolved, x.mark ∈ r.leftAt l head) ∧
      ((turns.answered resolved).map fun x => x.mark.signature).Nodup := by
  have hperm := turns.answered_perm resolved
  have hasked : (resolved.map Resolved.mark).Perm (r.leftAt l head) :=
    h.marks ▸ turns.asked_perm (r.leftAt l head)
  refine ⟨fun x hx => hasked.subset (List.mem_map_of_mem (hperm.subset hx)), ?_⟩
  rw [(hperm.map _).nodup_iff]
  have hsignatures := hasked.map Mark.signature
  rw [List.map_map] at hsignatures
  exact hsignatures.nodup_iff.2 ((r.droppedAt l head).nodup_provisionalAfter _)

inductive Surveys (alone : Lone) (r : Reconciler) (turns : Turns) (l : Ledger) :
    Ledger → Except Failure Survey → Prop
  | headless {f : Failure} (untold : alone.source .head (.error f)) :
      Surveys alone r turns l l (.error f)
  | undropped (f : Failure) (disturbed : alone.disturbed) : Surveys alone r turns l l (.error f)
  | unlisted {head : Slot} (told : alone.source .head (.ok head)) (f : Failure)
      (disturbed : alone.disturbed) : Surveys alone r turns l (r.droppedAt l head) (.error f)
  | done {head : Slot} (told : alone.source .head (.ok head)) {resolved : List Resolved}
      (answers : Answers alone (turns.asked (r.leftAt l head)) resolved) :
      Surveys alone r turns l (r.droppedAt l head)
        (.ok (r.surveyFrom l head (turns.answered resolved)))

theorem surveyIn_finishes (r : Reconciler) (turns : Turns) (l : Ledger) :
    (r.surveyIn turns).Finishes alone (fun _ => True) (Surveys alone r turns l) l := by
  unfold surveyIn
  refine Program.finishes_source trivial fun reply told => ?_
  rcases reply with f | (head : Slot)
  · exact .headless told
  refine Program.finishes_store trivial (fun f disturbed => .undropped f disturbed) fun _ _ => ?_
  refine Program.finishes_store trivial (fun f disturbed => .unlisted told f disturbed)
    fun _ _ => ?_
  refine Program.finishes_bind (Program.finishes_imp (resolveAll_finishes _) ?_)
  rintro _ resolved ⟨rfl, answers⟩
  exact .done told answers

/-- Answers were applied in order, all of them or up to a call that failed. -/
inductive Applies (alone : Lone) (r : Reconciler) (l : Ledger) (report : CycleReport)
    (resolved : List Resolved) : Ledger → Except Failure CycleReport → Prop
  | all : Applies alone r l report resolved (r.settleAll l resolved)
      (.ok (r.countAll l report resolved))
  | part {done : List Resolved} (applied : done <+: resolved) (f : Failure)
      (disturbed : alone.disturbed) :
      Applies alone r l report resolved (r.settleAll l done) (.error f)

theorem applies_failed (r : Reconciler) (l : Ledger) (report : CycleReport)
    (resolved : List Resolved) (f : Failure) (disturbed : alone.disturbed) :
    Applies alone r l report resolved l (.error f) := .part List.nil_prefix f disturbed

/-- One answer was applied. -/
theorem applies_finding (alone : Lone) (l : Ledger) (report : CycleReport) {x : Resolved}
    {f : Finding} (h : r.finding x.verdict = f) :
    Applies alone r l report [x] (f.settle l x.mark) (.ok (f.count l x.mark report)) := by
  subst h
  exact .all

theorem applyAbsent_finishes {x : Resolved} (h : r.finding x.verdict = .gone) :
    (applyAbsent report x.mark).Finishes alone (¬ Resolving ·) (Applies alone r l report [x]) l :=
  Program.finishes_store not_resolving_store (applies_failed r l report [x]) fun _ _ =>
    applies_finding alone l report h

theorem applyRecord_finishes {x : Resolved} {row : Record} {slot : Slot}
    (h : r.finding x.verdict = .found row slot) :
    (applyRecord report x.mark row slot).Finishes alone (¬ Resolving ·)
      (Applies alone r l report [x]) l := by
  have hfound := applies_finding alone l report h
  simp only [Finding.settle, Finding.count] at hfound
  unfold applyRecord
  refine Program.finishes_store not_resolving_store (applies_failed r l report [x])
    fun now _ => ?_
  have hread : (l.answer now (.record x.mark.signature)).1 = .ok l.rows[x.mark.signature]? := rfl
  rw [hread]
  by_cases hsame : l.rows[x.mark.signature]? = some row
  · simp only [WriteOutcome.decide_eq_unchanged.2 hsame]
    rw [if_pos hsame, if_pos hsame] at hfound
    by_cases hslot : slot = x.mark.slot
    · rw [if_pos hslot] at hfound ⊢
      exact hfound
    · rw [if_neg hslot] at hfound ⊢
      exact Program.finishes_store not_resolving_store (applies_failed r l report [x])
        fun _ _ => hfound
  · rw [if_neg hsame, if_neg hsame] at hfound
    cases hdecide : WriteOutcome.decide l.rows[x.mark.signature]? row with
    | unchanged => exact absurd (WriteOutcome.decide_eq_unchanged.1 hdecide) hsame
    | inserted | overwritten =>
      simp only [hdecide]
      exact Program.finishes_store not_resolving_store (applies_failed r l report [x])
        fun _ _ => hfound

theorem apply_finishes (x : Resolved) :
    (r.apply report x).Finishes alone (¬ Resolving ·) (Applies alone r l report [x]) l := by
  obtain ⟨mark, verdict⟩ := x
  unfold Reconciler.apply
  rcases verdict with f | tx | _
  · exact applies_finding alone l report (f := .unknown) rfl
  · simp only
    cases hrow : r.classifier.classify tx with
    | error rejection =>
      exact applies_finding alone l report (f := .unknown) (by simp only [finding, hrow])
    | ok row => exact applyRecord_finishes (by simp only [finding, hrow])
  · exact applyAbsent_finishes rfl

theorem applyAll_finishes (resolved : List Resolved) :
    (r.applyAll report resolved).Finishes alone (¬ Resolving ·)
      (Applies alone r l report resolved) l := by
  induction resolved generalizing l report with
  | nil => exact .all
  | cons x rest ih =>
    unfold applyAll
    refine Program.finishes_bind (Program.finishes_imp (apply_finishes x) ?_)
    intro l₁ result hfirst
    cases hfirst with
    | part applied f disturbed => exact .part (applied.trans ⟨rest, rfl⟩) f disturbed
    | all =>
      refine Program.finishes_imp ih ?_
      intro l₂ result hrest
      cases hrest with
      | all => exact .all
      | part applied f disturbed => exact .part ((List.prefix_cons_inj x).2 applied) f disturbed

/-- What was found is what is missing, with times that the clock showed. -/
inductive Finds (alone : Lone) (r : Reconciler) (l : Ledger) (found : List Transaction) :
    Ledger → Except Failure Commit → Prop
  | found {times : Nat → Int} (shown : ∀ i, alone.Shows (times i)) :
      Finds alone r l found l
        (.ok ((Sorted.ofTransactions r.classifier found).commit times none))
  | failed (f : Failure) (disturbed : alone.disturbed) : Finds alone r l found l (.error f)

theorem sort_finishes (tx : Transaction) :
    (r.sort tx).Finishes alone (¬ Resolving ·)
      (fun l' sorted => l' = l ∧ ∃ now, alone.Shows now ∧ sorted = r.sortedAt now tx) l := by
  unfold Reconciler.sort sortedAt
  cases r.classifier.classify tx with
  | ok row => exact ⟨rfl, alone.now, .inr rfl, rfl⟩
  | error rejection =>
    exact Program.finishes_clock not_resolving_clock fun now hnow => ⟨rfl, now, hnow, rfl⟩

theorem unrecorded_finishes (known : List Signature) (txs : List Transaction) :
    (r.unrecorded known txs).Finishes alone (¬ Resolving ·)
      (Finds alone r l (r.missing l known txs)) l := by
  induction txs with
  | nil => exact .found fun _ => alone.shows_now
  | cons tx rest ih =>
    unfold unrecorded
    by_cases hask : r.classifier.isRouterTransaction tx ∧ tx.signature ∉ known
    · rw [if_pos hask]
      refine Program.finishes_store not_resolving_store (fun f disturbed => .failed f disturbed)
        fun _ _ => ?_
      change Program.Finishes _ _ _ l (if l.lifecycle tx.signature = .unseen then _ else _)
      by_cases hunseen : l.lifecycle tx.signature = .unseen
      · rw [if_pos hunseen]
        have hmissing : r.missing l known (tx :: rest) = tx :: r.missing l known rest := by
          simp [missing, hask, hunseen]
        rw [hmissing]
        refine Program.finishes_bind (Program.finishes_imp (sort_finishes tx) ?_)
        rintro _ sorted ⟨rfl, now, hnow, rfl⟩
        refine Program.finishes_bind (Program.finishes_imp ih ?_)
        intro l' result hrest
        cases hrest with
        | failed f disturbed => exact .failed f disturbed
        | found shown =>
          obtain ⟨times', shown', hcons⟩ := r.exists_cons_sortedAt now hnow _ shown tx _
          refine Eq.subst (motive := fun c => Finds _ _ _ _ _ (.ok c)) hcons.symm ?_
          exact .found shown'
      · rw [if_neg hunseen]
        have hmissing : r.missing l known (tx :: rest) = r.missing l known rest := by
          simp [missing, hunseen]
        rw [hmissing]
        exact ih
    · rw [if_neg hask]
      have hskip : ¬ (r.classifier.isRouterTransaction tx ∧ tx.signature ∉ known ∧
          l.lifecycle tx.signature = .unseen) := fun h => hask ⟨h.1, h.2.1⟩
      have hmissing : r.missing l known (tx :: rest) = r.missing l known rest :=
        List.filter_cons_of_neg (by simpa using hskip)
      rw [hmissing]
      exact ih

inductive Records (alone : Lone) (r : Reconciler) (l : Ledger) (report : CycleReport)
    (found : List Transaction) : Ledger → Except Failure CycleReport → Prop
  | recorded {times : Nat → Int} (shown : ∀ i, alone.Shows (times i)) :
      Records alone r l report found (r.recorded l times found)
        (.ok (r.countRecorded l report found))
  | failed (f : Failure) (disturbed : alone.disturbed) :
      Records alone r l report found l (.error f)

theorem records_nothing (alone : Lone) (r : Reconciler) (l : Ledger) (report : CycleReport) :
    Records alone r l report [] l (.ok report) :=
  .recorded fun _ => alone.shows_now

theorem recover_finishes {found : List Transaction} {times : Nat → Int}
    (shown : ∀ i, alone.Shows (times i)) :
    (recover report ((Sorted.ofTransactions r.classifier found).commit times none)).Finishes
      alone (¬ Resolving ·) (Records alone r l report found) l := by
  have hrecorded : Records alone r l report found (r.recorded l times found)
      (.ok (r.countRecorded l report found)) := .recorded shown
  unfold recover
  split
  · next hempty =>
    have hnothing : Sorted.ofTransactions r.classifier found = .empty :=
      Sorted.eq_empty_of_isEmpty_commit hempty
    simp only [countRecorded, recorded, hnothing] at hrecorded
    exact hrecorded
  · refine Program.finishes_store not_resolving_store (fun f disturbed => .failed f disturbed)
      fun now _ => ?_
    let batch := (Sorted.ofTransactions r.classifier found).commit times none
    obtain ⟨receipt, hstored, hinserted⟩ : ∃ receipt, l.answer now (.commit batch) = (.ok receipt,
        (l.upsertAll batch.entries).2.quarantineAll batch.quarantined) ∧
          receipt.tally.inserted = (l.upsertAll batch.entries).1.inserted := ⟨_, rfl, rfl⟩
    rw [hstored, Ledger.upsertAll_snd]
    refine cast ?_ hrecorded
    simp only [countRecorded, hinserted, ← Sorted.length_quarantined _ times]
    rfl

theorem rescanThrough_finishes (first last : Slot) :
    (r.rescanThrough report first last).Finishes alone (¬ Resolving ·)
      (fun l' result => ∃ reply,
        alone.source (.slots first last r.classifier.programIds) reply ∧
        Records alone r l report (r.missing l (known l)
          (Gapless.transactions first last (reply.toOption.getD []))) l' result) l := by
  unfold rescanThrough
  refine Program.finishes_source not_resolving_slots fun reply told => ?_
  rcases reply with f | (raw : List Delivery)
  · refine ⟨_, told, ?_⟩
    have hnothing : Gapless.transactions first last [] = [] := Gapless.transactions_nil first last
    change Records alone r l report
      (r.missing l (known l) (Gapless.transactions first last [])) l _
    rw [hnothing]
    exact records_nothing alone r l report
  refine Program.finishes_store not_resolving_store
    (fun f disturbed => ⟨_, told, .failed f disturbed⟩)
    fun _ _ => ?_
  refine Program.finishes_bind (Program.finishes_imp (unrecorded_finishes (known l) _) ?_)
  intro l' result hfound
  cases hfound with
  | failed f disturbed => exact ⟨_, told, .failed f disturbed⟩
  | found shown => exact Program.finishes_imp (recover_finishes shown) fun _ _ h => ⟨_, told, h⟩

/-- The transactions of the slots fetched again; there are none where no slots can be fetched. -/
inductive Refetches (alone : Lone) (r : Reconciler) (l : Ledger) (boundary : Slot) :
    List Transaction → Prop
  | unset (rescans : r.rescan = none) : Refetches alone r l boundary []
  | fresh {id : String} {genesis : Slot} (rescans : r.rescan = some (id, genesis))
      (unstored : l.checkpoints[id]? = none) : Refetches alone r l boundary []
  | closed {id : String} {genesis : Slot} {c : Checkpoint}
      (rescans : r.rescan = some (id, genesis))
      (stored : l.checkpoints[id]? = some c) (below : c.slot < rescanStart boundary genesis) :
      Refetches alone r l boundary []
  | opened {id : String} {genesis : Slot} {c : Checkpoint}
      (rescans : r.rescan = some (id, genesis))
      (stored : l.checkpoints[id]? = some c) (above : ¬ c.slot < rescanStart boundary genesis)
      {reply : Except Failure (List Delivery)}
      (told : alone.source
        (.slots (rescanStart boundary genesis) c.slot r.classifier.programIds) reply) :
      Refetches alone r l boundary
        (Gapless.transactions (rescanStart boundary genesis) c.slot (reply.toOption.getD []))

theorem Refetches.nodup {boundary : Slot} {txs : List Transaction}
    (h : Refetches alone r l boundary txs) : (txs.map Transaction.signature).Nodup := by
  cases h with
  | opened => exact Gapless.nodup_transactions _ _ _
  | _ => exact List.nodup_nil

inductive Rescans (alone : Lone) (r : Reconciler) (l : Ledger) (report : CycleReport) :
    Ledger → Except Failure CycleReport → Prop
  | recorded {txs : List Transaction} (refetches : Refetches alone r l report.boundary txs)
      {times : Nat → Int} (shown : ∀ i, alone.Shows (times i)) :
      Rescans alone r l report (r.recorded l times (r.missing l (known l) txs))
        (.ok (r.countRecorded l report (r.missing l (known l) txs)))
  | failed (f : Failure) (disturbed : alone.disturbed) : Rescans alone r l report l (.error f)

theorem rescans_of_records {txs : List Transaction} {result : Except Failure CycleReport}
    (refetches : Refetches alone r l report.boundary txs)
    (h : Records alone r l report (r.missing l (known l) txs) l' result) :
    Rescans alone r l report l' result := by
  cases h with
  | recorded shown => exact .recorded refetches shown
  | failed f disturbed => exact .failed f disturbed

theorem rescanWindow_finishes {id : String} {genesis : Slot}
    (rescans : r.rescan = some (id, genesis)) :
    (r.rescanWindow report id genesis).Finishes alone (¬ Resolving ·)
      (Rescans alone r l report) l := by
  have hnothing := records_nothing alone r l report
  unfold rescanWindow
  refine Program.finishes_store not_resolving_store (fun f disturbed => .failed f disturbed)
    fun now _ => ?_
  have hread : (l.answer now (.checkpoint id)).1 = .ok l.checkpoints[id]? := rfl
  rw [hread]
  simp only
  cases stored : l.checkpoints[id]? with
  | none => exact rescans_of_records (.fresh rescans stored) hnothing
  | some c =>
    simp only
    split
    · next below => exact rescans_of_records (.closed rescans stored below) hnothing
    · next above =>
      refine Program.finishes_imp (rescanThrough_finishes _ _) ?_
      rintro l' result ⟨reply, told, records⟩
      exact rescans_of_records (.opened rescans stored above told) records

inductive Concludes (alone : Lone) (r : Reconciler) (l : Ledger) (s : Survey) :
    Ledger → Except Failure CycleReport → Prop
  | broken {done : List Resolved} (applied : done <+: s.resolved) (f : Failure)
      (disturbed : alone.disturbed) : Concludes alone r l s (r.settleAll l done) (.error f)
  | done {l' : Ledger} {txs : List Transaction} (settled : l' = r.settleAll l s.resolved)
      (refetches : Refetches alone r l' s.boundary txs)
      {times : Nat → Int} (shown : ∀ i, alone.Shows (times i)) :
      Concludes alone r l s (r.recorded l' times (r.missing l' (known l') txs))
        (.ok (r.countRecorded l' (r.countAll l s.report s.resolved)
          (r.missing l' (known l') txs)))

theorem conclude_finishes (s : Survey) :
    (r.conclude s).Finishes alone (¬ Resolving ·) (Concludes alone r l s) l := by
  unfold conclude
  refine Program.finishes_bind (Program.finishes_imp (applyAll_finishes s.resolved) ?_)
  intro l₁ result happlied
  cases happlied with
  | part applied f disturbed => exact .broken applied f disturbed
  | all =>
    have hboundary : (r.countAll l s.report s.resolved).boundary = s.boundary :=
      r.boundary_countAll l s.report s.resolved
    simp only
    cases rescans : r.rescan with
    | none =>
      exact .done rfl (.unset rescans) fun _ => alone.shows_now
    | some target =>
      obtain ⟨id, genesis⟩ := target
      refine Program.finishes_imp (rescanWindow_finishes rescans) fun l' result h => ?_
      cases h with
      | recorded refetches shown => exact .done rfl (hboundary ▸ refetches) shown
      | failed f disturbed => exact .broken (List.prefix_refl _) f disturbed

inductive Cycles (alone : Lone) (r : Reconciler) (turns : Turns) (l : Ledger) :
    Ledger → Except Failure CycleReport → Prop
  | stopped {l' : Ledger} {f : Failure} (surveys : Surveys alone r turns l l' (.error f)) :
      Cycles alone r turns l l' (.error f)
  | concluded {l₁ l' : Ledger} {s : Survey} {result : Except Failure CycleReport}
      (surveys : Surveys alone r turns l l₁ (.ok s))
      (concludes : Concludes alone r l₁ s l' result) : Cycles alone r turns l l' result

theorem cycleIn_finishes (r : Reconciler) (turns : Turns) (l : Ledger) :
    (r.cycleIn turns).Finishes alone (fun _ => True) (Cycles alone r turns l) l := by
  unfold cycleIn
  refine Program.finishes_bind (Program.finishes_imp (surveyIn_finishes r turns l) ?_)
  intro l₁ result surveys
  cases result with
  | error f => exact .stopped surveys
  | ok s =>
    refine Program.finishes_imp ((conclude_finishes s).weaken fun _ _ => trivial) ?_
    exact fun _ _ concludes => .concluded surveys concludes

end RouterHistory.Reconciler
