import RouterHistory.Proofs.Reconciliation.LoneCycle

/-!
A cycle that runs alone over a source with fixed replies. It fails if there is no head, and then
it leaves the ledger alone. A resolution that fails is left for a later cycle, and slots that
cannot be fetched again are as good as slots without transactions, so all else is as it is when
every call is answered.
-/
namespace RouterHistory

/-- Whatever is asked about marks, the answers are those for the marks, in some order. -/
theorem Turns.perm_map (turns : Turns) (answer : Mark → Resolved) (marks : List Mark) :
    (turns.answered ((turns.asked marks).map answer)).Perm (marks.map answer) :=
  (turns.answered_perm _).trans ((turns.asked_perm marks).map answer)

namespace Reconciler

open Shared

variable (r : Reconciler) (host : Host) (w : Replies) (l : Ledger) (turns : Turns)

def boundaryAt : Slot := Slot.down (host.source .head) r.finalityDepth

def finalized : Ledger := (l.finalizeThrough (r.boundaryAt host)).2

def pendingAt : List Mark := (r.finalized host l).provisionalAfter (r.boundaryAt host)

def refetched : List Transaction :=
  match r.rescan with
  | none => []
  | some (id, genesis) =>
      let first := rescanStart (r.boundaryAt host) genesis
      match l.checkpoints[id]? with
      | none => []
      | some c =>
          if c.slot < first then []
          else Gapless.transactions first c.slot
            (host.source (.slots first c.slot r.classifier.programIds))

/-- They depend on the checkpoints only. -/
theorem refetched_congr {r : Reconciler} {host : Host} {l l' : Ledger}
    (h : l'.checkpoints = l.checkpoints) : r.refetched host l' = r.refetched host l := by
  unfold refetched
  rw [h]

def foundAt : List Transaction := r.missing l (known l) (r.refetched host l)

def replyFor (mark : Mark) : Resolved := ⟨mark, w.source (.resolve mark.signature)⟩

def repliedAt : List Resolved :=
  turns.answered ((turns.asked (r.pendingAt w.host l)).map (replyFor w))

def settledBy : Ledger := r.settleAll (r.finalized w.host l) (r.repliedAt w l turns)

theorem quarantine_settledBy : (r.settledBy w l turns).quarantine = l.quarantine :=
  r.quarantine_settleAll _ _

theorem checkpoints_settledBy : (r.settledBy w l turns).checkpoints = l.checkpoints :=
  r.checkpoints_settleAll _ _

/-- What is fetched again is known before the cycle. -/
theorem refetched_settledBy :
    r.refetched w.host (r.settledBy w l turns) = r.refetched w.host l :=
  refetched_congr (r.checkpoints_settledBy w l turns)

def cycledBy : Ledger :=
  r.recorded (r.settledBy w l turns) (fun _ => w.now) (r.foundAt w.host (r.settledBy w l turns))

def surveyBy : Survey := r.surveyFrom l (w.host.source .head) (r.repliedAt w l turns)

def reportBy : CycleReport :=
  r.countRecorded (r.settledBy w l turns)
    (r.countAll (r.finalized w.host l) (r.surveyBy w l turns).report (r.repliedAt w l turns))
    (r.foundAt w.host (r.settledBy w l turns))

def settledAt : Ledger := r.settledBy host.replies l turns

theorem quarantine_settledAt : (r.settledAt host l turns).quarantine = l.quarantine :=
  r.quarantine_settledBy host.replies l turns

theorem checkpoints_settledAt : (r.settledAt host l turns).checkpoints = l.checkpoints :=
  r.checkpoints_settledBy host.replies l turns

theorem refetched_settledAt : r.refetched host (r.settledAt host l turns) = r.refetched host l :=
  r.refetched_settledBy host.replies l turns

def cycledAt : Ledger := r.cycledBy host.replies l turns

def reportAt : CycleReport := r.reportBy host.replies l turns

section Replied

variable {r : Reconciler} {w : Replies} {l l' : Ledger} {turns : Turns}

theorem Answers.eq_map {marks : List Mark} {resolved : List Resolved}
    (h : Answers w.lone marks resolved) : resolved = marks.map (replyFor w) := by
  have hsame : ∀ x ∈ resolved, x = replyFor w x.mark := fun x hx => by
    have hreply : x.verdict = w.source (.resolve x.mark.signature) := h.replies x hx
    unfold replyFor
    rw [← hreply]
  rw [← h.marks, List.map_map]
  exact (List.map_id resolved).symm.trans (List.map_congr_left hsame)

theorem Refetches.eq_refetched {txs : List Transaction}
    (h : Refetches w.lone r l (r.boundaryAt w.host) txs) : txs = r.refetched w.host l := by
  unfold refetched
  cases h with
  | unset rescans => rw [rescans]
  | fresh rescans unstored => simp only [rescans, unstored]
  | closed rescans stored below => simp only [rescans, stored, if_pos below]
  | opened rescans stored above told =>
    simp only [rescans, stored, if_neg above]
    rw [w.host_slots, ← told]

theorem Surveys.of_headless {result : Except Failure Survey} {f : Failure}
    (h : Surveys w.lone r turns l l' result) (hhead : w.source .head = .error f) :
    result = .error f ∧ l' = l := by
  cases h with
  | headless untold =>
    cases Eq.trans untold hhead
    exact ⟨rfl, rfl⟩
  | undropped f disturbed => exact disturbed.elim
  | unlisted told f disturbed => exact disturbed.elim
  | done told answers => cases Eq.trans told hhead

theorem Surveys.of_replied {result : Except Failure Survey} {head : Slot}
    (h : Surveys w.lone r turns l l' result) (hhead : w.source .head = .ok head) :
    result = .ok (r.surveyBy w l turns) ∧ l' = r.finalized w.host l := by
  cases h with
  | headless untold => cases Eq.trans untold hhead
  | undropped f disturbed => exact disturbed.elim
  | unlisted told f disturbed => exact disturbed.elim
  | done told answers =>
    obtain rfl : w.host.source .head = _ := w.host_source (Eq.symm told : w.source .head = _)
    rw [answers.eq_map]
    exact ⟨rfl, rfl⟩

theorem Concludes.of_replied {s : Survey} {result : Except Failure CycleReport}
    (h : Concludes w.lone r l s l' result) (hboundary : s.boundary = r.boundaryAt w.host) :
    let settled := r.settleAll l s.resolved
    let found := r.foundAt w.host settled
    result = .ok (r.countRecorded settled (r.countAll l s.report s.resolved) found) ∧
      l' = r.recorded settled (fun _ => w.now) found := by
  cases h with
  | broken applied f disturbed => exact disturbed.elim
  | @done l₁ txs settled refetches times shown =>
    subst settled
    rw [hboundary] at refetches
    obtain rfl : times = fun _ => w.now := funext fun i => (shown i).resolve_left id
    rw [refetches.eq_refetched]
    exact ⟨rfl, rfl⟩

theorem Cycles.of_headless {result : Except Failure CycleReport} {f : Failure}
    (h : Cycles w.lone r turns l l' result) (hhead : w.source .head = .error f) :
    result = .error f ∧ l' = l := by
  cases h with
  | stopped surveys =>
    obtain ⟨hresult, hl⟩ := surveys.of_headless hhead
    cases hresult
    exact ⟨rfl, hl⟩
  | concluded surveys concludes => cases (surveys.of_headless hhead).1

theorem Cycles.of_replied {result : Except Failure CycleReport} {head : Slot}
    (h : Cycles w.lone r turns l l' result) (hhead : w.source .head = .ok head) :
    result = .ok (r.reportBy w l turns) ∧ l' = r.cycledBy w l turns := by
  cases h with
  | stopped surveys => cases (surveys.of_replied hhead).1
  | concluded surveys concludes =>
    obtain ⟨hs, rfl⟩ := surveys.of_replied hhead
    cases hs
    exact concludes.of_replied rfl

end Replied

theorem headless_cycleIn {f : Failure} (hhead : w.source .head = .error f) :
    w.around.run l (r.cycleIn turns) = (.error f, l) :=
  Prod.ext_iff.2 (Cycles.of_headless (r.cycleIn_finishes turns l).run hhead)

theorem replied_cycleIn {head : Slot} (hhead : w.source .head = .ok head) :
    w.around.run l (r.cycleIn turns) = (.ok (r.reportBy w l turns), r.cycledBy w l turns) :=
  Prod.ext_iff.2 (Cycles.of_replied (r.cycleIn_finishes turns l).run hhead)

theorem run_cycleIn :
    host.around.run l (r.cycleIn turns) =
      (.ok (r.reportAt host l turns), r.cycledAt host l turns) :=
  r.replied_cycleIn host.replies l turns rfl

end Reconciler

end RouterHistory
