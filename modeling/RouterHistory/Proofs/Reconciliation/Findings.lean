import RouterHistory.Pipeline.Reconciler
import RouterHistory.Proofs.Pipeline.SortedTransactions
import RouterHistory.Proofs.Store.Standing

/-!
What a reconcile cycle does to a ledger, without its requests. First each answer is applied that
came of a resolution, then what is missing is recorded. The report counts both.
-/
namespace RouterHistory.Reconciler

inductive Finding where
  | unknown
  | gone
  | found (row : Record) (slot : Slot)

def finding (r : Reconciler) : Except Failure Verdict → Finding
  | .error _ => .unknown
  | .ok .absent => .gone
  | .ok (.canonical tx) =>
      match r.classifier.classify tx with
      | .error _ => .unknown
      | .ok row => .found row tx.slot

def Finding.settle (l : Ledger) (mark : Mark) : Finding → Ledger
  | .unknown => l
  | .gone => (l.orphan mark.signature mark.slot).2
  | .found row slot =>
      if l.rows[mark.signature]? = some row then
        if slot = mark.slot then l else l.moveMark mark.signature slot
      else (l.upsert ⟨row, slot⟩).2

def Finding.count (l : Ledger) (mark : Mark) (report : CycleReport) : Finding → CycleReport
  | .unknown => { report with unresolved := report.unresolved + 1 }
  | .gone =>
      if (l.orphan mark.signature mark.slot).1 then
        { report with orphaned := report.orphaned + 1 }
      else report
  | .found row _ =>
      if l.rows[mark.signature]? = some row then { report with unchanged := report.unchanged + 1 }
      else { report with overwritten := report.overwritten + 1 }

variable (r : Reconciler)

def settleAll (l : Ledger) : List Resolved → Ledger
  | [] => l
  | x :: rest => settleAll ((r.finding x.verdict).settle l x.mark) rest

def countAll (l : Ledger) (report : CycleReport) : List Resolved → CycleReport
  | [] => report
  | x :: rest =>
      countAll ((r.finding x.verdict).settle l x.mark)
        ((r.finding x.verdict).count l x.mark report) rest

variable (l : Ledger) (report : CycleReport)

theorem boundary_countAll (resolved : List Resolved) :
    (r.countAll l report resolved).boundary = report.boundary := by
  induction resolved generalizing l report with
  | nil => rfl
  | cons x rest ih =>
    refine (ih _ _).trans ?_
    cases r.finding x.verdict with
    | unknown => rfl
    | gone =>
      simp only [Finding.count]
      split <;> rfl
    | found row slot =>
      simp only [Finding.count]
      split <;> rfl

/-- Findings are about rows and marks. -/
theorem quarantine_settle (f : Finding) (mark : Mark) :
    (f.settle l mark).quarantine = l.quarantine := by
  cases f with
  | unknown => rfl
  | gone =>
    simp only [Finding.settle, Ledger.orphan]
    split <;> rfl
  | found row slot =>
    simp only [Finding.settle]
    split
    · split
      · rfl
      · exact l.quarantine_moveMark _ _
    · exact l.quarantine_upsert _

theorem checkpoints_settle (f : Finding) (mark : Mark) :
    (f.settle l mark).checkpoints = l.checkpoints := by
  cases f with
  | unknown => rfl
  | gone =>
    simp only [Finding.settle, Ledger.orphan]
    split <;> rfl
  | found row slot =>
    simp only [Finding.settle]
    split
    · split
      · rfl
      · exact l.checkpoints_moveMark _ _
    · exact l.checkpoints_upsert _

theorem quarantine_settleAll (resolved : List Resolved) :
    (r.settleAll l resolved).quarantine = l.quarantine := by
  induction resolved generalizing l with
  | nil => rfl
  | cons x rest ih => exact (ih _).trans (quarantine_settle l _ x.mark)

theorem checkpoints_settleAll (resolved : List Resolved) :
    (r.settleAll l resolved).checkpoints = l.checkpoints := by
  induction resolved generalizing l with
  | nil => rfl
  | cons x rest ih => exact (ih _).trans (checkpoints_settle l _ x.mark)

def missing (known : List Signature) (txs : List Transaction) : List Transaction :=
  txs.filter fun tx => r.classifier.isRouterTransaction tx ∧ tx.signature ∉ known ∧
    l.lifecycle tx.signature = .unseen

def known : List Signature := l.quarantined.map Quarantined.signature

/-- The ledger after transactions were recorded and the others turned down at these times. -/
def recorded (times : Nat → Int) (found : List Transaction) : Ledger :=
  let sorted := Sorted.ofTransactions r.classifier found
  (l.written sorted.entries).quarantineAll (sorted.quarantined times)

def countRecorded (found : List Transaction) : CycleReport :=
  let sorted := Sorted.ofTransactions r.classifier found
  { report with
    recovered := report.recovered + (l.upsertAll sorted.entries).1.inserted.toNat
    quarantined := report.quarantined + sorted.rejected.length }

end RouterHistory.Reconciler
