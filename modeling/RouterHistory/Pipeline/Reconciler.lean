import RouterHistory.Batch.Fetch
import RouterHistory.Pipeline.Step

/-!
The reconciler keeps provisional rows in step with the chain. A cycle has two halves: the survey
makes rows final that are deep enough and resolves all others again, and the second half applies
what was resolved and fetches the open slots below the checkpoint once more, to record
transactions of blocks that replaced others. A row is removed only while its mark is still at the
slot where it was resolved, and the checkpoint is never moved.
-/
namespace RouterHistory

structure Reconciler where
  classifier : Classifier
  finalityDepth : UInt64
  /-- The pipeline whose checkpoint bounds the slots to fetch again, and its genesis slot. -/
  rescan : Option (String × Slot)

/-- A provisional signature and what the source says about it. -/
structure Resolved where
  mark : Mark
  verdict : Except Failure Verdict

/-- The order in which the marks of a cycle are resolved, and the one in which the answers come
in. Resolutions run side by side, so both are free. -/
structure Turns where
  asked : List Mark → List Mark
  answered : List Resolved → List Resolved
  asked_perm : ∀ marks, (asked marks).Perm marks
  answered_perm : ∀ resolved, (answered resolved).Perm resolved

def Turns.inOrder : Turns := ⟨id, id, fun _ => .refl _, fun _ => .refl _⟩

/-- The first half of a cycle. -/
structure Survey where
  head : Slot
  boundary : Slot
  finalized : Nat
  resolved : List Resolved

def Survey.report (s : Survey) : CycleReport where
  head := s.head
  boundary := s.boundary
  finalized := s.finalized
  checked := s.resolved.length
  unchanged := 0
  overwritten := 0
  orphaned := 0
  unresolved := 0
  recovered := 0
  quarantined := 0

namespace Reconciler

def ofSettings (s : Settings) : Reconciler :=
  ⟨s.classifier, s.finalityDepth, some (s.id, s.genesisSlot)⟩

def resolveAll : List Mark → Program (List Resolved)
  | [] => .done []
  | mark :: rest => do
      let verdict ← Program.source (.resolve mark.signature)
      let others ← resolveAll rest
      return ⟨mark, verdict⟩ :: others

def surveyIn (r : Reconciler) (turns : Turns) : Program (Except Failure Survey) := do
  match ← Program.source .head with
  | .error f => return .error f
  | .ok (head : Slot) =>
      let boundary := Slot.down head r.finalityDepth
      match ← Program.store (.finalizeThrough boundary) with
      | .error f => return .error f
      | .ok (finalized : Nat) =>
          match ← Program.store (.provisionalAfter boundary) with
          | .error f => return .error f
          | .ok (pending : List Mark) =>
              let resolved ← resolveAll (turns.asked pending)
              return .ok ⟨head, boundary, finalized, turns.answered resolved⟩

def survey (r : Reconciler) : Program (Except Failure Survey) := r.surveyIn .inOrder

/-- Removes a row whose transaction is gone, unless its mark has moved. -/
def applyAbsent (report : CycleReport) (mark : Mark) : Program (Except Failure CycleReport) := do
  match ← Program.store (.orphan mark.signature mark.slot) with
  | .error f => return .error f
  | .ok (removed : Bool) =>
      return .ok (if removed then { report with orphaned := report.orphaned + 1 } else report)

def applyRecord (report : CycleReport) (mark : Mark) (record : Record) (slot : Slot) :
    Program (Except Failure CycleReport) := do
  match ← Program.store (.record mark.signature) with
  | .error f => return .error f
  | .ok (stored : Option Record) =>
      match WriteOutcome.decide stored record with
      | .unchanged =>
          if slot = mark.slot then return .ok { report with unchanged := report.unchanged + 1 }
          else
            match ← Program.store (.moveMark mark.signature slot) with
            | .error f => return .error f
            | .ok _ => return .ok { report with unchanged := report.unchanged + 1 }
      | _ =>
          match ← Program.store (.upsert ⟨record, slot⟩) with
          | .error f => return .error f
          | .ok _ => return .ok { report with overwritten := report.overwritten + 1 }

def apply (r : Reconciler) (report : CycleReport) (resolved : Resolved) :
    Program (Except Failure CycleReport) :=
  match resolved.verdict with
  | .error _ => return .ok { report with unresolved := report.unresolved + 1 }
  | .ok .absent => applyAbsent report resolved.mark
  | .ok (.canonical tx) =>
      match r.classifier.classify tx with
      | .error _ => return .ok { report with unresolved := report.unresolved + 1 }
      | .ok record => applyRecord report resolved.mark record tx.slot

def applyAll (r : Reconciler) (report : CycleReport) :
    List Resolved → Program (Except Failure CycleReport)
  | [] => return .ok report
  | resolved :: rest => do
      match ← r.apply report resolved with
      | .error f => return .error f
      | .ok report => applyAll r report rest

/-- The first slot to fetch again, if there is one above the boundary and the genesis slot. -/
def rescanStart (boundary genesis : Slot) : Slot := max boundary genesis + 1

/-- A transaction as a row, or as a rejection with the time at which it was turned down. -/
def sort (r : Reconciler) (tx : Transaction) : Program (Entry ⊕ Quarantined) :=
  match r.classifier.classify tx with
  | .ok record => return .inl ⟨record, tx.slot⟩
  | .error rejection => do return .inr (Sorted.dated (← Program.clock) (tx, rejection))

/-- What the router transactions come to that have neither a row nor a quarantine entry. -/
def unrecorded (r : Reconciler) (known : List Signature) :
    List Transaction → Program (Except Failure Commit)
  | [] => return .ok .empty
  | tx :: rest => do
      if r.classifier.isRouterTransaction tx ∧ tx.signature ∉ known then
        match ← Program.store (.lifecycle tx.signature) with
        | .error f => return .error f
        | .ok (state : Lifecycle) =>
            if state = .unseen then
              let sorted ← r.sort tx
              return (← unrecorded r known rest).map (Commit.cons sorted)
            else unrecorded r known rest
      else unrecorded r known rest

/-- Stores what was found, if anything was. -/
def recover (report : CycleReport) (found : Commit) : Program (Except Failure CycleReport) := do
  if found.isEmpty then return .ok report
  else
    match ← Program.store (.commit found) with
    | .error f => return .error f
    | .ok (receipt : Receipt) =>
        return .ok { report with
          recovered := report.recovered + receipt.tally.inserted.toNat
          quarantined := report.quarantined + found.quarantined.length }

/-- Fetches the slots again that are neither final nor above the checkpoint. A failure of the
source ends the rescan quietly. -/
def rescanThrough (r : Reconciler) (report : CycleReport) (first last : Slot) :
    Program (Except Failure CycleReport) := do
  match ← Program.source (.slots first last r.classifier.programIds) with
  | .error _ => return .ok report
  | .ok (raw : List Delivery) =>
      match ← Program.store .quarantined with
      | .error f => return .error f
      | .ok (quarantined : List Quarantined) =>
          let known := quarantined.map Quarantined.signature
          let transactions := (Gapless.slots first last raw).flatMap Delivery.transactions
          match ← r.unrecorded known transactions with
          | .error f => return .error f
          | .ok found => recover report found

def rescanWindow (r : Reconciler) (report : CycleReport) (pipelineId : String) (genesis : Slot) :
    Program (Except Failure CycleReport) := do
  match ← Program.store (.checkpoint pipelineId) with
  | .error f => return .error f
  | .ok (none : Option Checkpoint) => return .ok report
  | .ok (some checkpoint : Option Checkpoint) =>
      let first := rescanStart report.boundary genesis
      if checkpoint.slot < first then return .ok report
      else r.rescanThrough report first checkpoint.slot

/-- The second half of a cycle. -/
def conclude (r : Reconciler) (s : Survey) : Program (Except Failure CycleReport) := do
  match ← r.applyAll s.report s.resolved with
  | .error f => return .error f
  | .ok report =>
      match r.rescan with
      | none => return .ok report
      | some (pipelineId, genesis) => r.rescanWindow report pipelineId genesis

def cycleIn (r : Reconciler) (turns : Turns) : Program (Except Failure CycleReport) := do
  match ← r.surveyIn turns with
  | .error f => return .error f
  | .ok s => r.conclude s

def cycle (r : Reconciler) : Program (Except Failure CycleReport) := r.cycleIn .inOrder

end Reconciler

end RouterHistory
