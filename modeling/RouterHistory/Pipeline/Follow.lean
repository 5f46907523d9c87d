import RouterHistory.Pipeline.Reconciler

/-!
Following the chain: the pipeline steps until it is told to stop, polling once it has caught up
and pausing while the source is unavailable, and a second task reconciles at intervals and after
forks. Stopping is seen between steps only.
-/
namespace RouterHistory.Pipeline

def enter (p : Pipeline) (phase : Phase) : Program Pipeline :=
  if p.phase = phase then return p
  else do
    Program.emit (.phaseChanged phase)
    return { p with phase }

/-- What to do after a step. -/
inductive Pace where
  | goOn
  | pause (milliseconds : UInt64)
  | fail (failure : Failure)

def settle (p : Pipeline) : Except Failure StepOutcome → Program (Pace × Pipeline)
  | .ok (.committed _ _ _) => do return (.goOn, ← p.enter .catchingUp)
  | .ok (.stale _) => do return (.goOn, ← p.enter .catchingUp)
  | .ok (.caughtUp _) => do return (.pause p.settings.pollInterval, ← p.enter .live)
  | .error f => do
      if f.isSourceFailure then
        let p ← p.enter .unhealthy
        Program.emit (.sourceUnhealthy f.message)
        return (.pause p.settings.unhealthyPause, p)
      else return (.fail f, p)

/-- Steps until shutdown or failure; nothing if that takes more than `limit` steps. -/
def loop : (limit : Nat) → Pipeline → Program (Option (Except Failure Unit) × Pipeline)
  | 0, p => return (none, p)
  | limit + 1, p => do
      if ← Program.shutdownFlag then return (some (.ok ()), ← p.enter .stopping)
      else
        let (outcome, p) ← p.step
        match ← p.settle outcome with
        | (.goOn, p) => loop limit p
        | (.fail f, p) => return (some (.error f), p)
        | (.pause milliseconds, p) =>
            if ← Program.wait (.pause milliseconds) then
              return (some (.ok ()), ← p.enter .stopping)
            else loop limit p

def drive (limit : Nat) (p : Pipeline) :
    Program (Option (Except Failure Unit) × Pipeline) := do
  match ← p.load with
  | (.error f, p) => return (some (.error f), p)
  | (.ok _, p) => loop limit (← p.enter .catchingUp)

def finalCheckpoint (p : Pipeline) : Program (Except Failure Checkpoint) := do
  match ← Program.store (.checkpoint p.settings.id) with
  | .error f => return .error f
  | .ok (none : Option Checkpoint) => return .error (.checkpointMissing p.settings.id)
  | .ok (some checkpoint : Option Checkpoint) => return .ok checkpoint

def follow (limit : Nat) (p : Pipeline) : Program (Option (Except Failure Checkpoint)) := do
  let (result, p) ← p.drive limit
  let _ ← Program.wait .reconcilerEnd
  match result with
  | none => return none
  | some (.error f) =>
      let _ ← p.enter .failed
      return some (.error f)
  | some (.ok ()) =>
      let p ← p.enter .stopped
      return some (← p.finalCheckpoint)

end RouterHistory.Pipeline

namespace RouterHistory.Reconciler

/-- Runs cycles until told to stop, at most `limit` of them. A failed cycle says nothing. -/
def loop (r : Reconciler) (interval : UInt64) : (limit : Nat) → Program Unit
  | 0 => return ()
  | limit + 1 => do
      if ← Program.wait (.cycle interval) then return ()
      else
        match ← r.cycle with
        | .ok report => Program.emit (.reconciled report)
        | .error _ => pure ()
        loop r interval limit

end RouterHistory.Reconciler
