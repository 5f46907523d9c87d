import RouterHistory.Slot
import RouterHistory.Signature

/-!
Failures of ingestion and reconciliation, with the wording of each and the four questions that
decide how a failure is handled.
-/
namespace RouterHistory

inductive Failure where
  | sourceUnavailable (reason : String)
  | unknownVersion (signature reason : String)
  | malformedTransaction (signature reason : String)
  | staleCheckpoint (stored attempted : Slot)
  | storage (reason : String)
  | config (reason : String)
  | retryExhausted (operation : String) (attempts : UInt32) (last : Failure)
  | other (text : String)
  deriving DecidableEq, Repr

namespace Failure

def message : Failure → String
  | .sourceUnavailable reason => s!"source unavailable: {reason}"
  | .unknownVersion signature reason => s!"unknown router version for {signature}: {reason}"
  | .malformedTransaction signature reason => s!"malformed transaction {signature}: {reason}"
  | .staleCheckpoint stored attempted =>
      s!"stale checkpoint: stored slot is {stored}, attempted advance to {attempted}"
  | .storage reason => s!"storage error: {reason}"
  | .config reason => s!"configuration error: {reason}"
  | .retryExhausted operation attempts last =>
      s!"{operation} failed after {attempts} attempts: " ++ last.message
  | .other text => text

/-- Holds of a failure that may pass when the call is made again. -/
def isTransient : Failure → Bool
  | .sourceUnavailable _ => true
  | .storage _ => true
  | _ => false

/-- Holds of a failure that concerns one transaction and not the whole batch. -/
def isQuarantinable : Failure → Bool
  | .unknownVersion _ _ => true
  | .malformedTransaction _ _ => true
  | _ => false

def isStaleCheckpoint : Failure → Bool
  | .staleCheckpoint _ _ => true
  | _ => false

/-- Holds of a failure whose cause is the chain source. -/
def isSourceFailure : Failure → Bool
  | .sourceUnavailable _ => true
  | .retryExhausted _ _ last => last.isSourceFailure
  | _ => false

def notInitialized (pipelineId : String) : Failure :=
  .storage s!"checkpoint for '{pipelineId}' not initialized"

def checkpointMissing (pipelineId : String) : Failure :=
  .storage s!"checkpoint '{pipelineId}' missing"

end Failure

end RouterHistory
