import RouterHistory.Backoff
import RouterHistory.Classifier
import RouterHistory.Text.Basic

/-!
The settings of a pipeline, their defaults, what makes them unusable, and single changes to them.
-/
namespace RouterHistory

structure Settings where
  /-- The name of the pipeline, which is also the name of its checkpoint. -/
  id : String
  /-- Where the checkpoint starts; the first slot ingested is the next one. -/
  genesisSlot : Slot
  /-- The largest number of slots in a batch. -/
  batchSize : UInt64
  /-- Milliseconds between polls once the source's head is reached. -/
  pollInterval : UInt64
  /-- The number of slots below the head that may still be reorganised. -/
  finalityDepth : UInt64
  /-- Milliseconds between reconcile cycles. -/
  reconcileInterval : UInt64
  /-- The number of signatures that are resolved at a time. -/
  resolveConcurrency : UInt64
  /-- The number of recent blocks that are kept to check parents. -/
  trackerWindow : UInt64
  /-- Milliseconds to pause when the source stays unavailable. -/
  unhealthyPause : UInt64
  backoff : Backoff
  classifier : Classifier

namespace Settings

def default : Settings where
  id := "default"
  genesisSlot := 0
  batchSize := 100
  pollInterval := 400
  finalityDepth := 32
  reconcileInterval := 10000
  resolveConcurrency := 8
  trackerWindow := 256
  unhealthyPause := 30000
  backoff := .default
  classifier := .empty

/-- What makes settings unusable. -/
inductive Flaw where
  | idBlank
  | batchSizeZero
  | concurrencyZero
  | multiplierBelowOne
  | classifier (flaw : Classifier.Flaw)
  deriving DecidableEq, Repr

def Flaw.message : Flaw → String
  | .idBlank => "pipeline id must not be empty"
  | .batchSizeZero => "batch_size must be at least 1"
  | .concurrencyZero => "resolve_concurrency must be at least 1"
  | .multiplierBelowOne => "retry.multiplier must be >= 1.0"
  | .classifier flaw => flaw.message

def Flaw.failure (f : Flaw) : Failure := .config f.message

def flaw? (s : Settings) : Option Flaw :=
  if Text.isAllBlank s.id then some .idBlank
  else if s.batchSize = 0 then some .batchSizeZero
  else if s.resolveConcurrency = 0 then some .concurrencyZero
  else if s.backoff.multiplier < 1.0 then some .multiplierBelowOne
  else s.classifier.flaw?.map .classifier

def validated (s : Settings) : Except Failure Settings :=
  match s.flaw? with
  | some flaw => .error flaw.failure
  | none => .ok s

/-- A change of one field. -/
inductive Change where
  | id (value : String)
  | genesisSlot (value : Slot)
  | batchSize (value : UInt64)
  | pollInterval (value : UInt64)
  | finalityDepth (value : UInt64)
  | reconcileInterval (value : UInt64)
  | resolveConcurrency (value : UInt64)
  | trackerWindow (value : UInt64)
  | unhealthyPause (value : UInt64)
  | backoff (value : Backoff)
  | classifier (value : Classifier)

def change (s : Settings) : Change → Settings
  | .id value => { s with id := value }
  | .genesisSlot value => { s with genesisSlot := value }
  | .batchSize value => { s with batchSize := value }
  | .pollInterval value => { s with pollInterval := value }
  | .finalityDepth value => { s with finalityDepth := value }
  | .reconcileInterval value => { s with reconcileInterval := value }
  | .resolveConcurrency value => { s with resolveConcurrency := value }
  | .trackerWindow value => { s with trackerWindow := value }
  | .unhealthyPause value => { s with unhealthyPause := value }
  | .backoff value => { s with backoff := value }
  | .classifier value => { s with classifier := value }

end Settings

end RouterHistory
