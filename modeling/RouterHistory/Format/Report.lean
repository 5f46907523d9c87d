import RouterHistory.Failure
import RouterHistory.Format.History
import RouterHistory.Json.Decode
import RouterHistory.Json.Printer
import RouterHistory.Log.Line
import RouterHistory.Pipeline.Step

/-!
The JSON form of what a pipeline reports: failures, reports, forks and events, and log lines.
-/
namespace RouterHistory.Format

open Json

def failureKind : Failure → String
  | .sourceUnavailable _ => "SourceUnavailable"
  | .unknownVersion _ _ => "UnknownVersion"
  | .malformedTransaction _ _ => "MalformedTransaction"
  | .staleCheckpoint _ _ => "StaleCheckpoint"
  | .storage _ => "Storage"
  | .config _ => "Config"
  | .retryExhausted _ _ _ => "RetryExhausted"
  | .other _ => "Other"

def encodeFailure (f : Failure) : Value :=
  .object [("error", .string (failureKind f)), ("message", .string f.message)]

/-- Reads a description that holds at most `levels` failures inside each other. -/
def decodeFailureWithin : (levels : Nat) → Decoder Failure
  | 0, _, _ => none
  | levels + 1, depth, .object members => do
      let f : Fields := ⟨depth, members.filterMap fun (key, d) => key.map fun key => (key, d)⟩
      match ← f.required "kind" .text with
      | "SourceUnavailable" => return .sourceUnavailable (← f.required "message" .text)
      | "Storage" => return .storage (← f.required "message" .text)
      | "Config" => return .config (← f.required "message" .text)
      | "Other" => return .other (← f.required "message" .text)
      | "UnknownVersion" =>
          return .unknownVersion (← f.required "signature" .text) (← f.required "reason" .text)
      | "MalformedTransaction" =>
          return .malformedTransaction (← f.required "signature" .text)
            (← f.required "reason" .text)
      | "StaleCheckpoint" =>
          return .staleCheckpoint (← f.required "stored" .uint64)
            (← f.required "attempted" .uint64)
      | "RetryExhausted" =>
          return .retryExhausted (← f.required "operation" .text)
            (← f.required "attempts" .uint32) (← f.required "last" (decodeFailureWithin levels))
      | _ => none
  | _ + 1, _, _ => none

def decodeFailure : Decoder Failure := decodeFailureWithin Decoder.depthLimit

open Json

def encodeCycleReport (r : CycleReport) : Value :=
  .object [("head", .ofUInt64 r.head), ("boundary", .ofUInt64 r.boundary),
    ("finalized", .ofNat r.finalized), ("checked", .ofNat r.checked),
    ("unchanged", .ofNat r.unchanged), ("overwritten", .ofNat r.overwritten),
    ("orphaned", .ofNat r.orphaned), ("unresolved", .ofNat r.unresolved),
    ("recovered", .ofNat r.recovered), ("quarantined", .ofNat r.quarantined)]

def encodeIngestReport (r : IngestReport) : Value :=
  .object [("batches", .ofUInt64 r.batches), ("checkpoint", .ofUInt64 r.checkpoint),
    ("totals", encodeTally r.totals)]

def encodeBlock (b : Block) : Value :=
  .object [("slot", .ofUInt64 b.slot), ("blockhash", .string b.hash)]

def encodeFork (f : Fork) : Value :=
  .object [("detected_at", .ofUInt64 f.detectedAt), ("expected_parent", .string f.expectedParent),
    ("actual_parent", .string f.actualParent), ("depth", .ofNat f.depth)]

def encodeOutcome : StepOutcome → Value
  | .committed first last tally =>
      .object [("outcome", .string "Committed"), ("from", .ofUInt64 first),
        ("to", .ofUInt64 last),
        ("summary", encodeTally tally)]
  | .caughtUp slot => .object [("outcome", .string "CaughtUp"), ("at", .ofUInt64 slot)]
  | .stale slot => .object [("outcome", .string "Stale"), ("resumed_from", .ofUInt64 slot)]

def encodeEvent : Event → Value
  | .batchCommitted first last tally =>
      .object [("event", .string "BatchCommitted"), ("from", .ofUInt64 first),
        ("to", .ofUInt64 last), ("summary", encodeTally tally)]
  | .caughtUp slot => .object [("event", .string "CaughtUp"), ("at", .ofUInt64 slot)]
  | .quarantined signature slot reason =>
      .object [("event", .string "Quarantined"), ("signature", encodeSignature signature),
        ("slot", .ofUInt64 slot), ("reason", .string reason)]
  | .forkDetected slot depth =>
      .object [("event", .string "ForkDetected"), ("slot", .ofUInt64 slot),
        ("depth", .ofNat depth)]
  | .staleCheckpoint resumedFrom =>
      .object [("event", .string "StaleCheckpoint"), ("resumed_from", .ofUInt64 resumedFrom)]
  | .sourceUnhealthy error =>
      .object [("event", .string "SourceUnhealthy"), ("error", .string error)]
  | .reconciled report =>
      .object [("event", .string "Reconciled"), ("report", encodeCycleReport report)]
  | .phaseChanged phase =>
      .object [("event", .string "StateChanged"), ("state", .string phase.display)]

open Json

def encodeLogLine (l : Log.Line) : Value :=
  .object [("level", .string l.level.name), ("target", .string l.topic.target),
    ("message", .string l.text)]

def writeLogLine (json : Bool) (l : Log.Line) : String :=
  if json then (encodeLogLine l).compact else l.render

end RouterHistory.Format
