import RouterHistory.Format.History
import RouterHistory.Json.Decode
import RouterHistory.Settings

/-!
The JSON form of settings, and settings and recorded streams as files. Every field of settings may
be left out and then has its default. A file that cannot be read or understood is a failure of the
configuration, and settings from a file have to be usable.
-/
namespace RouterHistory.Format

open Json

def decodeClassifier : Decoder Classifier := fun depth doc => do
  let f ← Fields.of ["router_program_ids", "version_marker_offset", "known_versions"] depth doc
  return {
    programIds := ← f.optional "router_program_ids" [] Decoder.text.list
    markerOffset := ← f.optional "version_marker_offset" 0 .uint64
    knownVersions := ← f.optional "known_versions" [] Decoder.uint16.list }

def encodeClassifier (c : Classifier) : Value :=
  .object [("router_program_ids", .ofList .string c.programIds),
    ("version_marker_offset", .ofUInt64 c.markerOffset),
    ("known_versions", .ofList (fun v => .ofNat v.toNat) c.knownVersions)]

def decodeBackoff : Decoder Backoff := fun depth doc => do
  let f ← Fields.of
    ["max_retries", "initial_backoff_ms", "max_backoff_ms", "multiplier"] depth doc
  let d := Backoff.default
  return {
    maxRetries := ← f.optional "max_retries" d.maxRetries .uint32
    initialDelay := ← f.optional "initial_backoff_ms" d.initialDelay .uint64
    maxDelay := ← f.optional "max_backoff_ms" d.maxDelay .uint64
    multiplier := ← f.optional "multiplier" d.multiplier .float }

def encodeBackoff (b : Backoff) : Value :=
  .object [("max_retries", .ofNat b.maxRetries.toNat),
    ("initial_backoff_ms", .ofUInt64 b.initialDelay), ("max_backoff_ms", .ofUInt64 b.maxDelay),
    ("multiplier", .number (.float b.multiplier))]

def settingsFields : List String :=
  ["id", "genesis_slot", "batch_size", "poll_interval_ms", "finality_depth",
    "reconcile_interval_ms", "resolve_concurrency", "tracker_window", "unhealthy_pause_ms",
    "retry", "classifier"]

def decodeSettings : Decoder Settings := fun depth doc => do
  let f ← Fields.of settingsFields depth doc
  let d := Settings.default
  return {
    id := ← f.optional "id" d.id .text
    genesisSlot := ← f.optional "genesis_slot" d.genesisSlot .uint64
    batchSize := ← f.optional "batch_size" d.batchSize .uint64
    pollInterval := ← f.optional "poll_interval_ms" d.pollInterval .uint64
    finalityDepth := ← f.optional "finality_depth" d.finalityDepth .uint64
    reconcileInterval := ← f.optional "reconcile_interval_ms" d.reconcileInterval .uint64
    resolveConcurrency := ← f.optional "resolve_concurrency" d.resolveConcurrency .uint64
    trackerWindow := ← f.optional "tracker_window" d.trackerWindow .uint64
    unhealthyPause := ← f.optional "unhealthy_pause_ms" d.unhealthyPause .uint64
    backoff := ← f.optional "retry" d.backoff decodeBackoff
    classifier := ← f.optional "classifier" d.classifier decodeClassifier }

def encodeSettings (s : Settings) : Value :=
  .object [("id", .string s.id), ("genesis_slot", .ofUInt64 s.genesisSlot),
    ("batch_size", .ofUInt64 s.batchSize), ("poll_interval_ms", .ofUInt64 s.pollInterval),
    ("finality_depth", .ofUInt64 s.finalityDepth),
    ("reconcile_interval_ms", .ofUInt64 s.reconcileInterval),
    ("resolve_concurrency", .ofUInt64 s.resolveConcurrency),
    ("tracker_window", .ofUInt64 s.trackerWindow),
    ("unhealthy_pause_ms", .ofUInt64 s.unhealthyPause), ("retry", encodeBackoff s.backoff),
    ("classifier", encodeClassifier s.classifier)]

def decodeChange (method : String) : Decoder Settings.Change :=
  match method with
  | "id" => Decoder.text.map .id
  | "genesis_slot" => Decoder.uint64.map .genesisSlot
  | "batch_size" => Decoder.uint64.map .batchSize
  | "poll_interval_ms" => Decoder.uint64.map .pollInterval
  | "finality_depth" => Decoder.uint64.map .finalityDepth
  | "reconcile_interval_ms" => Decoder.uint64.map .reconcileInterval
  | "resolve_concurrency" => Decoder.uint64.map .resolveConcurrency
  | "tracker_window" => Decoder.uint64.map .trackerWindow
  | "unhealthy_pause_ms" => Decoder.uint64.map .unhealthyPause
  | "retry" => decodeBackoff.map .backoff
  | "classifier" => fun depth doc => do
      match doc with
      | .array [id, versions, offset] =>
          let id ← Decoder.text depth id
          let versions ← Decoder.uint16.list depth versions
          let offset ← Decoder.uint64 depth offset
          return .classifier ⟨[id], offset, versions⟩
      | _ => none
  | _ => fun _ _ => none

open Json

def unreadable : Failure := .config "read"

def unparsable : Failure := .config "parse"

def readFile (d : Decoder α) : Option String → Except Failure α
  | none => .error unreadable
  | some text =>
      match d.ofText text with
      | none => .error unparsable
      | some a => .ok a

def readSettings (content : Option String) : Except Failure Settings :=
  match readFile decodeSettings content with
  | .error f => .error f
  | .ok s => s.validated

def readRecording (content : Option String) : Except Failure Recording :=
  readFile decodeRecording content

end RouterHistory.Format
