import RouterHistory.Format.Report
import RouterHistory.Format.Settings
import RouterHistory.Json.Printer

/-!
What commands print: reports as JSON over several lines, and the texts about the program itself.
-/
namespace RouterHistory.CommandLine

open Json Format

/-- The checkpoint of a pipeline and the sizes of the tables. -/
structure Overview where
  pipelineId : String
  checkpoint : Option Checkpoint
  rows : Nat
  provisional : Nat
  quarantined : Nat
  deriving DecidableEq, Repr

inductive Output where
  | version
  | help
  | defaults
  | ingested (report : IngestReport)
  | followed (checkpoint : Checkpoint)
  | reconciled (report : CycleReport)
  | status (overview : Overview)
  | entry (signature : Signature) (state : Lifecycle) (record : Option Record)
  | quarantine (entries : List Quarantined)
  deriving DecidableEq, Repr

namespace Output

def versionText : String := "txhistory 0.1.0"

def helpText : String :=
  String.intercalate "\n" ["Ingest, reconcile, and inspect router transaction history", "",
    "Usage: txhistory [options] <command>", "",
    "Commands:",
    "  ingest      --fixture <file> --config <file> [--db <path>] [--follow]",
    "  reconcile   --fixture <file> --config <file> [--db <path>]",
    "  status      [--db <path>] [--config <file>]",
    "  show        --signature <base58> [--db <path>]",
    "  quarantine  [--db <path>]",
    "  info", "",
    "Options:",
    "  --log-level <level>",
    "  --json-logs",
    "  --log-component <name>=<level>",
    "  --version",
    "  --help"]

def defaultsHeading : String :=
  String.intercalate "\n" ["txhistory v0.1.0",
    "  Storage backends: memory, SQLite (this binary), Postgres (feature: postgres)",
    "  Default pipeline configuration:", ""]

def encodeOverview (o : Overview) : Value :=
  .object [("pipeline_id", .string o.pipelineId),
    ("checkpoint", .ofOption encodeCheckpoint o.checkpoint), ("rows", .ofNat o.rows),
    ("provisional", .ofNat o.provisional), ("quarantined", .ofNat o.quarantined)]

def encodeEntry (signature : Signature) (state : Lifecycle) (record : Option Record) : Value :=
  .object [("signature", encodeSignature signature), ("state", .string state.display),
    ("record", .ofOption encodeRecord record)]

/-- The text without the end of its last line. Looking things up gives sorted keys, and reports
keep the order of their fields. -/
def body : Output → String
  | version => versionText
  | help => helpText
  | defaults => defaultsHeading ++ (encodeSettings .default).pretty
  | ingested report => (encodeIngestReport report).pretty
  | followed checkpoint => (encodeCheckpoint checkpoint).pretty
  | reconciled report => (encodeCycleReport report).pretty
  | status overview => (encodeOverview overview).sorted.pretty
  | entry signature state record => (encodeEntry signature state record).sorted.pretty
  | quarantine entries => (Value.ofList encodeQuarantined entries).pretty

def text (o : Output) : String := o.body ++ "\n"

end Output

end RouterHistory.CommandLine
