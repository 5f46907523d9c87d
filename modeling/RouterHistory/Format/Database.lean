import RouterHistory.Json.Decode
import RouterHistory.Json.Printer
import RouterHistory.Store.Backend

/-!
Database files: a heading line and the rows of the four tables as JSON, after the word on whether
there is a log. Each row is the list of its columns, with slots as signed numbers.
-/
namespace RouterHistory.Format

open Json

def databaseHeading : String := "txhistory database\n"

def encodeColumn (slot : Int64) : Value := .ofInt slot.toInt

def decodeColumn : Decoder Int64 := Decoder.int64.map Int64.ofInt

def encodeHistoryRow (row : Signature × HistoryRow) : Value :=
  .array [.string row.1.text, .ofInt row.2.time, .bool row.2.isSuccess,
    .ofInt row.2.routerVersion]

def decodeHistoryRow : Decoder (Signature × HistoryRow) := fun depth doc => do
  let f ← Fields.of ["signature", "time", "success", "version"] depth doc
  return (⟨← f.required "signature" .text⟩, ⟨← f.required "time" .int64,
    ← f.required "success" .bool, ← f.required "version" .int64⟩)

def encodeProvisionalRow (row : Signature × Int64) : Value :=
  .array [.string row.1.text, encodeColumn row.2]

def decodeProvisionalRow : Decoder (Signature × Int64) := fun depth doc => do
  let f ← Fields.of ["signature", "slot"] depth doc
  return (⟨← f.required "signature" .text⟩, ← f.required "slot" decodeColumn)

def encodeQuarantineRow (row : Signature × QuarantineRow) : Value :=
  .array [.string row.1.text, encodeColumn row.2.slot, .string row.2.reason,
    .ofInt row.2.detectedAt]

def decodeQuarantineRow : Decoder (Signature × QuarantineRow) := fun depth doc => do
  let f ← Fields.of ["signature", "slot", "reason", "detected"] depth doc
  return (⟨← f.required "signature" .text⟩, ⟨← f.required "slot" decodeColumn,
    ← f.required "reason" .text, ← f.required "detected" .int64⟩)

def encodeCheckpointRow (row : String × CheckpointRow) : Value :=
  .array [.string row.1, encodeColumn row.2.slot, encodeColumn row.2.revision,
    .ofInt row.2.updatedAt]

def decodeCheckpointRow : Decoder (String × CheckpointRow) := fun depth doc => do
  let f ← Fields.of ["pipeline", "slot", "revision", "updated"] depth doc
  return (← f.required "pipeline" .text, ⟨← f.required "slot" decodeColumn,
    ← f.required "revision" decodeColumn, ← f.required "updated" .int64⟩)

def encodeKept (k : Kept) : Value :=
  .object [("logged", .bool k.logged),
    ("history", .ofList encodeHistoryRow k.tables.history.toList),
    ("provisional", .ofList encodeProvisionalRow k.tables.provisional.toList),
    ("quarantine", .ofList encodeQuarantineRow k.tables.quarantine.toList),
    ("checkpoints", .ofList encodeCheckpointRow k.tables.checkpoints.toList)]

def decodeKept : Decoder Kept := fun depth doc => do
  let f ← Fields.of ["logged", "history", "provisional", "quarantine", "checkpoints"] depth doc
  let tables : Tables := {
    history := .ofList (← f.required "history" decodeHistoryRow.list)
    provisional := .ofList (← f.required "provisional" decodeProvisionalRow.list)
    quarantine := .ofList (← f.required "quarantine" decodeQuarantineRow.list)
    checkpoints := .ofList (← f.required "checkpoints" decodeCheckpointRow.list) }
  return ⟨tables, ← f.required "logged" .bool⟩

def writeDatabase (k : Kept) : String := databaseHeading ++ (encodeKept k).compact ++ "\n"

/-- Reads a database file; nothing for any other text. -/
def readDatabase? (text : String) : Option Kept :=
  let cs := text.toList
  let heading := databaseHeading.toList
  if heading.isPrefixOf cs then decodeKept.ofText (String.ofList (cs.drop heading.length))
  else none

end RouterHistory.Format
