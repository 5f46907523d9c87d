import RouterHistory.Instant.Timestamp
import RouterHistory.Json.Decode
import RouterHistory.Source
import RouterHistory.Store.Call

/-!
The JSON form of what a source answers, of recorded streams, and of what a history store keeps.
-/
namespace RouterHistory.Format

open Json

def decodeSignature : Decoder Signature := Decoder.text.map Signature.mk

def encodeSignature (s : Signature) : Value := .string s.text

def decodeInstruction : Decoder Instruction := fun depth doc => do
  let f ← Fields.of ["program_id", "data"] depth doc
  return ⟨← f.required "program_id" .text, ← f.optional "data" "" .text⟩

def encodeInstruction (i : Instruction) : Value :=
  .object [("program_id", .string i.programId), ("data", .string i.data)]

def decodeTransaction : Decoder Transaction := fun depth doc => do
  let f ← Fields.of
    ["signature", "slot", "block_time", "err", "instructions", "inner_instructions"] depth doc
  return {
    signature := ← f.required "signature" decodeSignature
    slot := ← f.required "slot" .uint64
    blockTime := ← f.optional "block_time" none (Decoder.int64.optional)
    error := ← f.optional "err" none (Decoder.value.optional)
    instructions := ← f.optional "instructions" [] decodeInstruction.list
    innerInstructions := ← f.optional "inner_instructions" [] decodeInstruction.list }

def encodeTransaction (tx : Transaction) : Value :=
  .object [("signature", encodeSignature tx.signature), ("slot", .ofUInt64 tx.slot),
    ("block_time", .ofOption .ofInt tx.blockTime), ("err", .ofOption id tx.error),
    ("instructions", .ofList encodeInstruction tx.instructions),
    ("inner_instructions", .ofList encodeInstruction tx.innerInstructions)]

def decodeDelivery : Decoder Delivery := fun depth doc => do
  let f ← Fields.of
    ["slot", "blockhash", "parent_blockhash", "block_time", "transactions"] depth doc
  return {
    slot := ← f.required "slot" .uint64
    hash := ← f.optional "blockhash" none (Decoder.text.optional)
    parentHash := ← f.optional "parent_blockhash" none (Decoder.text.optional)
    blockTime := ← f.optional "block_time" none (Decoder.int64.optional)
    transactions := ← f.optional "transactions" [] decodeTransaction.list }

def encodeDelivery (d : Delivery) : Value :=
  .object [("slot", .ofUInt64 d.slot), ("blockhash", .ofOption .string d.hash),
    ("parent_blockhash", .ofOption .string d.parentHash),
    ("block_time", .ofOption .ofInt d.blockTime),
    ("transactions", .ofList encodeTransaction d.transactions)]

def encodeVerdict : Verdict → Value
  | .absent => .string "absent"
  | .canonical tx => .object [("canonical", encodeTransaction tx)]

def decodeRecording : Decoder Recording := fun depth doc => do
  let f ← Fields.of ["head", "slots"] depth doc
  let head ← f.optional "head" none (Decoder.uint64.optional)
  return .ofDeliveries head (← f.required "slots" decodeDelivery.list)

open Json

def decodeTimestamp : Decoder Instant := Decoder.text.filterMap Timestamp.read?

def encodeTimestamp (i : Instant) : Value := .string (Timestamp.write i)

def decodeRecord : Decoder Record := fun depth doc => do
  let f ← Fields.of ["signature", "timestamp", "is_success", "router_version"] depth doc
  return {
    signature := ← f.required "signature" decodeSignature
    timestamp := ← f.required "timestamp" decodeTimestamp
    isSuccess := ← f.required "is_success" .bool
    routerVersion := ← f.required "router_version" .uint16 }

def encodeRecord (r : Record) : Value :=
  .object [("signature", encodeSignature r.signature), ("timestamp", encodeTimestamp r.timestamp),
    ("is_success", .bool r.isSuccess), ("router_version", .ofNat r.routerVersion.toNat)]

def decodeEntry : Decoder Entry := fun depth doc => do
  let f ← Fields.of ["record", "slot"] depth doc
  return ⟨← f.required "record" decodeRecord, ← f.required "slot" .uint64⟩

def encodeMark (m : Mark) : Value :=
  .object [("signature", encodeSignature m.signature), ("slot", .ofUInt64 m.slot)]

def decodeQuarantined : Decoder Quarantined := fun depth doc => do
  let f ← Fields.of ["signature", "slot", "reason", "detected_at"] depth doc
  return {
    signature := ← f.required "signature" decodeSignature
    slot := ← f.required "slot" .uint64
    reason := ← f.required "reason" .text
    detectedAt := ← f.required "detected_at" .int64 }

def encodeQuarantined (q : Quarantined) : Value :=
  .object [("signature", encodeSignature q.signature), ("slot", .ofUInt64 q.slot),
    ("reason", .string q.reason), ("detected_at", .ofInt q.detectedAt)]

def decodeTally : Decoder Tally := fun depth doc => do
  let f ← Fields.of ["inserted", "unchanged", "overwritten", "quarantined"] depth doc
  return {
    inserted := ← f.required "inserted" .uint64
    unchanged := ← f.required "unchanged" .uint64
    overwritten := ← f.required "overwritten" .uint64
    quarantined := ← f.required "quarantined" .uint64 }

def encodeTally (t : Tally) : Value :=
  .object [("inserted", .ofUInt64 t.inserted), ("unchanged", .ofUInt64 t.unchanged),
    ("overwritten", .ofUInt64 t.overwritten), ("quarantined", .ofUInt64 t.quarantined)]

def encodeCheckpoint (c : Checkpoint) : Value :=
  .object [("pipeline_id", .string c.pipelineId), ("slot", .ofUInt64 c.slot),
    ("revision", .ofUInt64 c.revision), ("updated_at", .ofInt c.updatedAt)]

end RouterHistory.Format
