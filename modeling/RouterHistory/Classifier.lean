import RouterHistory.Source
import RouterHistory.Record
import RouterHistory.Failure

/-!
Classification turns a delivered transaction into a history row. The router version is a marker
byte in the data of the first instruction that invokes a router program, where instructions at
the top level come before inner ones. The outcome depends on the transaction and the settings
alone.
-/
namespace RouterHistory

/-- Which programs are routers, and how their version is found. -/
structure Classifier where
  programIds : List String
  /-- The place of the marker byte in the instruction data. -/
  markerOffset : UInt64
  knownVersions : List UInt16
  deriving DecidableEq, Repr

/-- Why a transaction has no row. -/
inductive Rejection where
  | signatureMalformed
  | blockTimeMissing
  | blockTimeOutOfRange (seconds : Int)
  | noRouterInstruction
  | dataUndecodable (fault : Base58.Fault)
  | dataTooShort (offset : UInt64)
  | markerUnknown (version : UInt16)
  deriving DecidableEq, Repr

namespace Rejection

def reason : Rejection → String
  | .signatureMalformed => "signature is not a 64-byte base58 value"
  | .blockTimeMissing => "missing block time"
  | .blockTimeOutOfRange seconds => s!"block time {seconds} out of range"
  | .noRouterInstruction => "no router instruction"
  | .dataUndecodable fault => s!"undecodable instruction data: {fault.message}"
  | .dataTooShort offset => s!"instruction data too short for marker at offset {offset}"
  | .markerUnknown version => s!"unrecognised version marker {version}"

/-- The failure of the transaction with this signature: what is wrong with the transaction
itself is malformed, what is wrong with its router instruction is an unknown version. -/
def failure (signature : Signature) : Rejection → Failure
  | .signatureMalformed => .malformedTransaction signature.text signatureMalformed.reason
  | .blockTimeMissing => .malformedTransaction signature.text blockTimeMissing.reason
  | .blockTimeOutOfRange seconds =>
      .malformedTransaction signature.text (blockTimeOutOfRange seconds).reason
  | rejection => .unknownVersion signature.text rejection.reason

theorem isQuarantinable_failure (signature : Signature) (r : Rejection) :
    (r.failure signature).isQuarantinable = true := by
  cases r <;> rfl

end Rejection

namespace Classifier

def empty : Classifier := ⟨[], 0, []⟩

def programIdSize : Nat := 32

/-- What makes the settings unusable. -/
inductive Flaw where
  | noProgramId
  | noKnownVersion
  | programIdInvalid (id : String)
  deriving DecidableEq, Repr

def Flaw.message : Flaw → String
  | .noProgramId => "classifier needs at least one router program id"
  | .noKnownVersion => "classifier needs at least one known router version"
  | .programIdInvalid id => s!"invalid router program id '{id}'"

/-- The first flaw of the settings. -/
def flaw? (c : Classifier) : Option Flaw :=
  if c.programIds.isEmpty then some .noProgramId
  else if c.knownVersions.isEmpty then some .noKnownVersion
  else (c.programIds.find? fun id => !Base58.decodesTo programIdSize id).map .programIdInvalid

def isRouter (c : Classifier) (instruction : Instruction) : Bool :=
  c.programIds.contains instruction.programId

def isRouterTransaction (c : Classifier) (tx : Transaction) : Bool := tx.invokesAny c.programIds

def routerInstruction? (c : Classifier) (tx : Transaction) : Option Instruction :=
  tx.allInstructions.find? c.isRouter

def versionIn (c : Classifier) (data : String) : Except Rejection UInt16 :=
  match Base58.decode data with
  | .error fault => .error (.dataUndecodable fault)
  | .ok bytes =>
      match bytes[c.markerOffset.toNat]? with
      | none => .error (.dataTooShort c.markerOffset)
      | some marker =>
          if c.knownVersions.contains marker.toUInt16 then .ok marker.toUInt16
          else .error (.markerUnknown marker.toUInt16)

def version (c : Classifier) (tx : Transaction) : Except Rejection UInt16 :=
  match c.routerInstruction? tx with
  | none => .error .noRouterInstruction
  | some instruction => c.versionIn instruction.data

def classify (c : Classifier) (tx : Transaction) : Except Rejection Record :=
  if tx.signature.isWellFormed then
    match tx.blockTime with
    | none => .error .blockTimeMissing
    | some seconds =>
        match Instant.ofSeconds? seconds with
        | none => .error (.blockTimeOutOfRange seconds)
        | some timestamp =>
            match c.version tx with
            | .error rejection => .error rejection
            | .ok version => .ok ⟨tx.signature, timestamp, tx.succeeded, version⟩
  else .error .signatureMalformed

end Classifier

end RouterHistory
