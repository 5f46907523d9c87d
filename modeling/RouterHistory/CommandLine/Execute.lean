import RouterHistory.CommandLine.Arguments
import RouterHistory.CommandLine.Disk
import RouterHistory.CommandLine.Output
import RouterHistory.Format.Settings
import RouterHistory.Pipeline.Follow
import RouterHistory.Simulation.Schedule
import RouterHistory.Simulation.World

/-!
The commands. A command reads its files in a fixed order, settings first, then the recording,
then the database, and stops at the first that cannot be used. What it leaves in the database
stays in the file, whether it succeeds or fails later on.
-/
namespace RouterHistory.CommandLine

open Simulation

abbrev Complaint := List String

/-- Why a command gave no output. -/
inductive Refusal where
  | complaint (complaint : Complaint)
  /-- The program broke off without saying why. -/
  | crash
  deriving DecidableEq, Repr

/-- How a command ended. -/
structure Ending where
  result : Except Refusal Output
  /-- What the command logs, in order. -/
  lines : List Log.Line
  /-- What the user is told whatever the log settings are. -/
  notice : Option String
  disk : Disk

namespace Ending

def refused (d : Disk) (complaint : Complaint) : Ending :=
  ⟨.error (.complaint complaint), [], none, d⟩

def crashed (d : Disk) : Ending := ⟨.error .crash, [], none, d⟩

def isLogged (e : Ending) (f : Log.Filter) : Bool :=
  !e.result.toBool || e.notice.isSome || e.lines.any f.admits

end Ending

def plainly : Except Failure Output → Except Refusal Output
  | .ok output => .ok output
  | .error f => .error (.complaint [f.message])

/-- Goes on with what a step gave. When it failed the command ends and says what it was for. -/
def within (d : Disk) (purpose : String) : Except Failure α → Except Ending α
  | .ok a => .ok a
  | .error f => .error (.refused d [purpose, f.message])

def loadSettings (d : Disk) (path : String) : Except Ending Settings :=
  within d s!"loading pipeline config {path}" (Format.readSettings (d.text? path))

def loadRecording (d : Disk) (path : String) : Except Ending Recording :=
  within d s!"loading replay fixture {path}" (Format.readRecording (d.text? path))

def openDatabase (d : Disk) (argument : String) : Except Ending (Disk.Opened × Disk) :=
  let (result, d) := d.openDatabase argument
  (within d s!"opening history database {argument}" result).map fun opened =>
    (opened, d.keep opened opened.tables)

def worldOf (now : Int) (recording : Recording) (backend : Backend) : World where
  now := now
  recording := recording
  outage := none
  deliveries := none
  backend := backend
  disruptions := .none
  hiddenCheckpoints := 0
  events := []
  signalled := false

/-- What ingesting and reconciling work with. -/
structure Setup where
  pipeline : Pipeline
  world : World
  opened : Disk.Opened
  disk : Disk

namespace Setup

def prepare (now : Int) (d : Disk) (stream config database : String) : Except Ending Setup := do
  let settings ← loadSettings d config
  let recording ← loadRecording d stream
  let (opened, d) ← openDatabase d database
  match Pipeline.create? settings with
  | none => throw (.crashed d)
  | some (.error f) => throw (.refused d [f.message])
  | some (.ok pipeline) => return ⟨pipeline, worldOf now recording opened.backend, opened, d⟩

def diskAfter (s : Setup) (w : World) : Disk :=
  match w.backend with
  | .database _ tables => s.disk.keep s.opened tables
  | _ => s.disk

def ending (s : Setup) (w : World) (lines : List Log.Line) (result : Except Failure Output) :
    Ending :=
  ⟨plainly result, .statement :: lines, none, s.diskAfter w⟩

/-- More steps than any run takes: each step that stores a batch moves the checkpoint on. -/
def stepLimit : Nat := UInt64.size

def unfinished : Failure := .other "run ended early"

def ingest (s : Setup) : Ending :=
  let (result, w) := s.world.run (s.pipeline.catchUp stepLimit .start)
  let (events, w) := w.takeEvents
  let lines := events.flatMap Log.Line.ofEvent
  match result with
  | some (some result, _) => s.ending w lines (result.map .ingested)
  | _ => s.ending w lines (.error unfinished)

def reconcile (s : Setup) : Ending :=
  let (result, w) := s.world.run (Reconciler.ofSettings s.pipeline.settings).cycle
  match result with
  | some (.ok report) => s.ending w (Log.Line.ofCycle report) (.ok (.reconciled report))
  | some (.error f) => s.ending w [] (.error f)
  | none => s.ending w [] (.error unfinished)

end Setup

abbrev Following := Clockwork World (Option (Except Failure Checkpoint))

namespace Following

open Setup (stepLimit unfinished)

def start (s : Setup) : Following :=
  let settings := s.pipeline.settings
  Clockwork.start s.world false false (s.pipeline.follow stepLimit)
    ((Reconciler.ofSettings settings).loop settings.reconcileInterval stepLimit)

def settle (f : Following) : Following := Clockwork.settle World.answer stepLimit f

def interrupt (f : Following) : Following :=
  { f with shared := { f.shared with flag := f.shared.flag.set true } }

/-- Moves the clocks on to so many milliseconds after the start, and to this time of day. -/
def atTime (milliseconds : Nat) (now : Int) (f : Following) : Following :=
  { f with now := milliseconds, shared := { f.shared with world := { f.shared.world with now } } }

def finish (f : Following) : Following := (Clockwork.finish World.answer stepLimit f).alone.2

def takeLines (f : Following) : List Log.Line × Following :=
  let (events, world) := f.shared.world.takeEvents
  (events.flatMap Log.Line.ofEvent, { f with shared := { f.shared with world } })

def ending (s : Setup) (f : Following) (lines : List Log.Line) : Ending :=
  let lines := .started s.pipeline.settings.id :: lines
  match f.result? with
  | some (some result) => s.ending f.shared.world lines (result.map .followed)
  | _ => s.ending f.shared.world lines (.error unfinished)

def untilCaughtUp (s : Setup) : Ending :=
  let (before, f) := takeLines (settle (start s))
  let interruption := if f.pipeline.isOver then [] else [Log.Line.interrupted]
  let (after, f) := takeLines (finish (interrupt f))
  ending s f (before ++ interruption ++ after)

end Following

def ask (b : Backend) (c : StoreCall) : Except Failure c.Answer := (b.answer 0 c).1

def overview (b : Backend) (pipelineId : String) : Except Failure Overview := do
  let checkpoint : Option Checkpoint ← ask b (.checkpoint pipelineId)
  let rows : Nat ← ask b .count
  let provisional : List Mark ← ask b (.provisionalAfter 0)
  let quarantined : List Quarantined ← ask b .quarantined
  return ⟨pipelineId, checkpoint, rows, provisional.length, quarantined.length⟩

def entryOf (b : Backend) (signature : Signature) : Except Failure Output := do
  let record : Option Record ← ask b (.record signature)
  let state : Lifecycle ← ask b (.lifecycle signature)
  return .entry signature state record

def quarantineOf (b : Backend) : Except Failure Output := do
  let entries : List Quarantined ← ask b .quarantined
  return .quarantine entries

def noticeOf : Except Failure Output → Option String
  | .ok (.quarantine []) => some "no quarantined transactions"
  | _ => none

def inspect (d : Disk) (database : String) (query : Backend → Except Failure Output) : Ending :=
  match openDatabase d database with
  | .error ending => ending
  | .ok (opened, d) =>
      let result := query opened.backend
      ⟨plainly result, [.statement], noticeOf result, d⟩

def settingsOrDefault (d : Disk) : Option String → Except Ending Settings
  | none => .ok .default
  | some path => loadSettings d path

def notSignature (text : String) : Complaint :=
  [s!"'{text}' is not a 64-byte base58 signature"]

/-- The plain paths of these files and of this database, as far as they lead to files. -/
def plainPaths (paths : List String) (database : String) : List String :=
  paths.filterMap (fun path => (Place.ofPath? path).map Place.path) ++
    (Disk.homeOf? database).toList

def Command.paths : Command → List String
  | .ingest stream config database _ => plainPaths [stream, config] database
  | .reconcile stream config database => plainPaths [stream, config] database
  | .status database config => plainPaths config.toList database
  | .lookup _ database => plainPaths [] database
  | .quarantine database => plainPaths [] database
  | .info => []

def execute (now : Int) (d : Disk) : Command → Ending
  | .ingest stream config database follow =>
      match Setup.prepare now d stream config database with
      | .error ending => ending
      | .ok s => if follow then Following.untilCaughtUp s else s.ingest
  | .reconcile stream config database =>
      match Setup.prepare now d stream config database with
      | .error ending => ending
      | .ok s => s.reconcile
  | .status database config =>
      match settingsOrDefault d config with
      | .error ending => ending
      | .ok settings => inspect d database fun b => (overview b settings.id).map .status
  | .lookup text database =>
      let signature : Signature := ⟨text⟩
      if signature.isWellFormed then inspect d database fun b => entryOf b signature
      else .refused d (notSignature text)
  | .quarantine database => inspect d database quarantineOf
  | .info => ⟨.ok .defaults, [], none, d⟩

end RouterHistory.CommandLine
