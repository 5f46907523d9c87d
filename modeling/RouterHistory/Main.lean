import RouterHistory.CommandLine.Execute
import RouterHistory.Format.Database
import RouterHistory.Format.Report
import Std.Time.DateTime.Timestamp

/-!
The program: it reads the files that its command names, runs the command on them, and writes what
came of it. A pipeline that follows its source does so until the standard input ends.
-/
namespace RouterHistory.Main

open CommandLine

def contentOf (bytes : List UInt8) : Content :=
  match (Text.Utf8.decode bytes).toOption.bind Format.readDatabase? with
  | none => .plain bytes
  | some kept => .database kept

def bytesOf : Content → List UInt8
  | .plain bytes => bytes
  | .database kept => Text.Utf8.encode (Format.writeDatabase kept)

def isDirectory (path : String) : IO Bool := do
  try
    let _ ← IO.FS.Handle.mk (path ++ "/.") .read
    return true
  catch _ => return false

def contentAt? (path : String) : IO (Option Content) := do
  try return some (contentOf (← IO.FS.readBinFile path).toList)
  catch _ => return none

def addPath (d : Disk) (path : String) : IO Disk := do
  match Place.ofPath? path with
  | none => return d
  | some place =>
      let above := if place.directory = "" then "." else place.directory
      let found := (if ← isDirectory above then [place.directory] else []) ++
        (if ← isDirectory path then [path] else [])
      let d := { d with directories := found ++ d.directories }
      match ← contentAt? path with
      | none => return d
      | some content => return { d with files := d.files.insert path content }

def savePath (before after : Disk) (path : String) : IO Unit := do
  let found := after.files[path]?.map bytesOf
  if found = before.files[path]?.map bytesOf then return
  found.forM fun bytes => IO.FS.writeBinFile path ⟨bytes.toArray⟩

def secondsNow : IO Int := do return (← Std.Time.Timestamp.now).toSecondsSinceUnixEpoch.val

/-- How the log is written. -/
structure Logging where
  filter : Log.Filter
  json : Bool

def Logging.write (log : Logging) (lines : List Log.Line) : IO Unit :=
  (lines.filter log.filter.admits).forM fun line =>
    IO.eprintln (Format.writeLogLine log.json line)

partial def drain (input : IO.FS.Stream) : IO Unit := do
  if (← input.getLine).isEmpty then return else drain input

/-- Follows in real time until the task that watches the input is over. -/
partial def followOn (log : Logging) (s : Setup) (started : Nat)
    (input : Task (Except IO.Error Unit)) (f : Following) : IO Ending := do
  let (lines, f) := f.settle.takeLines
  log.write lines
  if f.pipeline.isOver then return Following.ending s f []
  else if ← IO.hasFinished input then
    let (lines, f) := f.interrupt.finish.takeLines
    log.write (Log.Line.interrupted :: lines)
    return Following.ending s f []
  else
    IO.sleep 20
    followOn log s started input (f.atTime ((← IO.monoMsNow) - started) (← secondsNow))

def runCommand (log : Logging) (d : Disk) (command : Command) : IO Ending := do
  let now ← secondsNow
  match command with
  | .ingest stream config database true =>
      match Setup.prepare now d stream config database with
      | .error ending => return ending
      | .ok s =>
          log.write [.statement, .started s.pipeline.settings.id]
          let input ← IO.asTask (drain (← IO.getStdin))
          followOn log s (← IO.monoMsNow) input (Following.start s)
  | command =>
      let ending := execute now d command
      log.write ending.lines
      return ending

def breakOff : IO UInt32 := do
  IO.eprintln "Error: broken off"
  return 101

def runLogged (log : Logging) (command : Command) : IO UInt32 := do
  let before ← command.paths.foldlM addPath ⟨∅, [""]⟩
  let ending ← runCommand log before command
  command.paths.forM (savePath before ending.disk)
  ending.notice.forM IO.eprintln
  match ending.result with
  | .ok output =>
      IO.print output.text
      return 0
  | .error (.complaint complaint) =>
      IO.eprintln ("Error: " ++ String.intercalate "\n  caused by: " complaint)
      return 1
  | .error .crash => breakOff

def run (settings : Log.Settings) (command : Command) : IO UInt32 := do
  match settings.filter? (← IO.getEnv "RUST_LOG") with
  | some filter => runLogged ⟨filter, settings.json⟩ command
  | none => breakOff

def start (arguments : List String) : IO UInt32 := do
  match Invocation.read? arguments with
  | some (.run settings command) => run settings command
  | some .version =>
      IO.print Output.version.text
      return 0
  | some .help =>
      IO.print Output.help.text
      return 0
  | none =>
      IO.eprint Output.help.text
      return 2

end RouterHistory.Main

def main (arguments : List String) : IO UInt32 := RouterHistory.Main.start arguments
