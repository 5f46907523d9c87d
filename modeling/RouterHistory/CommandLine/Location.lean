import RouterHistory.Store.Backend
import RouterHistory.Text.Percent
import RouterHistory.Text.Quoted

/-!
Where a history database is kept: a name, or a URL with parameters that say how to open it. A
name without a scheme is opened for writing and created if it is missing.
-/
namespace RouterHistory.CommandLine

structure Location where
  name : String
  /-- Whether the database lasts only as long as the command. -/
  inMemory : Bool
  readOnly : Bool
  /-- Whether a missing file is created. -/
  create : Bool
  /-- Whether the file is promised not to change while it is open. -/
  immutable : Bool
  /-- The access layer to use in place of the usual one. -/
  layer : Option String
  deriving DecidableEq, Repr

namespace Location

/-- What is wrong with a URL. -/
inductive Flaw where
  | unknownValue (key value : String)
  | unknownParameter (key : String)
  | notText (flaw : Text.Utf8.Flaw)
  | nul
  deriving DecidableEq, Repr

def Flaw.message : Flaw → String
  | .unknownValue key value =>
      s!"error with configuration: unknown value {Text.quotedText value} for `{key}`"
  | .unknownParameter key =>
      s!"error with configuration: unknown query parameter `{key}` while parsing connection URL"
  | .notText flaw => s!"error with configuration: {flaw.message}"
  | .nul =>
      "error communicating with database: filename passed to SQLite must not contain nul bytes"

def Flaw.failure (f : Flaw) : Failure := .storage f.message

/-- Takes one parameter into account; of parameters that contradict each other the last counts,
but what was made read-only or may be created stays so. -/
def adjust (l : Location) : String × String → Except Flaw Location
  | ("mode", "ro") => .ok { l with readOnly := true }
  | ("mode", "rw") => .ok l
  | ("mode", "rwc") => .ok { l with create := true }
  | ("mode", "memory") => .ok { l with inMemory := true }
  | ("cache", "private") => .ok l
  | ("cache", "shared") => .ok l
  | ("immutable", "true") => .ok { l with immutable := true }
  | ("immutable", "1") => .ok { l with immutable := true }
  | ("immutable", "false") => .ok { l with immutable := false }
  | ("immutable", "0") => .ok { l with immutable := false }
  | ("vfs", layer) => .ok { l with layer := some layer }
  | (key, value) =>
      if ["mode", "cache", "immutable"].contains key then .error (.unknownValue key value)
      else .error (.unknownParameter key)

def plain (name : String) : Location := ⟨name, false, false, false, false, none⟩

def memoryName : String := "file:history-in-memory"

def named (name : List Char) : Except Flaw Location :=
  let written := String.ofList name
  if written = ":memory:" then .ok { plain memoryName with inMemory := true }
  else
    match Text.decodePercent written with
    | .error flaw => .error (.notText flaw)
    | .ok name => .ok (plain name)

def dropScheme (scheme : List Char) : (count : Nat) → List Char → List Char
  | 0, cs => cs
  | count + 1, cs =>
      if scheme.isPrefixOf cs then dropScheme scheme count (cs.drop scheme.length) else cs

def scheme : List Char := "sqlite:".toList

/-- Reads what follows the scheme: a name, and parameters after a question mark. -/
def ofAddress (address : List Char) : Except Flaw Location :=
  match Text.cut? '?' address with
  | none => named address
  | some (name, query) => do (Text.decodeForm query).foldlM adjust (← named name)

def ofUrl (url : List Char) : Except Flaw Location :=
  let address := dropScheme (scheme ++ ['/', '/']) url.length url
  ofAddress (dropScheme scheme address.length address)

def ofArgument (argument : String) : Except Flaw Location :=
  let text := argument.toList
  ofUrl (if scheme.isPrefixOf text then text else scheme ++ text ++ "?mode=rwc".toList)

/-- The name to open. What only an address can express makes an address of it, in which the name
is encoded and means no more than a path. -/
def address (l : Location) : String :=
  let options := (if l.immutable then ["immutable=true"] else []) ++
    (l.layer.map ("vfs=" ++ ·)).toList
  if options.isEmpty then l.name
  else s!"file:{Text.encodePercent l.name}?" ++ String.intercalate "&" options

def address? (l : Location) : Except Flaw String :=
  if l.address.toList.contains '\x00' then .error .nul else .ok l.address

end Location

end RouterHistory.CommandLine
