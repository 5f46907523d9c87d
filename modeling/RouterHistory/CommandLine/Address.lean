import RouterHistory.CommandLine.Location

/-!
What a database name is opened as. A name that starts with `file:` is an address: a path, and
options after a question mark that may narrow the access, choose the access layer or make promises
about the file. Any other name is a path as it stands.
-/
namespace RouterHistory.CommandLine

open Text

/-- What may be done with a database. -/
structure Access where
  read : Bool
  write : Bool
  create : Bool
  memory : Bool
  deriving DecidableEq, Repr

namespace Access

def weight (a : Access) : Nat :=
  a.read.toNat + 2 * a.write.toNat + 4 * a.create.toNat + 128 * a.memory.toNat

def ofLocation (l : Location) : Access :=
  if l.readOnly then ⟨true, false, false, l.inMemory⟩
  else ⟨false, true, l.create, l.inMemory⟩

def ofMode? : String → Option Access
  | "ro" => some ⟨true, false, false, false⟩
  | "rw" => some ⟨false, true, false, false⟩
  | "rwc" => some ⟨false, true, true, false⟩
  | "memory" => some ⟨false, false, false, true⟩
  | _ => none

/-- Holds if a mode takes no more than is given. A database in memory is always allowed. -/
def allows (given mode : Access) : Bool :=
  { mode with memory := false }.weight ≤ given.weight

end Access

/-- A database as it is to be opened. -/
structure Address where
  path : String
  access : Access
  layer : String
  /-- Whether nobody changes the file while it is open. -/
  immutable : Bool
  /-- Whether the file is not locked. -/
  unlocked : Bool
  deriving DecidableEq, Repr

namespace Address

/-- What is wrong with an address. -/
inductive Flaw where
  | authority (name : String)
  | unknownMode (kind value : String)
  | modeNotAllowed (kind value : String)
  | unknownLayer (name : String)
  deriving DecidableEq, Repr

def Flaw.failure : Flaw → Failure
  | .authority name => Backend.databaseError 1 s!"invalid uri authority: {name}"
  | .unknownMode kind value => Backend.databaseError 1 s!"no such {kind} mode: {value}"
  | .modeNotAllowed kind value => Backend.databaseError 3 s!"{kind} mode not allowed: {value}"
  | .unknownLayer name => Backend.databaseError 1 s!"no such vfs: {name}"

def memoryLayer : String := "memdb"

def usualLayer : String := "unix"

/-- The layers that keep databases in files without sharing memory between programs. -/
def simpleLayers : List String := ["unix-none", "unix-dotfile"]

def layers : List String := [usualLayer, "unix-excl", memoryLayer] ++ simpleLayers

def decodeBytes : List UInt8 → List UInt8
  | 37 :: high :: low :: rest =>
      match hexValue? high, hexValue? low with
      | some x, some y => if 16 * x + y = 0 then [] else (16 * x + y) :: decodeBytes rest
      | _, _ => 37 :: decodeBytes (high :: low :: rest)
  | b :: rest => b :: decodeBytes rest
  | [] => []

def decode (cs : List Char) : String :=
  Utf8.decodeLossy (decodeBytes (Utf8.encode (String.ofList cs)))

def dropAuthority : List Char → Except Flaw (List Char)
  | '/' :: '/' :: cs =>
      let authority := cs.takeWhile (· ≠ '/')
      if authority.isEmpty ∨ authority = "localhost".toList then .ok (cs.drop authority.length)
      else .error (.authority (String.ofList authority))
  | cs => .ok cs

/-- The options between ampersands. One without a name is passed over, and one without an equals
sign has an empty value. -/
def optionsOf (cs : List Char) : List (String × String) :=
  ((pieces '&' cs).map fun piece =>
    let (key, value) := (cut? '=' piece).getD (piece, [])
    (decode key, decode value)).filter fun option => option.1 ≠ ""

/-- The words that say yes; a number does unless its last eight bits are zero. -/
def isTrue (value : String) : Bool :=
  let digits := value.toList.takeWhile Char.isDigit
  if digits.isEmpty then
    ["on", "yes", "true"].contains (String.ofList (value.toList.map Char.toLower))
  else (digits.foldl (fun n d => 10 * n + (d.toNat - 48)) 0) % 256 ≠ 0

/-- Whether an option is there and says yes. The first of its name counts. -/
def isSet (options : List (String × String)) (key : String) : Bool :=
  match options.lookup key with
  | some value => isTrue value
  | none => false

def restrict (access : Access) : String × String → Except Flaw Access
  | ("cache", value) =>
      if value = "shared" ∨ value = "private" then .ok access
      else .error (.unknownMode "cache" value)
  | ("mode", value) =>
      match Access.ofMode? value with
      | none => .error (.unknownMode "access" value)
      | some mode =>
          if access.allows mode then .ok mode else .error (.modeNotAllowed "access" value)
  | _ => .ok access

def layerOf (options : List (String × String)) : String :=
  (options.reverse.lookup "vfs").getD usualLayer

def ofRest (access : Access) (cs : List Char) : Except Flaw Address := do
  let cs ← dropAuthority cs
  let (path, query) := (cut? '?' (cs.takeWhile (· ≠ '#'))).getD (cs.takeWhile (· ≠ '#'), [])
  let options := optionsOf query
  let access ← options.foldlM restrict access
  let layer := layerOf options
  if layers.contains layer then
    return ⟨decode path, access, layer, isSet options "immutable", isSet options "nolock"⟩
  else throw (.unknownLayer layer)

def ofName (access : Access) (name : String) : Except Flaw Address :=
  match name.toList with
  | 'f' :: 'i' :: 'l' :: 'e' :: ':' :: cs => ofRest access cs
  | _ => .ok ⟨name, access, usualLayer, false, false⟩

def ofLocation (l : Location) : Except Failure Address :=
  match l.address? with
  | .error flaw => .error flaw.failure
  | .ok name =>
      match ofName (.ofLocation l) name with
      | .error flaw => .error flaw.failure
      | .ok address => .ok address

def ofArgument (argument : String) : Except Failure Address :=
  match Location.ofArgument argument with
  | .error flaw => .error flaw.failure
  | .ok location => ofLocation location

def isTemporary (a : Address) : Bool := a.access.memory || a.path = "" || a.path = ":memory:"

def isFileless (a : Address) : Bool := a.isTemporary || a.layer = memoryLayer

/-- Whether nothing can be written. What is kept somewhere and does not change is not written. -/
def isReadOnly (a : Address) : Bool := a.access.read || (a.immutable && !a.isTemporary)

/-- Whether a write-ahead log can be kept beside the file. It takes memory that programs share and
locks. -/
def keepsLog (a : Address) : Bool :=
  !simpleLayers.contains a.layer && !a.unlocked && !a.immutable

end Address

end RouterHistory.CommandLine
