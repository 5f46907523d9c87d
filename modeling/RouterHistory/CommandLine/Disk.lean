import RouterHistory.CommandLine.Address
import RouterHistory.Store.Backend
import RouterHistory.Text.Utf8
import Std.Data.ExtTreeMap

/-!
Files as commands see them: bytes, and databases that commands open and leave changed. The first
page of a file that is to be opened as a database says whether the file is a database at all and
how it is laid out; a file of less than two bytes is a database without tables, and so is one
whose first page is sound and lists none. Paths that differ only in dots and repeated slashes are
one path. The path of a database is shortened before anything is looked up, so steps back undo
steps into directories that are not there.
-/
namespace RouterHistory.CommandLine

/-- A file from its first byte. Past its end there are zeros. -/
structure Header where
  bytes : List UInt8

namespace Header

def byte (h : Header) (offset : Nat) : Nat := (h.bytes.getD offset 0).toNat

def number (h : Header) (count offset : Nat) : Nat :=
  (List.range count).foldl (fun n i => 256 * n + h.byte (offset + i)) 0

def magic : List UInt8 := Text.Utf8.encode "SQLite format 3\x00"

def hasMagic (h : Header) : Bool := magic.isPrefixOf h.bytes

/-- The size of a page; the two bytes of it leave out the lowest bits of sizes above theirs. -/
def pageSize (h : Header) : Nat := 256 * h.byte 16 + 65536 * h.byte 17

def hasPageSize (h : Header) : Bool :=
  (List.range 8).any fun i => h.pageSize = 512 * Nat.pow 2 i

/-- The largest and smallest shares of a page that one entry may take are fixed. -/
def hasShares (h : Header) : Bool := h.byte 21 = 64 && h.byte 22 = 32 && h.byte 23 = 32

def hasReadableVersion (h : Header) : Bool := h.byte 19 ≤ 2

def isWritable (h : Header) : Bool := h.byte 18 ≤ 2

def isLogged (h : Header) : Bool := h.byte 19 = 2

def roomyPages (h : Header) : Nat := (h.bytes.length + h.pageSize - 1) / h.pageSize

/-- The number of pages, which counts only if it was written together with the change counter. -/
def pages (h : Header) : Nat :=
  let written := h.number 4 28
  if written = 0 ∨ h.number 4 24 ≠ h.number 4 92 then h.roomyPages else written

def hasUsablePage (h : Header) : Bool := 480 ≤ h.pageSize - h.byte 20

def hasSchemaVersion (h : Header) : Bool := h.byte 47 ≤ 4

def isBare (h : Header) : Bool := h.byte 100 = 13 && h.number 2 103 = 0

def notDatabase : Failure := Backend.databaseError 26 "file is not a database"

def malformed : Failure := Backend.databaseError 11 "database disk image is malformed"

def unsupportedFormat : Failure := Backend.databaseError 1 "unsupported file format"

def isVoid (h : Header) : Bool := h.bytes.length ≤ 1

/-- What keeps a file from being a database without tables, if anything does. -/
def flaw? (h : Header) : Option Failure :=
  if h.isVoid then none
  else if !h.hasMagic || !h.hasReadableVersion || !h.hasShares || !h.hasPageSize then
    some notDatabase
  else if h.roomyPages < h.pages then some malformed
  else if !h.hasUsablePage then some notDatabase
  else if !h.hasSchemaVersion then some unsupportedFormat
  else if !h.isBare then some malformed
  else none

end Header

/-- What a file holds. -/
inductive Content where
  | plain (bytes : List UInt8)
  | database (kept : Kept)

structure Disk where
  /-- The files by their plain paths. -/
  files : Std.ExtTreeMap String Content
  /-- The plain paths of the directories; the working directory is the empty path. -/
  directories : List String

/-- A path without dots and repeated slashes, split at its last slash. -/
structure Place where
  directory : String
  name : String
  deriving DecidableEq, Repr

namespace Place

def path (p : Place) : String :=
  if p.directory = "" then p.name
  else if p.directory = "/" then "/" ++ p.name
  else s!"{p.directory}/{p.name}"

def isIdle (part : List Char) : Bool := part = [] || part = ['.']

def isAbsolute (path : String) : Bool := path.toList.head? = some '/'

def root (path : String) : String := if isAbsolute path then "/" else ""

def ofNames? (root : String) (names : List String) : Option Place :=
  names.getLast?.map fun last => ⟨root ++ String.intercalate "/" names.dropLast, last⟩

/-- The place that a path names; nothing for the name of a directory. -/
def ofPath? (path : String) : Option Place :=
  let parts := Text.pieces '/' path.toList
  let last := parts.getLastD []
  if isIdle last ∨ last = ['.', '.'] then none
  else ofNames? (root path) ((parts.filter fun part => !isIdle part).map String.ofList)

end Place

namespace Disk

def find? (d : Disk) (path : String) : Option Content :=
  (Place.ofPath? path).bind fun place => d.files[place.path]?

/-- The text of a file; nothing if there is no such file or it holds no text. -/
def text? (d : Disk) (path : String) : Option String :=
  match d.find? path with
  | some (.plain bytes) => (Text.Utf8.decode bytes).toOption
  | _ => none

def withText (d : Disk) (path content : String) : Disk :=
  match Place.ofPath? path with
  | none => d
  | some place =>
      { files := d.files.insert place.path (.plain (Text.Utf8.encode content))
        directories := place.directory :: d.directories }

/-- A file that is not there and is not created, or that has no place to be. -/
def cannotOpen : Failure := Backend.databaseError 14 "unable to open database file"

def cannotRead : Failure := Backend.databaseError 266 "disk I/O error"

/-- Names longer than this leave no room for those of the files beside a database. -/
def longestName : Nat := 247

/-- The path so far, from the last name to the first. A step back from the start of a relative
path leads to the directory above, and one from the root stays there. -/
def stepBack (absolute : Bool) : List String → List String
  | [] => if absolute then [] else [".."]
  | name :: before => if name = ".." then name :: name :: before else before

def plainPath (root : String) (names : List String) : String :=
  root ++ String.intercalate "/" names.reverse

/-- Walks along the parts of a path; nothing if one of them is sought in a file, or is too long
for a name. -/
def walk (d : Disk) (absolute : Bool) (root : String) :
    List String → List (List Char) → Option (List String)
  | names, [] => some names
  | names, part :: rest =>
      if Place.isIdle part then walk d absolute root names rest
      else if part = ['.', '.'] then walk d absolute root (stepBack absolute names) rest
      else
        let name := String.ofList part
        if d.files.contains (plainPath root names) ∨ longestName < name.utf8ByteSize then none
        else walk d absolute root (name :: names) rest

/-- Where the path of a database leads. -/
inductive Target where
  | file (place : Place)
  | directory
  | nowhere
  deriving DecidableEq, Repr

def target (d : Disk) (path : String) : Target :=
  let absolute := Place.isAbsolute path
  let root := Place.root path
  match d.walk absolute root [] (Text.pieces '/' path.toList) with
  | none => .nowhere
  | some [] => if absolute then .nowhere else .directory
  | some (".." :: _) => .directory
  | some names =>
      match Place.ofNames? root names.reverse with
      | none => .nowhere
      | some place => if d.directories.contains place.path then .directory else .file place

/-- Holds of the directories that are there: those that are known, and all above them. -/
def hasDirectory (d : Disk) (path : String) : Bool :=
  d.directories.contains path || (Text.pieces '/' path.toList).all (· = ['.', '.'])

/-- A database that was opened. -/
structure Opened where
  tables : Tables
  readOnly : Bool
  /-- The plain path of its file, unless it is in none. -/
  home : Option String
  /-- Whether it has a write-ahead log. -/
  logged : Bool

def Opened.backend (o : Opened) : Backend :=
  if o.readOnly then .readOnly .seconds o.tables else .database .seconds o.tables

/-- A database without tables gets them when it is opened, which is a write. -/
def fresh (readOnly logged : Bool) (home : Option String) : Except Failure Opened :=
  if readOnly then .error Backend.writeRefused else .ok ⟨.empty, false, home, logged⟩

/-- Opens a database with tables. It gets its log when it is opened, which is a write, and one
that has its log cannot be opened where none can be kept. What does not change needs none. -/
def reopen (a : Address) (kept : Kept) (home : String) : Except Failure Opened :=
  if a.immutable then .ok ⟨kept.tables, a.isReadOnly, some home, kept.logged⟩
  else if a.keepsLog then
    if a.isReadOnly ∧ ¬ kept.logged then .error Backend.writeRefused
    else .ok ⟨kept.tables, a.isReadOnly, some home, true⟩
  else if kept.logged then .error cannotOpen
  else .ok ⟨kept.tables, a.isReadOnly, some home, false⟩

def openPlain (a : Address) (h : Header) (home : String) : Except Failure Opened :=
  if h.hasMagic ∧ h.isLogged ∧ ¬ a.immutable ∧ ¬ a.keepsLog then .error cannotOpen
  else
    match h.flaw? with
    | some f => .error f
    | none => fresh (a.isReadOnly || !h.isWritable) a.keepsLog (some home)

/-- Opens the file at a place. A file that is created stays there whatever comes of it. -/
def openAt (d : Disk) (a : Address) (place : Place) : Except Failure Opened × Disk :=
  let home := place.path
  if !d.hasDirectory place.directory then (.error cannotOpen, d)
  else
    match d.files[home]? with
    | some (.database kept) => (reopen a kept home, d)
    | some (.plain bytes) => (openPlain a ⟨bytes⟩ home, d)
    | none =>
        if a.access.create then
          (openPlain a ⟨[]⟩ home, { d with files := d.files.insert home (.plain []) })
        else (.error cannotOpen, d)

def openAddress (d : Disk) (a : Address) : Except Failure Opened × Disk :=
  if a.isFileless then (fresh a.isReadOnly false none, d)
  else
    match d.target a.path with
    | .file place => d.openAt a place
    | .directory => (.error (if a.access.read then cannotRead else cannotOpen), d)
    | .nowhere => (.error cannotOpen, d)

def openDatabase (d : Disk) (argument : String) : Except Failure Opened × Disk :=
  match Address.ofArgument argument with
  | .error f => (.error f, d)
  | .ok a => d.openAddress a

def keep (d : Disk) (o : Opened) (tables : Tables) : Disk :=
  match o.home with
  | none => d
  | some path => { d with files := d.files.insert path (.database ⟨tables, o.logged⟩) }

def homeOf? (argument : String) : Option String :=
  match Address.ofArgument argument with
  | .error _ => none
  | .ok a =>
      if a.isFileless then none
      else
        match target ⟨∅, []⟩ a.path with
        | .file place => some place.path
        | _ => none

end Disk

end RouterHistory.CommandLine
