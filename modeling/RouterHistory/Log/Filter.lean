import RouterHistory.Log.Line
import RouterHistory.Log.Pattern
import RouterHistory.Text.Basic
import RouterHistory.Text.Utf8
import Std.Data.ExtTreeMap

/-!
Filters decide which lines are written. A filter is a list of directives between commas, each a
level, or a target with or without a level. In square brackets after the target a directive may
name details that a line has to report. Of the directives that apply to a line the most specific
one decides, and a line that none applies to is not written. Where no filter is given, one is made
from what the user says about the log: a level for everything and levels for single components.
-/
namespace RouterHistory.Log

open Text

abbrev Threshold := Option Level

namespace Threshold

def admits (t : Threshold) (l : Level) : Bool :=
  match t with
  | none => false
  | some greatest => l.rank ≤ greatest.rank

def ofRank? (n : Nat) : Option Threshold :=
  if n = 0 then some none else (Level.all.find? fun l => l.rank = n).map some

def readRank? : List Char → Option Nat
  | [] => none
  | c :: rest =>
      let digits := if c.val = 43 then rest else c :: rest
      if digits.isEmpty ∨ ¬ digits.all Char.isDigit then none
      else some (digits.foldl (fun n d => 10 * n + (d.toNat - 48)) 0)

def read? (cs : List Char) : Option Threshold :=
  match readRank? cs with
  | some n => ofRank? n
  | none =>
      let name := String.ofList (cs.map Char.toLower)
      if name = "off" then some none
      else (Level.all.find? fun l => l.name = name).map some

end Threshold

/-- A detail that a directive asks for. -/
structure Wanted where
  name : String
  /-- Whether a value is asked for as well. -/
  valued : Bool
  deriving DecidableEq, Repr

namespace Wanted

/-- Holds of a number without its sign: a decimal with or without an exponent, or one of the names
of infinity and of what is no number. -/
def isNumeral (cs : List Char) : Bool :=
  let lower := cs.map Char.toLower
  if ["inf", "infinity", "nan"].contains (String.ofList lower) then true
  else
    let (mantissa, exponent) := (cut? 'e' lower).getD (lower, ['0'])
    let (whole, places) := (cut? '.' mantissa).getD (mantissa, [])
    let exponent :=
      match exponent with
      | '+' :: digits => digits
      | '-' :: digits => digits
      | digits => digits
    (whole ++ places).all Char.isDigit && !(whole ++ places).isEmpty &&
      exponent.all Char.isDigit && !exponent.isEmpty

/-- Holds of values: numbers and patterns. A number with a plus sign is the only number that is no
pattern. -/
def isValue : List Char → Bool
  | '+' :: digits => isNumeral digits
  | cs => Pattern.isWellFormed cs

/-- Reads a name, and a value after an equals sign. What a second equals sign divides off does not
matter. -/
def read? (cs : List Char) : Option Wanted :=
  match pieces '=' cs with
  | [[]] => none
  | name :: value :: _ => if isValue value then some ⟨String.ofList name, true⟩ else none
  | name :: [] => some ⟨String.ofList name, false⟩
  | [] => none

end Wanted

/-- Sets the threshold of the lines whose target begins like this one and which report these
details. -/
structure Directive where
  target : String
  details : List String
  threshold : Threshold
  deriving DecidableEq, Repr

namespace Directive

/-- What was read of a directive. -/
structure Draft where
  target : String
  /-- Whether a scope is named. Lines have no scopes, so such a directive applies to none. -/
  hasScope : Bool
  wanted : List Wanted
  threshold : Threshold
  deriving DecidableEq, Repr

def Draft.blank : Draft := ⟨"", false, [], some .trace⟩

/-- Which part of a directive is being read, and where it began. -/
inductive Reading where
  | start
  | word (since : Nat)
  | scope (since : Nat)
  | detail (since : Nat)
  | detailsEnd
  | targetEnd
  | level (since : Nat)
  deriving DecidableEq, Repr

def startsTarget (c : Char) : Bool := isAlphanumeric c || c = '-' || c = ':' || c = '_'

/-- Why a text is no directive. -/
inductive Flaw where
  | malformed
  /-- A part begins or ends inside a character. -/
  | torn
  deriving DecidableEq, Repr

def isBoundary (text : List UInt8) (position : Nat) : Bool :=
  text[position]?.all fun b => b < 0x80 || 0xc0 ≤ b

def slice (text : List UInt8) (first last : Nat) : Except Flaw String :=
  if isBoundary text first ∧ isBoundary text last then
    .ok (Utf8.decodeLossy ((text.take last).drop first))
  else .error .torn

def orMalformed : Option α → Except Flaw α
  | some a => .ok a
  | none => .error .malformed

def advance (text : List UInt8) (draft : Draft) (position : Nat) (c : Char) :
    Reading → Except Flaw (Draft × Reading)
  | .start =>
      if c = '[' then .ok (draft, .scope (position + 1))
      else if startsTarget c then .ok (draft, .word position)
      else .error .malformed
  | .word since =>
      if c = '=' then do
        return ({ draft with target := ← slice text since position }, .level (position + 1))
      else if c = '[' then do
        return ({ draft with target := ← slice text since position }, .scope (position + 1))
      else .ok (draft, .word since)
  | .scope since =>
      if c = ']' then do
        let _ ← slice text since position
        return ({ draft with hasScope := true }, .targetEnd)
      else if c = '\x7b' then do
        let scope ← slice text since position
        return ({ draft with hasScope := scope ≠ "" }, .detail (position + 1))
      else .ok (draft, .scope since)
  | .detail since =>
      if c = '\x7d' then do
        let detail ← slice text since position
        let wanted ← orMalformed (Wanted.read? detail.toList)
        return ({ draft with wanted := draft.wanted ++ [wanted] }, .detailsEnd)
      else .ok (draft, .detail since)
  | .detailsEnd => if c = ']' then .ok (draft, .targetEnd) else .error .malformed
  | .targetEnd => if c = '=' then .ok (draft, .level (position + 1)) else .error .malformed
  | .level since => .ok (draft, .level since)

def advanceAll (text : List UInt8) :
    (position : Nat) → Draft × Reading → List Char → Except Flaw (Draft × Reading)
  | _, state, [] => .ok state
  | position, (draft, reading), c :: rest => do
      advanceAll text (position + c.utf8Size) (← advance text draft position c reading) rest

/-- Puts in what the end of the text completes. A word alone is a level for everything, or else a
target that is written in full; so is a target with an empty level. -/
def conclude (text : List UInt8) (draft : Draft) : Reading → Except Flaw Draft
  | .word since => do
      let word ← slice text since text.length
      match Threshold.read? word.toList with
      | some threshold => return { draft with threshold }
      | none => return { draft with target := word }
  | .level since => do
      let level ← slice text since text.length
      if level = "" then return draft
      else return { draft with threshold := ← orMalformed (Threshold.read? level.toList) }
  | .targetEnd => .ok draft
  | _ => .error .malformed

def trim (cs : List Char) : List Char := (dropBlanks (dropBlanks cs).reverse).reverse

/-- Reads a directive. Blanks around it are passed over in telling the parts apart, but positions
count from the beginning of the trimmed text and parts are cut from the text as it stands. -/
def read (piece : List Char) : Except Flaw Draft := do
  let text := Utf8.encode (String.ofList piece)
  let (draft, reading) ← advanceAll text 0 (.blank, .start) (trim piece)
  conclude text draft reading

/-- The directive that a draft stands for. One that names a scope or asks for a value applies to
no line. -/
def ofDraft? (d : Draft) : Option Directive :=
  if d.hasScope ∨ d.wanted.any Wanted.valued then none
  else some ⟨d.target, d.wanted.map Wanted.name, d.threshold⟩

/-- Holds if the directive is about a target and the names reported under it, where these are
known. -/
def appliesTo (d : Directive) (target : String) (names : Option (List String)) : Bool :=
  d.target.toList.isPrefixOf target.toList &&
    match names with
    | none => true
    | some names => d.details.all names.contains

/-- The order of directives by what they ask for: longer targets are more specific, then more
details; the order of equals is that of their texts. -/
def isWeaker (a b : Directive) : Bool :=
  (compare a.target.length b.target.length).then
    ((compare a.details.length b.details.length).then (compare a.details b.details)) |>.isLE

end Directive

structure Filter where
  directives : List Directive
  deriving DecidableEq, Repr

namespace Filter

def errorsOnly : Filter := ⟨[⟨"", [], some .error⟩]⟩

def informative : Filter := ⟨[⟨"", [], some .info⟩]⟩

def read (text : String) : Except Directive.Flaw Filter :=
  match (pieces ',' text.toList).filter fun piece => !piece.isEmpty with
  | [] => .ok errorsOnly
  | given => (given.mapM Directive.read).map fun drafts => ⟨drafts.filterMap Directive.ofDraft?⟩

/-- Of two directives the more specific one decides, and the later one of equals. -/
def stronger (found : Option Directive) (d : Directive) : Option Directive :=
  match found with
  | none => some d
  | some best => if best.isWeaker d then some d else some best

def passes (f : Filter) (level : Level) (target : String) (names : Option (List String)) : Bool :=
  match (f.directives.filter fun d => d.appliesTo target names).foldl stronger none with
  | none => false
  | some d => d.threshold.admits level

/-- What is reported of a statement when a filter is asked beforehand whether to describe it. -/
def announcement : List String :=
  ["message", "log.target", "log.module_path", "log.file", "log.line"]

/-- A statement is described only if the filter passes one of its announcements: the one without
names or the one with the names that every announcement has. -/
def isDescribed (f : Filter) (l : Line) : Bool :=
  l.topic ≠ .statements || f.passes l.level l.topic.target none ||
    f.passes l.level l.topic.target (some announcement)

def admits (f : Filter) (l : Line) : Bool :=
  f.passes l.level l.topic.target (some l.names) && f.isDescribed l

end Filter

/-- The level of one component. -/
structure Component where
  name : String
  level : String
  deriving DecidableEq, Repr

namespace Component

/-- Reads a name and a level with an equals sign between them; neither may be empty. -/
def read? (text : String) : Option Component :=
  match Text.cut? '=' text.toList with
  | none => none
  | some (name, level) =>
      if name.isEmpty ∨ level.isEmpty then none
      else some ⟨String.ofList name, String.ofList level⟩

def usage (text : String) : String := s!"expected <crate>=<level>, got '{text}'"

end Component

structure Settings where
  level : String
  components : List Component
  /-- Whether the lines are written as JSON objects. -/
  json : Bool
  deriving DecidableEq, Repr

namespace Settings

def default : Settings := ⟨"info", [], false⟩

/-- The level of each component by name; the last setting of a component counts. -/
def levels (s : Settings) : Std.ExtTreeMap String String :=
  s.components.foldl (fun table c => table.insert c.name c.level) ∅

def targetOf (name : String) : String :=
  String.ofList (name.toList.map fun c => if c = '-' then '_' else c)

def directives (s : Settings) : String :=
  s.levels.toList.foldl (fun done (name, level) => done ++ s!",{targetOf name}={level}") s.level

/-- The filter to use. Directives from the environment win if they are well formed, and settings
that are not count as the default level. Nothing comes of text with a torn part, which breaks the
program off. -/
def filter? (s : Settings) (environment : Option String) : Option Filter :=
  match environment.map Filter.read with
  | some (.ok f) => some f
  | some (.error .torn) => none
  | _ =>
      match Filter.read s.directives with
      | .ok f => some f
      | .error .malformed => some .informative
      | .error .torn => none

end Settings

end RouterHistory.Log
