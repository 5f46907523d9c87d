import RouterHistory.Log.Pattern.Class
import RouterHistory.Text.Alphanumeric

/-!
Patterns for the values of details: regular expressions with groups, flags, classes and escapes.
Lines are not matched against them; what counts is which texts are patterns at all, because a
filter with a malformed pattern is refused. Counted repetition is not part of the language, and
there are no tables of characters: sets like that of all digits, word boundaries and letters of
any case are known only of bytes.
-/
namespace RouterHistory.Log.Pattern

open Text

/-- Parts that follow one another, up to the last. -/
structure Sequence where
  before : Row
  /-- The height of the last part, if it can be repeated. -/
  last : Option Nat
  deriving DecidableEq, Repr

namespace Sequence

def empty : Sequence := ⟨.empty, none⟩

def row (s : Sequence) : Row :=
  match s.last with
  | none => s.before
  | some height => s.before.add height

def add (s : Sequence) (height : Nat) : Sequence := ⟨s.row, some height⟩

def addFlags (s : Sequence) : Sequence := ⟨s.row.add 0, none⟩

def repeat? (s : Sequence) : Option Sequence :=
  s.last.map fun height => ⟨s.before, some (height + 1)⟩

end Sequence

/-- Alternatives, up to the one that is being read. -/
structure Choice where
  /-- The height of the highest alternative before, if there is one. -/
  before : Option Nat
  current : Sequence
  deriving DecidableEq, Repr

namespace Choice

def empty : Choice := ⟨none, .empty⟩

def next (c : Choice) : Choice :=
  ⟨some (max (c.before.getD 0) c.current.row.height), .empty⟩

def add (c : Choice) (height : Nat) : Choice := { c with current := c.current.add height }

def height (c : Choice) : Nat := joined c.before c.current.row

end Choice

/-- Holds of flags: different letters, of which those after a hyphen are taken back. -/
def areFlags (cs : List Char) : Bool :=
  cs.all (['i', 'm', 's', 'U', 'u', 'x', 'R', '-'].contains ·) && cs.eraseDups = cs &&
    !cs.isEmpty && cs.getLast? != some '-'

def isGroupName : List Char → Bool
  | [] => false
  | c :: rest =>
      (c = '_' || isAlphabetic c) &&
        rest.all fun c => isAlphanumeric c || ['_', '.', '[', ']'].contains c

/-- How a group begins. -/
inductive Opening where
  | group (flags : List Char)
  | named (name : List Char)
  /-- Flags for what follows, and the end of the group. -/
  | flags (flags : List Char)
  deriving DecidableEq, Repr

def namedGroup? (cs : List Char) : Option (Opening × List Char) :=
  match cut? '>' cs with
  | some (name, rest) => if isGroupName name then some (.named name, rest) else none
  | none => none

def opening? : List Char → Option (Opening × List Char)
  | '?' :: 'P' :: '<' :: cs => namedGroup? cs
  | '?' :: '<' :: cs => namedGroup? cs
  | '?' :: cs =>
      let flags := cs.takeWhile fun c => c != ':' && c != ')'
      match cs.drop flags.length with
      | ':' :: rest => if flags.isEmpty || areFlags flags then some (.group flags, rest) else none
      | ')' :: rest => if areFlags flags then some (.flags flags, rest) else none
      | _ => none
  | cs => some (.group [], cs)

/-- What was read of a pattern. -/
structure Progress where
  mode : Mode
  choice : Choice
  /-- What was read around each open group, the innermost first. -/
  outer : List (Mode × Choice)
  /-- The names of groups so far. -/
  names : List (List Char)

namespace Progress

def start : Progress := ⟨.usual, .empty, [], []⟩

def add (p : Progress) (height : Nat) : Progress := { p with choice := p.choice.add height }

/-- Opens a group, or changes the mode. Two groups cannot have one name. -/
def openGroup? (p : Progress) : Opening → Option Progress
  | .group flags =>
      some { p with
        mode := p.mode.adjust flags
        choice := .empty
        outer := (p.mode, p.choice) :: p.outer }
  | .named name =>
      if p.names.contains name then none
      else some ⟨p.mode, .empty, (p.mode, p.choice) :: p.outer, name :: p.names⟩
  | .flags flags =>
      some { p with
        mode := p.mode.adjust flags
        choice := { p.choice with current := p.choice.current.addFlags } }

def closeGroup? (p : Progress) : Option Progress :=
  match p.outer with
  | [] => none
  | (mode, choice) :: outer =>
      some { p with mode, outer, choice := choice.add (p.choice.height + 1) }

def repeat? (p : Progress) : Option Progress :=
  p.choice.current.repeat?.map fun current => { p with choice := { p.choice with current } }

/-- What follows a repetition sign. A question mark right after it tells how much to take. -/
def afterRepetition : List Char → List Char
  | '?' :: rest => rest
  | rest => rest

def step? (p : Progress) (sign : Char) (rest : List Char) : Option (Progress × List Char) :=
  if sign = '(' then do
    let (opening, rest) ← opening? (p.mode.skip rest)
    return (← p.openGroup? opening, rest)
  else if sign = ')' then p.closeGroup?.map fun p => (p, rest)
  else if sign = '|' then some ({ p with choice := p.choice.next }, rest)
  else if ['*', '+', '?'].contains sign then p.repeat?.map fun p => (p, afterRepetition rest)
  else if sign = '[' then (class? p.mode rest).map fun (height, rest) => (p.add height, rest)
  else if sign = '\x7b' then none
  else if sign = '\\' then do
    let (escape, rest) ← escape? p.mode rest
    if p.mode.allows escape then return (p.add 0, rest) else none
  else
    let isAllowed :=
      if ['^', '$'].contains sign then true
      else if sign = '.' then !p.mode.bytes
      else p.mode.allowsChars
    if isAllowed then some (p.add 0, rest) else none

def isComplete (p : Progress) : Bool := p.outer.isEmpty && p.choice.height ≤ greatestHeight

end Progress

def readFrom? : (fuel : Nat) → Progress → List Char → Option Progress
  | 0, _, _ => none
  | fuel + 1, p, cs =>
      match p.mode.skip cs with
      | [] => some p
      | sign :: rest => (p.step? sign rest).bind fun (p, rest) => readFrom? fuel p rest

def isWellFormed (cs : List Char) : Bool :=
  (readFrom? (cs.length + 1) .start cs).any Progress.isComplete

end RouterHistory.Log.Pattern
