import RouterHistory.Log.Pattern.Escape

/-!
Classes of characters in square brackets: members, ranges and named classes, classes inside
classes, and operators between two sides.
-/
namespace RouterHistory.Log.Pattern

open Text

/-- One member of a class: a character, or a set, which has no place in a range. -/
def member? (m : Mode) : List Char → Option (Option Char × List Char)
  | [] => none
  | c :: rest =>
      let written (c : Char) (rest : List Char) : Option (Option Char × List Char) :=
        if m.allowsMember c then some (some c, rest) else none
      if c = '\\' then
        match escape? m rest with
        | some (.char c, rest) => written c rest
        | some (.byte c, rest) => written c rest
        | some (.set negated, rest) => if m.allows (.set negated) then some (none, rest) else none
        | _ => none
      else written c rest

def range? (m : Mode) (cs : List Char) : Option (List Char) := do
  let (low, rest) ← member? m cs
  match m.skip rest with
  | '-' :: after =>
      if [some ']', some '-'].contains (m.peek after) then return '-' :: after
      else
        let (high, rest) ← member? m (m.skip after)
        match low, high with
        | some low, some high => if low ≤ high then return rest else none
        | _, _ => none
  | rest => return rest

def hyphens (m : Mode) : (fuel : Nat) → Row → List Char → Row × List Char
  | fuel + 1, row, '-' :: rest => hyphens m fuel (row.add 0) (m.skip rest)
  | _, row, cs => (row, cs)

/-- Reads the beginning of a class after its bracket: a negation sign, and then hyphens or a
closing bracket, which stand for themselves there. The bytes outside a class are not all
characters. -/
def opened? (m : Mode) (cs : List Char) : Option (Row × List Char) :=
  let cs := m.skip cs
  let negated := cs.head? = some '^'
  let cs := if negated then m.skip (cs.drop 1) else cs
  let (row, rest) :=
    match cs with
    | ']' :: rest => (Row.empty.add 0, m.skip rest)
    | cs => hyphens m cs.length .empty cs
  if (m.bytes ∧ negated) ∨ (0 < row.count ∧ ¬ m.allowsChars) then none else some (row, rest)

def namedClasses : List String :=
  ["alnum", "alpha", "ascii", "blank", "cntrl", "digit", "graph", "lower", "print", "punct",
    "space", "upper", "word", "xdigit"]

/-- Reads a named class after its first bracket: whether it is negated, and what follows. -/
def namedClass? : List Char → Option (Bool × List Char)
  | ':' :: cs =>
      match cut? ':' cs with
      | some (name, ']' :: rest) =>
          let negated := name.head? = some '^'
          let name := if negated then name.drop 1 else name
          if namedClasses.contains (String.ofList name) then some (negated, rest) else none
      | _ => none
  | _ => none

/-- The height of a side of an operator together with what stands left of the operator. -/
def joined (left : Option Nat) (row : Row) : Nat :=
  match left with
  | none => row.height
  | some height => max height row.height + 1

/-- Reads a class on from the members of its last side. Gives its height and what follows. -/
def classFrom? (m : Mode) : (fuel : Nat) → (left : Option Nat) → Row → List Char →
    Option (Nat × List Char)
  | 0, _, _, _ => none
  | fuel + 1, left, row, cs =>
      match m.skip cs with
      | [] => none
      | ']' :: rest => some (joined left row + 1, rest)
      | '[' :: rest =>
          match namedClass? rest with
          | some (negated, rest) =>
              if m.allowsNamed negated then classFrom? m fuel left (row.add 0) rest else none
          | none => do
              let (inner, rest) ← opened? m rest
              let (height, rest) ← classFrom? m fuel none inner rest
              classFrom? m fuel left (row.add height) rest
      | '&' :: '&' :: rest => classFrom? m fuel (some (joined left row)) .empty rest
      | '-' :: '-' :: rest => classFrom? m fuel (some (joined left row)) .empty rest
      | '~' :: '~' :: rest => classFrom? m fuel (some (joined left row)) .empty rest
      | cs => do
          let rest ← range? m cs
          classFrom? m fuel left (row.add 0) rest

def class? (m : Mode) (cs : List Char) : Option (Nat × List Char) := do
  let (row, rest) ← opened? m cs
  classFrom? m (cs.length + 1) none row rest

end RouterHistory.Log.Pattern
