import RouterHistory.Text.Basic

/-!
The modes in which parts of a pattern are read, the heights of parts, and what a backslash makes
of the signs after it. A mode tells what is passed over between signs and which characters have a
meaning; a height tells how deep a part is nested, and is bounded.
-/
namespace RouterHistory.Log.Pattern

open Text

/-- How a part of a pattern is read. -/
structure Mode where
  /-- Whether it is about bytes and not about characters. -/
  bytes : Bool
  /-- Whether letters match in any case. -/
  anyCase : Bool
  /-- Whether blanks, and comments from a number sign to the end of a line, mean nothing. -/
  spaced : Bool
  deriving DecidableEq, Repr

def dropIdle : (inComment : Bool) → List Char → List Char
  | _, [] => []
  | true, c :: rest => dropIdle (c != '\n') rest
  | false, c :: rest =>
      if c = '#' then dropIdle true rest
      else if isBlank c then dropIdle false rest
      else c :: rest

namespace Mode

def usual : Mode := ⟨false, false, false⟩

def skip (m : Mode) (cs : List Char) : List Char := if m.spaced then dropIdle false cs else cs

/-- The sign that comes next. Of a comment only its number sign is passed over. -/
def peek (m : Mode) (cs : List Char) : Option Char :=
  if m.spaced then
    match dropBlanks cs with
    | '#' :: rest => (dropBlanks rest).head?
    | rest => rest.head?
  else cs.head?

def adjust (m : Mode) (flags : List Char) : Mode :=
  let (given, revoked) := (cut? '-' flags).getD (flags, [])
  let turn (was : Bool) (flag : Char) : Bool :=
    (was || given.contains flag) && !revoked.contains flag
  ⟨!turn (!m.bytes) 'u', turn m.anyCase 'i', turn m.spaced 'x'⟩

def allowsChars (m : Mode) : Bool := m.bytes || !m.anyCase

/-- Whether a character can be written in a class, where one that is no byte is not looked for
among bytes. -/
def allowsMember (m : Mode) (c : Char) : Bool :=
  if m.bytes then c.toNat < 128 else !m.anyCase

/-- Whether a named class can be written. The bytes outside it are not all characters. -/
def allowsNamed (m : Mode) (negated : Bool) : Bool := if m.bytes then !negated else !m.anyCase

end Mode

/-- Parts side by side, by their heights: how many they are and how high the highest is. -/
structure Row where
  count : Nat
  highest : Nat
  deriving DecidableEq, Repr

namespace Row

def empty : Row := ⟨0, 0⟩

def add (r : Row) (height : Nat) : Row := ⟨r.count + 1, max r.highest height⟩

def height (r : Row) : Nat := if r.count ≤ 1 then r.highest else r.highest + 1

end Row

def greatestHeight : Nat := 250

def hexDigit? (c : Char) : Option Nat :=
  if c.isDigit then some (c.toNat - 48)
  else if 'a' ≤ c.toLower ∧ c.toLower ≤ 'f' then some (c.toLower.toNat - 87)
  else none

def codeFrom? (m : Mode) : (digits code : Nat) → List Char → Option (Nat × List Char)
  | 0, code, cs => some (code, cs)
  | digits + 1, code, cs =>
      match m.skip cs with
      | [] => none
      | c :: rest => (hexDigit? c).bind fun d => codeFrom? m digits (16 * code + d) rest

def codePoint? (m : Mode) (digits : Nat) (cs : List Char) : Option (Char × List Char) := do
  let (code, rest) ← codeFrom? m digits 0 cs
  if (code < 0xd800 ∨ 0xdfff < code) ∧ code < 0x110000 then return (Char.ofNat code, rest)
  else none

/-- What a backslash and the signs after it stand for. -/
inductive Escape where
  | char (c : Char)
  /-- A character by two digits, which can be those of a byte. -/
  | byte (c : Char)
  /-- A set of characters, or all characters outside it. -/
  | set (negated : Bool)
  /-- An end of the text. -/
  | anchor
  /-- A place where a word begins or ends, or where none does. -/
  | boundary
  deriving DecidableEq, Repr

def controls : List (Char × Nat) :=
  [('a', 7), ('t', 9), ('n', 10), ('v', 11), ('f', 12), ('r', 13)]

def isEscapable (c : Char) : Bool := c.toNat < 128 && !c.isAlphanum && c != '<' && c != '>'

def escape? (m : Mode) : List Char → Option (Escape × List Char)
  | [] => none
  | c :: rest =>
      if isEscapable c then some (.char c, rest)
      else if ['d', 's', 'w'].contains c then some (.set false, rest)
      else if ['D', 'S', 'W'].contains c then some (.set true, rest)
      else if ['A', 'z'].contains c then some (.anchor, rest)
      else if ['b', 'B', '<', '>'].contains c then some (.boundary, rest)
      else if c = 'x' then (codePoint? m 2 rest).map fun (c, rest) => (.byte c, rest)
      else if c = 'u' then (codePoint? m 4 rest).map fun (c, rest) => (.char c, rest)
      else if c = 'U' then (codePoint? m 8 rest).map fun (c, rest) => (.char c, rest)
      else (controls.lookup c).map fun code => (.char (Char.ofNat code), rest)

/-- Whether an escape has a meaning outside classes. A byte that is no character has none, and
the characters outside a set are not all single bytes. -/
def Mode.allows (m : Mode) : Escape → Bool
  | .char _ => m.allowsChars
  | .byte c => if m.bytes then c.toNat < 128 else !m.anyCase
  | .set negated => m.bytes && !negated
  | .anchor => true
  | .boundary => m.bytes

end RouterHistory.Log.Pattern
