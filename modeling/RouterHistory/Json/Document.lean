import RouterHistory.Decimal.Text

/-!
JSON texts as they are written. A document keeps numbers as numerals and repeated keys as
repeated members; what they mean is for its reader to decide. A string whose escapes leave half
of a surrogate pair has no text.
-/
namespace RouterHistory.Json

open Decimal (Numeral)

inductive Document where
  | null
  | bool (value : Bool)
  | number (numeral : Numeral)
  | string (text : Option String)
  | array (items : List Document)
  | object (members : List (Option String × Document))
  deriving Repr

inductive Token where
  | openArray
  | closeArray
  | openObject
  | closeObject
  | comma
  | colon
  | null
  | bool (value : Bool)
  | number (numeral : Numeral)
  | string (text : Option String)
  deriving Repr

namespace Token

def isSpace (c : Char) : Bool := c = ' ' || c = '\t' || c = '\n' || c = '\r'

def digit? (c : Char) : Option Nat :=
  if '0' ≤ c && c ≤ '9' then some (c.toNat - 48) else none

def hexDigit? (c : Char) : Option Nat :=
  if '0' ≤ c && c ≤ '9' then some (c.toNat - 48)
  else if 'a' ≤ c && c ≤ 'f' then some (c.toNat - 87)
  else if 'A' ≤ c && c ≤ 'F' then some (c.toNat - 55)
  else none

/-- A piece of a string: a character, or half of a surrogate pair. -/
inductive Piece where
  | char (c : Char)
  | high (unit : Nat)
  | low (unit : Nat)

def pieceOfUnit (unit : Nat) : Piece :=
  if 0xd800 ≤ unit ∧ unit < 0xdc00 then .high unit
  else if 0xdc00 ≤ unit ∧ unit < 0xe000 then .low unit
  else .char (Char.ofNat unit)

def simpleEscape? (c : Char) : Option Char :=
  match c.toNat with
  | 34 => some (Char.ofNat 34)
  | 92 => some (Char.ofNat 92)
  | 47 => some '/'
  | 98 => some (Char.ofNat 8)
  | 102 => some (Char.ofNat 12)
  | 110 => some '\n'
  | 114 => some '\r'
  | 116 => some '\t'
  | _ => none

/-- Reads a string up to its closing quote; the pieces come in reverse. -/
def pieces : List Piece → List Char → Option (List Piece × List Char)
  | _, [] => none
  | found, c :: rest =>
      if c.toNat = 34 then some (found, rest)
      else if c.toNat < 32 then none
      else if c.toNat = 92 then
        match rest with
        | 'u' :: a :: b :: d :: e :: rest =>
            match hexDigit? a, hexDigit? b, hexDigit? d, hexDigit? e with
            | some a, some b, some d, some e =>
                pieces (pieceOfUnit (((a * 16 + b) * 16 + d) * 16 + e) :: found) rest
            | _, _, _, _ => none
        | escape :: rest =>
            match simpleEscape? escape with
            | some c => pieces (.char c :: found) rest
            | none => none
        | [] => none
      else pieces (.char c :: found) rest

/-- Joins surrogate pairs, going through the pieces from the last to the first. -/
def join : List Char → List Piece → Option (List Char)
  | text, [] => some text
  | text, .char c :: rest => join (c :: text) rest
  | text, .low low :: .high high :: rest =>
      join (Char.ofNat (0x10000 + (high - 0xd800) * 0x400 + (low - 0xdc00)) :: text) rest
  | _, .low _ :: _ => none
  | _, .high _ :: _ => none

def digits : List Char → List Nat × List Char
  | [] => ([], [])
  | c :: rest =>
      match digit? c with
      | some d => let (ds, rest) := digits rest; (d :: ds, rest)
      | none => ([], c :: rest)

def someDigits (cs : List Char) : Option (List Nat × List Char) :=
  match digits cs with
  | ([], _) => none
  | found => some found

/-- The whole part of a number: zero, or digits that do not begin with zero. -/
def whole (cs : List Char) : Option (List Nat × List Char) :=
  match someDigits cs with
  | some (0 :: _ :: _, _) => none
  | found => found

def fraction : List Char → Option (Option (List Nat) × List Char)
  | '.' :: rest => (someDigits rest).map fun (ds, rest) => (some ds, rest)
  | cs => some (none, cs)

def exponent : List Char → Option (Option (Bool × List Nat) × List Char)
  | c :: rest =>
      if c = 'e' || c = 'E' then
        let (down, rest) :=
          match rest with
          | '-' :: rest => (true, rest)
          | '+' :: rest => (false, rest)
          | _ => (false, rest)
        (someDigits rest).map fun (ds, rest) => (some (down, ds), rest)
      else some (none, c :: rest)
  | [] => some (none, [])

def numeral (cs : List Char) : Option (Numeral × List Char) := do
  let (negative, cs) :=
    match cs with
    | '-' :: rest => (true, rest)
    | _ => (false, cs)
  let (w, cs) ← whole cs
  let (f, cs) ← fraction cs
  let (e, cs) ← exponent cs
  return (⟨negative, w, f, e⟩, cs)

def punctuation? (c : Char) : Option Token :=
  match c.toNat with
  | 91 => some .openArray
  | 93 => some .closeArray
  | 123 => some .openObject
  | 125 => some .closeObject
  | 44 => some .comma
  | 58 => some .colon
  | _ => none

def first (cs : List Char) : Option (Token × List Char) :=
  match cs with
  | 't' :: 'r' :: 'u' :: 'e' :: rest => some (.bool true, rest)
  | 'f' :: 'a' :: 'l' :: 's' :: 'e' :: rest => some (.bool false, rest)
  | 'n' :: 'u' :: 'l' :: 'l' :: rest => some (.null, rest)
  | c :: rest =>
      match punctuation? c with
      | some token => some (token, rest)
      | none =>
          if c.toNat = 34 then
            (pieces [] rest).map fun (found, rest) =>
              (.string ((join [] found).map String.ofList), rest)
          else (numeral cs).map fun (n, rest) => (.number n, rest)
  | [] => none

/-- The tokens of a text; `steps` bounds their number. -/
def scan : (steps : Nat) → List Token → List Char → Option (List Token)
  | steps, found, cs =>
      match cs.dropWhile isSpace with
      | [] => some found.reverse
      | cs =>
          match steps with
          | 0 => none
          | steps + 1 =>
              match first cs with
              | some (token, rest) => scan steps (token :: found) rest
              | none => none

end Token

namespace Document

mutual

/-- Reads one value; `steps` bounds the number of values and separators read. -/
def value : (steps : Nat) → List Token → Option (Document × List Token)
  | 0, _ => none
  | steps + 1, tokens =>
      match tokens with
      | .null :: rest => some (.null, rest)
      | .bool b :: rest => some (.bool b, rest)
      | .number n :: rest => some (.number n, rest)
      | .string s :: rest => some (.string s, rest)
      | .openArray :: .closeArray :: rest => some (.array [], rest)
      | .openArray :: rest => items steps [] rest
      | .openObject :: .closeObject :: rest => some (.object [], rest)
      | .openObject :: rest => members steps [] rest
      | _ => none

def items : (steps : Nat) → List Document → List Token → Option (Document × List Token)
  | 0, _, _ => none
  | steps + 1, found, tokens =>
      match value steps tokens with
      | some (v, .comma :: rest) => items steps (v :: found) rest
      | some (v, .closeArray :: rest) => some (.array (v :: found).reverse, rest)
      | _ => none

def members : (steps : Nat) → List (Option String × Document) → List Token →
    Option (Document × List Token)
  | 0, _, _ => none
  | steps + 1, found, tokens =>
      match tokens with
      | .string key :: .colon :: rest =>
          match value steps rest with
          | some (v, .comma :: rest) => members steps ((key, v) :: found) rest
          | some (v, .closeObject :: rest) => some (.object ((key, v) :: found).reverse, rest)
          | _ => none
      | _ => none

end

def read? (text : String) : Option Document :=
  let cs := text.toList
  match Token.scan (cs.length + 1) [] cs with
  | none => none
  | some tokens =>
      match value (tokens.length + 1) tokens with
      | some (d, []) => some d
      | _ => none

end Document

end RouterHistory.Json
