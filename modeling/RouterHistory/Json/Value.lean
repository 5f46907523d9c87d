import RouterHistory.Json.Document

/-!
JSON values: numbers are whole when they fit 64 bits and floating-point otherwise, and an object
has each key once. Reading a value from a document keeps the last of repeated members and sorts
the keys.
-/
namespace RouterHistory.Json

open Decimal (Numeral)

inductive Number where
  | natural (n : UInt64)
  | negative (i : Int)
  | float (x : Float)
  deriving Repr

namespace Number

def lowest : Int := -9223372036854775808

/-- The number of a numeral; nothing when it is too large. Minus zero is floating-point. -/
def ofNumeral? (n : Numeral) : Option Number :=
  let whole := n.wholeValue
  if n.isWhole ∧ ¬ n.negative ∧ whole ≤ Decimal.largestWord then
    some (.natural (UInt64.ofNat whole))
  else if n.isWhole ∧ n.negative ∧ whole ≠ 0 ∧ lowest ≤ -(whole : Int) then
    some (.negative (-(whole : Int)))
  else n.toFloat?.map .float

def text : Number → String
  | .natural n => toString n.toNat
  | .negative i => toString i
  | .float x => Decimal.write x

end Number

inductive Value where
  | null
  | bool (value : Bool)
  | number (value : Number)
  | string (text : String)
  | array (items : List Value)
  | object (members : List (String × Value))
  deriving Repr

namespace Value

def ofNat (n : Nat) : Value := .number (.natural (UInt64.ofNat n))

def ofUInt64 (n : UInt64) : Value := .number (.natural n)

def ofInt (i : Int) : Value :=
  if 0 ≤ i then ofNat i.toNat else .number (.negative i)

def ofOption (encode : α → Value) : Option α → Value
  | none => .null
  | some a => encode a

def ofList (encode : α → Value) (items : List α) : Value := .array (items.map encode)

def insertMember (key : String) (value : α) : List (String × α) → List (String × α)
  | [] => [(key, value)]
  | (k, v) :: rest =>
      if key < k then (key, value) :: (k, v) :: rest
      else if key = k then (key, value) :: rest
      else (k, v) :: insertMember key value rest

mutual

/-- The value of a document; `depth` counts the nesting still allowed, itself included. -/
def ofDocument? : (depth : Nat) → Document → Option Value
  | _, .null => some .null
  | _, .bool b => some (.bool b)
  | _, .number n => (Number.ofNumeral? n).map .number
  | _, .string s => s.map .string
  | depth, .array items => if depth ≤ 1 then none else (itemsOf? (depth - 1) items).map .array
  | depth, .object members =>
      if depth ≤ 1 then none
      else (membersOf? (depth - 1) members).map fun ms =>
        .object (ms.foldl (fun sorted m => insertMember m.1 m.2 sorted) [])

def itemsOf? : (depth : Nat) → List Document → Option (List Value)
  | _, [] => some []
  | depth, d :: rest =>
      match ofDocument? depth d, itemsOf? depth rest with
      | some v, some vs => some (v :: vs)
      | _, _ => none

def membersOf? : (depth : Nat) → List (Option String × Document) →
    Option (List (String × Value))
  | _, [] => some []
  | depth, (key, d) :: rest =>
      match key, ofDocument? depth d, membersOf? depth rest with
      | some k, some v, some vs => some ((k, v) :: vs)
      | _, _, _ => none

end

mutual

def sorted : Value → Value
  | .array items => .array (sortedItems items)
  | .object members =>
      .object ((sortedMembers members).foldl (fun done m => insertMember m.1 m.2 done) [])
  | v => v

def sortedItems : List Value → List Value
  | [] => []
  | v :: rest => sorted v :: sortedItems rest

def sortedMembers : List (String × Value) → List (String × Value)
  | [] => []
  | (k, v) :: rest => (k, sorted v) :: sortedMembers rest

end

def find? (key : String) : Value → Option Value
  | .object members => members.lookup key
  | _ => none

end Value

end RouterHistory.Json
