import RouterHistory.Json.Value

/-!
Typed reading of JSON documents. A structure is read from an object or from an array of its
fields in order. Members that the structure does not have are passed over unread, but one of its
own members must not be repeated. Everything that is kept may be nested 127 levels deep.
-/
namespace RouterHistory.Json

abbrev Decoder (α : Type) := (depth : Nat) → Document → Option α

namespace Decoder

def depthLimit : Nat := 128

def enter (depth : Nat) : Option Nat := if depth ≤ 1 then none else some (depth - 1)

def run (d : Decoder α) (document : Document) : Option α := d depthLimit document

def ofText (d : Decoder α) (text : String) : Option α := (Document.read? text).bind d.run

def map (f : α → β) (d : Decoder α) : Decoder β := fun depth doc => (d depth doc).map f

def filterMap (f : α → Option β) (d : Decoder α) : Decoder β :=
  fun depth doc => (d depth doc).bind f

def text : Decoder String
  | _, .string s => s
  | _, _ => none

def bool : Decoder Bool
  | _, .bool b => some b
  | _, _ => none

def number : Decoder Number
  | _, .number n => Number.ofNumeral? n
  | _, _ => none

def natThrough (greatest : Nat) : Decoder Nat :=
  number.filterMap fun
    | .natural n => if n.toNat ≤ greatest then some n.toNat else none
    | _ => none

def uint64 : Decoder UInt64 :=
  number.filterMap fun
    | .natural n => some n
    | _ => none

def uint32 : Decoder UInt32 := (natThrough (UInt32.size - 1)).map UInt32.ofNat

def uint16 : Decoder UInt16 := (natThrough (UInt16.size - 1)).map UInt16.ofNat

def byte : Decoder UInt8 := (natThrough 255).map UInt8.ofNat

def int64 : Decoder Int :=
  number.filterMap fun
    | .natural n => if (n.toNat : Int) < -Number.lowest then some n.toNat else none
    | .negative i => some i
    | .float _ => none

/-- A floating-point number; whole numbers are taken too. -/
def float : Decoder Float :=
  number.map fun
    | .natural n => n.toFloat
    | .negative i => -(UInt64.ofNat i.natAbs).toFloat
    | .float x => x

def value : Decoder Value := Value.ofDocument?

def optional (d : Decoder α) : Decoder (Option α)
  | _, .null => some none
  | depth, doc => (d depth doc).map some

def list (d : Decoder α) : Decoder (List α)
  | depth, .array items => (enter depth).bind fun depth => items.mapM (d depth)
  | _, _ => none

end Decoder

/-- What a document gives for each field of a structure. -/
structure Fields where
  depth : Nat
  found : List (String × Document)

namespace Fields

/-- Gathers the members that are fields, refusing a repeated one and a key without text. -/
def gather (names : List String) : List (String × Document) →
    List (Option String × Document) → Option (List (String × Document))
  | found, [] => some found
  | _, (none, _) :: _ => none
  | found, (some key, d) :: rest =>
      if names.contains key then
        if (found.lookup key).isSome then none else gather names ((key, d) :: found) rest
      else gather names found rest

def of (names : List String) : Decoder Fields
  | depth, .object members => do
      let depth ← Decoder.enter depth
      return ⟨depth, ← gather names [] members⟩
  | depth, .array items => do
      let depth ← Decoder.enter depth
      if items.length ≤ names.length then return ⟨depth, names.zip items⟩ else none
  | _, _ => none

def required (f : Fields) (name : String) (d : Decoder α) : Option α :=
  (f.found.lookup name).bind (d f.depth)

def optional (f : Fields) (name : String) (fallback : α) (d : Decoder α) : Option α :=
  match f.found.lookup name with
  | none => some fallback
  | some doc => d f.depth doc

end Fields

end RouterHistory.Json
