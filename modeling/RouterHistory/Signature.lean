import RouterHistory.Text.Quoted
import Std.Data.ExtTreeMap

/-!
Transaction signatures and their spelling in base58. A byte string is read as one number written
in base 256 and expanded in base 58; every zero byte in front keeps a place of its own as a
leading `1`. A signature is kept as the text it was delivered in, which may be any text; only a
base58 text of 64 bytes is well formed. Signatures are ordered by that text.
-/
namespace RouterHistory.Base58

def alphabet : List Char :=
  "123456789ABCDEFGHJKLMNPQRSTUVWXYZabcdefghijkmnopqrstuvwxyz".toList

/-- Why a text is not base58, with the position of the first offending byte. -/
inductive Fault where
  | nonAscii (position : Nat)
  | notADigit (character : Char) (position : Nat)
  deriving DecidableEq, Repr

def Fault.message : Fault → String
  | .nonAscii position =>
      s!"provided string contained non-ascii character starting at byte {position}"
  | .notADigit c position =>
      s!"provided string contained invalid character {Text.quotedChar c} at byte {position}"

def digitOf? (c : Char) : Option Nat := alphabet.idxOf? c

def charOf (digit : Nat) : Char := alphabet.getD digit '1'

/-- Reads the digits from the left and stops at the first character that is none. The characters
before it are one byte wide, so the position counts bytes as well as characters. -/
def readDigits : Nat → List Char → Except Fault (List Nat)
  | _, [] => .ok []
  | position, c :: rest =>
      if 127 < c.toNat then .error (.nonAscii position)
      else
        match digitOf? c with
        | none => .error (.notADigit c position)
        | some d => (readDigits (position + 1) rest).map (d :: ·)

def number (base : Nat) (digits : List Nat) : Nat := digits.foldl (fun n d => n * base + d) 0

/-- The digits of a number, lowest first and without zeros at the high end; at most `width`. -/
def expand (base : Nat) : (width : Nat) → Nat → List Nat
  | 0, _ => []
  | width + 1, n => if n = 0 then [] else n % base :: expand base width (n / base)

def places (base width n : Nat) : List Nat := (expand base width n).reverse

def leadingZeros (digits : List Nat) : Nat := (digits.takeWhile (· = 0)).length

/-- Expands digits in another base, keeping one zero for each zero in front. -/
def rebase (source target width : Nat) (digits : List Nat) : List Nat :=
  List.replicate (leadingZeros digits) 0 ++ places target width (number source digits)

def encode (bytes : List UInt8) : String :=
  let digits := rebase 256 58 (2 * bytes.length) (bytes.map UInt8.toNat)
  String.ofList (digits.map charOf)

def decode (text : String) : Except Fault (List UInt8) :=
  (readDigits 0 text.toList).map fun digits =>
    (rebase 58 256 digits.length digits).map UInt8.ofNat

def decodesTo (size : Nat) (text : String) : Bool :=
  match decode text with
  | .ok bytes => bytes.length = size
  | .error _ => false

end RouterHistory.Base58

namespace RouterHistory

/-- The identity of a transaction. -/
structure Signature where
  text : String
  deriving DecidableEq, Repr

namespace Signature

def size : Nat := 64

def ofBytes (bytes : List UInt8) : Signature := ⟨Base58.encode bytes⟩

def isWellFormed (s : Signature) : Bool := Base58.decodesTo size s.text

instance : Ord Signature := ⟨fun a b => compare a.text b.text⟩

instance : Std.TransOrd Signature where
  eq_swap {a b} := (Std.OrientedOrd.eq_swap : compare a.text b.text = _)
  isLE_trans {a b c} h₁ h₂ := by
    have h₁ : (compare a.text b.text).isLE := h₁
    have h₂ : (compare b.text c.text).isLE := h₂
    have h : (compare a.text c.text).isLE := Std.TransOrd.isLE_trans h₁ h₂
    exact h

instance : Std.LawfulEqOrd Signature where
  eq_of_compare {a b} h := by
    have h : compare a.text b.text = .eq := h
    cases a; cases b
    exact congrArg Signature.mk (Std.compare_eq_iff_eq.1 h)

instance : ToString Signature := ⟨Signature.text⟩

end Signature

end RouterHistory
