import RouterHistory.Decimal.Shortest

/-!
How a floating-point number is written and read. It is written with its shortest decimal, always
with a point or an exponent. It is read by one multiplication or division with a power of ten,
after the digits that fit a 64-bit word have been gathered.
-/
namespace RouterHistory.Decimal

/-- Numbers from `10 ^ lowest` up to `10 ^ highest` are written without an exponent. -/
structure Positional where
  lowest : Int
  highest : Int

def Positional.default : Positional := ⟨-5, 16⟩

def zeros (n : Nat) : String := String.ofList (List.replicate n '0')

def writeFinite (style : Positional) (d : GridPoint) : String :=
  let digits := (Nat.toDigits 10 d.digits)
  let size : Int := digits.length
  let point := size + d.exponent
  if 0 ≤ d.exponent ∧ point ≤ style.highest then
    String.ofList digits ++ zeros d.exponent.toNat ++ ".0"
  else if 0 < point ∧ point ≤ style.highest then
    String.ofList (digits.take point.toNat) ++ "." ++ String.ofList (digits.drop point.toNat)
  else if style.lowest < point ∧ point ≤ 0 then
    "0." ++ zeros point.natAbs ++ String.ofList digits
  else
    let tail := digits.drop 1
    String.ofList (digits.take 1) ++ (if tail.isEmpty then "" else "." ++ String.ofList tail) ++
      "e" ++ toString (point - 1)

def write (x : Float) : String :=
  let sign := if x.toBits.toNat < signPlace then "" else "-"
  if x == 0.0 then sign ++ "0.0" else sign ++ writeFinite .default (shortest x)

/-- The parts of a decimal text: a sign and digits, the fraction and the exponent if written. -/
structure Numeral where
  negative : Bool
  whole : List Nat
  fraction : Option (List Nat)
  exponent : Option (Bool × List Nat)
  deriving DecidableEq, Repr

def largestWord : Nat := UInt64.size - 1

/-- Gathers the digits of a whole number while they fit a word; the others only count. -/
def gatherWhole : (word : Nat) → List Nat → Nat × Nat
  | word, [] => (word, 0)
  | word, d :: rest =>
      if word * 10 + d ≤ largestWord then gatherWhole (word * 10 + d) rest
      else (word, (d :: rest).length)

/-- Gathers the digits of a fraction while they fit a word and drops the others. -/
def gatherFraction : (word taken : Nat) → List Nat → Nat × Nat
  | word, taken, [] => (word, taken)
  | word, taken, d :: rest =>
      if word * 10 + d ≤ largestWord then gatherFraction (word * 10 + d) (taken + 1) rest
      else (word, taken)

def largestPower : Nat := 308

def powerOfTen (n : Nat) : Float := Float.ofScientific 1 false n

/-- Multiplies or divides by a power of ten; nothing when the result is too large. A power
beyond the table is divided out in steps. -/
def scale : (steps : Nat) → Float → Int → Option Float
  | steps, x, exponent =>
      if exponent.natAbs ≤ largestPower then
        if 0 ≤ exponent then
          let y := x * powerOfTen exponent.natAbs
          if y.isInf then none else some y
        else some (x / powerOfTen exponent.natAbs)
      else if x == 0.0 then some x
      else if 0 ≤ exponent then none
      else
        match steps with
        | 0 => some 0.0
        | steps + 1 => scale steps (x / powerOfTen largestPower) (exponent + largestPower)

def digitsValue (digits : List Nat) : Nat := digits.foldl (fun n d => n * 10 + d) 0

/-- Exponents are 32-bit; a larger one gives zero or a number out of range. -/
def largestExponent : Int := 2147483647

def clampExponent (e : Int) : Int := max (-largestExponent - 1) (min largestExponent e)

namespace Numeral

def isWhole (n : Numeral) : Bool := n.fraction.isNone && n.exponent.isNone

def wholeValue (n : Numeral) : Nat := digitsValue n.whole

/-- The floating-point number of the numeral; nothing when it is out of range. -/
def toFloat? (n : Numeral) : Option Float :=
  let (word, dropped) := gatherWhole 0 n.whole
  let (word, taken) := gatherFraction word 0 (n.fraction.getD [])
  let start : Int := (dropped : Int) - taken
  let signed (x : Float) : Float := if n.negative then -x else x
  match n.exponent with
  | none => (scale 8 (Float.ofNat word) start).map signed
  | some (down, digits) =>
      let size := digitsValue digits
      if (size : Int) ≤ largestExponent then
        let exponent := clampExponent (if down then start - size else start + size)
        (scale 8 (Float.ofNat word) exponent).map signed
      else if word ≠ 0 ∧ ¬ down then none
      else some (signed 0.0)

end Numeral

end RouterHistory.Decimal
