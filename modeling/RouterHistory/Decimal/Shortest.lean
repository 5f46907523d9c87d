/-!
The shortest decimal of a floating-point number: the fewest digits that read back as the same
number, and of those the nearest. The number is taken apart into a mantissa and a power of two,
and each decimal grid is tried in exact arithmetic.
-/
namespace RouterHistory.Decimal

/-- A positive rational number. -/
structure Ratio where
  num : Nat
  den : Nat

namespace Ratio

def scaled (num : Nat) (base : Nat) (exponent : Int) : Ratio :=
  if 0 ≤ exponent then ⟨num * Nat.pow base exponent.toNat, 1⟩
  else ⟨num, Nat.pow base exponent.natAbs⟩

def mul (a b : Ratio) : Ratio := ⟨a.num * b.num, a.den * b.den⟩

def le (a b : Ratio) : Bool := a.num * b.den ≤ b.num * a.den

def lt (a b : Ratio) : Bool := a.num * b.den < b.num * a.den

def floor (a : Ratio) : Nat := a.num / a.den

end Ratio

/-- The parts of a finite positive number: `mantissa * 2 ^ exponent`. -/
structure Parts where
  mantissa : Nat
  exponent : Int

def signPlace : Nat := 9223372036854775808

def leastMantissa : Nat := 4503599627370496

def partsOf (x : Float) : Parts :=
  let bits := x.toBits.toNat % signPlace
  let field : Nat := bits / leastMantissa
  let fraction := bits % leastMantissa
  if field = 0 then ⟨fraction, -1074⟩ else ⟨leastMantissa + fraction, (field : Int) - 1075⟩

namespace Parts

def value (p : Parts) : Ratio := Ratio.scaled p.mantissa 2 p.exponent

/-- Half way down to the number below; that gap is half as wide at a power of two. -/
def lower (p : Parts) : Ratio :=
  let gap := if p.mantissa = leastMantissa ∧ -1074 < p.exponent then 1 else 2
  Ratio.scaled (4 * p.mantissa - gap) 2 (p.exponent - 2)

def upper (p : Parts) : Ratio := Ratio.scaled (4 * p.mantissa + 2) 2 (p.exponent - 2)

/-- Holds of the reals that round to the number: the ends round to even mantissas. -/
def holds (p : Parts) (r : Ratio) : Bool :=
  if p.mantissa % 2 = 0 then p.lower.le r && r.le p.upper else p.lower.lt r && r.lt p.upper

end Parts

/-- A point of a decimal grid: `digits * 10 ^ exponent`. -/
structure GridPoint where
  digits : Nat
  exponent : Int

def GridPoint.ratio (d : GridPoint) : Ratio := Ratio.scaled d.digits 10 d.exponent

/-- The point of a grid nearest to the value among its neighbours there that read back as it; of
two equally near points the even one. -/
def onGrid (p : Parts) (exponent : Int) : Option GridPoint :=
  let scaledValue := p.value.mul (Ratio.scaled 1 10 (-exponent))
  let below := scaledValue.floor
  let down : GridPoint := ⟨below, exponent⟩
  let up : GridPoint := ⟨below + 1, exponent⟩
  let twice := 2 * (scaledValue.num % scaledValue.den)
  let upNearer := scaledValue.den < twice || scaledValue.den = twice && below % 2 = 1
  match p.holds down.ratio && below ≠ 0, p.holds up.ratio with
  | true, true => some (if upNearer then up else down)
  | true, false => some down
  | false, true => some up
  | false, false => none

/-- The least `n` with the value below `10 ^ n`, sought upwards from a first guess. -/
def magnitude (value : Ratio) : (steps : Nat) → Int → Int
  | 0, n => n
  | steps + 1, n =>
      if value.lt (Ratio.scaled 1 10 n) then n else magnitude value steps (n + 1)

def search (p : Parts) (magnitude : Int) : (grids : Nat) → Nat → GridPoint
  | 0, count => ⟨p.value.mul (Ratio.scaled 1 10 (count - magnitude)) |>.floor, magnitude - count⟩
  | grids + 1, count =>
      match onGrid p (magnitude - count) with
      | some d => d
      | none => search p magnitude grids (count + 1)

def GridPoint.strip : (steps : Nat) → GridPoint → GridPoint
  | 0, d => d
  | steps + 1, d =>
      if d.digits ≠ 0 ∧ d.digits % 10 = 0 then strip steps ⟨d.digits / 10, d.exponent + 1⟩ else d

def shortest (x : Float) : GridPoint :=
  let p := partsOf x
  let guess := ((p.mantissa.log2 : Int) + p.exponent) * 1233 / 4096 - 1
  (search p (magnitude p.value 5 guess) 17 1).strip 20

end RouterHistory.Decimal
