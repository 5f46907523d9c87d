import RouterHistory.Instant
import RouterHistory.Text.Basic

/-!
Timestamps in the notation of RFC 3339. Writing gives UTC with the fewest of 0, 3, 6 or 9
digits that hold the fraction. Reading is lenient about blanks between the parts, takes any
offset below a day, and accepts second 60 as a leap second.
-/
namespace RouterHistory.Timestamp

open Text Calendar

abbrev Scan := StateT (List Char) Option

def isDigit (c : Char) : Bool := '0' ≤ c && c ≤ '9'

def digitsValue (digits : List Char) : Nat :=
  digits.foldl (fun n c => n * 10 + (c.toNat - '0'.toNat)) 0

def digits (limit : Nat) : Scan (List Char) := fun cs =>
  let found := (cs.take limit).takeWhile isDigit
  if found.isEmpty then none else some (found, cs.drop found.length)

def allDigits : Scan (List Char) := fun cs => digits cs.length cs

def blanks : Scan Unit := fun cs => some ((), dropBlanks cs)

def exactly (c : Char) : Scan Unit
  | d :: rest => if d = c then some ((), rest) else none
  | [] => none

def number (limit : Nat) : Scan Nat := do
  blanks
  return digitsValue (← digits limit)

def year : Scan Int := do
  blanks
  match ← get with
  | '-' :: rest => set rest; return -(digitsValue (← allDigits) : Int)
  | '+' :: rest => set rest; return digitsValue (← allDigits)
  | _ => return digitsValue (← digits 4)

def date : Scan Date := do
  let y ← year
  blanks; exactly '-'
  let m ← number 2
  blanks; exactly '-'
  let d ← number 2
  let date : Date := ⟨y, m, d⟩
  if date.IsValid then return date else failure

def separator : Scan Unit
  | c :: rest => if c = 't' || c = 'T' || c = ' ' then some ((), rest) else none
  | [] => none

/-- The fraction of a second in nanoseconds; digits after the ninth are dropped. -/
def fraction : Scan Nat := fun cs =>
  match cs with
  | '.' :: rest =>
      let found := rest.takeWhile isDigit
      if found.isEmpty then none
      else
        let kept := found.take 9
        some (digitsValue kept * Nat.pow 10 (9 - kept.length), rest.drop found.length)
  | _ => some (0, cs)

structure TimeOfDay where
  seconds : Nat
  nanos : Nat

/-- A time of day; second 60 is second 59 with a thousand million nanoseconds more. -/
def timeOfDay : Scan TimeOfDay := do
  let hour ← number 2
  blanks; exactly ':'
  let minute ← number 2
  blanks; exactly ':'
  let second ← number 2
  let nanos ← fraction
  if hour < 24 ∧ minute < 60 ∧ second ≤ 60 then
    let start := hour * 3600 + minute * 60
    if second = 60 then return ⟨start + 59, nanos + 1000000000⟩
    else return ⟨start + second, nanos⟩
  else failure

def twoDigits : Scan Nat
  | a :: b :: rest =>
      if isDigit a && isDigit b then some (digitsValue [a, b], rest) else none
  | _ => none

def signedOffset (negative : Bool) : Scan Int := do
  let hours ← twoDigits
  modify fun cs => cs.dropWhile fun c => c = ':' || isBlank c
  let minutes ← twoDigits
  if minutes < 60 then
    let seconds : Int := hours * 3600 + minutes * 60
    return if negative then -seconds else seconds
  else failure

/-- The distance of local time from UTC in seconds. The minus sign may be U+2212. -/
def offset : Scan Int := fun cs =>
  match cs with
  | c :: rest =>
      if c = 'Z' || c = 'z' then some (0, rest)
      else if c = '+' then signedOffset false rest
      else if c = '-' || c.toNat = 0x2212 then signedOffset true rest
      else if (cs.take 3).map Char.toUpper = ['U', 'T', 'C'] then some (0, cs.drop 3)
      else none
  | [] => none

def secondsInDay : Int := 86400

/-- The instant of a local date and time; both local time and UTC must be representable. -/
def localInstant? (d : Date) (t : TimeOfDay) (offset : Int) : Option Instant :=
  let localSeconds := d.toDays * secondsInDay + t.seconds
  if Instant.InRange localSeconds ∧ -secondsInDay < offset ∧ offset < secondsInDay then
    Instant.ofParts? (localSeconds - offset) t.nanos
  else none

def instant : Scan Instant := do
  let d ← date
  separator
  let t ← timeOfDay
  blanks
  let o ← offset
  blanks
  match ← get with
  | [] => liftM (localInstant? d t o)
  | _ => failure

def read? (text : String) : Option Instant := (instant text.toList).map Prod.fst

def padded (width n : Nat) : String :=
  let digits := Nat.toDigits 10 n
  String.ofList (List.replicate (width - digits.length) '0' ++ digits)

/-- Years of four digits stand alone; all others have a sign. -/
def yearText (y : Int) : String :=
  if 0 ≤ y ∧ y ≤ 9999 then padded 4 y.toNat
  else (if y < 0 then "-" else "+") ++ padded 4 y.natAbs

def fractionText (nanos : Nat) : String :=
  if nanos = 0 then ""
  else if nanos % 1000000 = 0 then "." ++ padded 3 (nanos / 1000000)
  else if nanos % 1000 = 0 then "." ++ padded 6 (nanos / 1000)
  else "." ++ padded 9 nanos

def write (i : Instant) : String :=
  let d := Date.ofDays (i.seconds / secondsInDay)
  let t := (i.seconds % secondsInDay).toNat
  let leap := 1000000000 ≤ i.nanos
  let second := if leap then t % 60 + 1 else t % 60
  let nanos := if leap then i.nanos - 1000000000 else i.nanos
  yearText d.year ++ "-" ++ padded 2 d.month ++ "-" ++ padded 2 d.day ++ "T" ++
    padded 2 (t / 3600) ++ ":" ++ padded 2 (t / 60 % 60) ++ ":" ++ padded 2 second ++
    fractionText nanos ++ "Z"

end RouterHistory.Timestamp
