/-!
Points in time as seconds since 1970 and nanoseconds within the second. The range of representable
seconds covers the calendar years -262143 through 262142. A leap second shares the number of the
second before it and counts its nanoseconds from one thousand million.

The calendar is the proleptic Gregorian one. Days are counted from 1970-01-01; the year is taken
to begin in March, so that the leap day comes last and every era of 400 years has the same length.
-/
namespace RouterHistory

namespace Instant

def firstSecond : Int := -8334601228800

def lastSecond : Int := 8210266876799

def InRange (seconds : Int) : Prop := firstSecond ≤ seconds ∧ seconds ≤ lastSecond

instance (seconds : Int) : Decidable (InRange seconds) :=
  inferInstanceAs (Decidable (_ ∧ _))

/-- Nanoseconds go past a thousand million only in the last second of a minute. -/
def NanosFit (seconds : Int) (nanos : Nat) : Prop :=
  nanos < 1000000000 ∨ seconds % 60 = 59 ∧ nanos < 2000000000

instance (seconds : Int) (nanos : Nat) : Decidable (NanosFit seconds nanos) :=
  inferInstanceAs (Decidable (_ ∨ _))

end Instant

structure Instant where
  seconds : Int
  nanos : Nat
  inRange : Instant.InRange seconds
  nanosFit : Instant.NanosFit seconds nanos
  deriving DecidableEq, Repr

namespace Instant

def ofParts? (seconds : Int) (nanos : Nat) : Option Instant :=
  if h : InRange seconds ∧ NanosFit seconds nanos then some ⟨seconds, nanos, h.1, h.2⟩ else none

def ofSeconds? (seconds : Int) : Option Instant := ofParts? seconds 0

def IsWhole (i : Instant) : Prop := i.nanos = 0

instance (i : Instant) : Decidable i.IsWhole := inferInstanceAs (Decidable (_ = _))

theorem ofParts?_eq_some_iff {seconds : Int} {nanos : Nat} {i : Instant} :
    ofParts? seconds nanos = some i ↔ i.seconds = seconds ∧ i.nanos = nanos := by
  unfold ofParts?
  constructor
  · intro h
    split at h
    · cases h; exact ⟨rfl, rfl⟩
    · cases h
  · rintro ⟨rfl, rfl⟩
    rw [dif_pos ⟨i.inRange, i.nanosFit⟩]

theorem ofSeconds?_eq_none_iff {seconds : Int} :
    ofSeconds? seconds = none ↔ ¬ InRange seconds := by
  simp [ofSeconds?, ofParts?, NanosFit]

theorem ofSeconds?_seconds {i : Instant} (h : i.IsWhole) : ofSeconds? i.seconds = some i :=
  ofParts?_eq_some_iff.2 ⟨rfl, h⟩

end Instant

end RouterHistory

namespace RouterHistory.Calendar

structure Date where
  year : Int
  month : Nat
  day : Nat
  deriving DecidableEq, Repr

def isLeap (year : Int) : Bool := year % 4 = 0 && (year % 100 ≠ 0 || year % 400 = 0)

def daysInMonth (year : Int) (month : Nat) : Nat :=
  if month = 2 then if isLeap year then 29 else 28
  else if month = 4 ∨ month = 6 ∨ month = 9 ∨ month = 11 then 30
  else 31

def Date.IsValid (d : Date) : Prop :=
  1 ≤ d.month ∧ d.month ≤ 12 ∧ 1 ≤ d.day ∧ d.day ≤ daysInMonth d.year d.month

instance (d : Date) : Decidable d.IsValid := inferInstanceAs (Decidable (_ ∧ _ ∧ _ ∧ _))

def daysInEra : Int := 146097

def epochOffset : Int := 719468

def Date.toDays (d : Date) : Int :=
  let year := if d.month ≤ 2 then d.year - 1 else d.year
  let era := year / 400
  let yearOfEra := year - era * 400
  let month : Int := if d.month ≤ 2 then d.month + 9 else d.month - 3
  let dayOfYear := (153 * month + 2) / 5 + d.day - 1
  let dayOfEra := yearOfEra * 365 + yearOfEra / 4 - yearOfEra / 100 + dayOfYear
  era * daysInEra + dayOfEra - epochOffset

def Date.ofDays (days : Int) : Date :=
  let days := days + epochOffset
  let era := days / daysInEra
  let dayOfEra := days - era * daysInEra
  let yearOfEra :=
    (dayOfEra - dayOfEra / 1460 + dayOfEra / 36524 - dayOfEra / 146096) / 365
  let dayOfYear := dayOfEra - (365 * yearOfEra + yearOfEra / 4 - yearOfEra / 100)
  let month := (5 * dayOfYear + 2) / 153
  let day := dayOfYear - (153 * month + 2) / 5 + 1
  let year := yearOfEra + era * 400
  if month < 10 then ⟨year, (month + 3).toNat, day.toNat⟩
  else ⟨year + 1, (month - 9).toNat, day.toNat⟩

end RouterHistory.Calendar
