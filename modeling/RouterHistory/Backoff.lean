import RouterHistory.Program

/-!
How often and how late a failed call is made again. The delay before a retry is the first delay
times a power of the multiplier, cut at the largest delay. A counter of the failed calls says
whether a transient failure is followed by another call; what it ends on is told in the last
failure.
-/
namespace RouterHistory

structure Backoff where
  /-- The number of retries after the first attempt. -/
  maxRetries : UInt32
  /-- The delay before the first retry, in milliseconds. -/
  initialDelay : UInt64
  /-- The largest delay in milliseconds. -/
  maxDelay : UInt64
  /-- The growth of the delay from one retry to the next. -/
  multiplier : Float

namespace Backoff

/-- Five retries, from 200 milliseconds up to ten seconds, doubling each time. -/
def default : Backoff := ⟨5, 200, 10000, 2.0⟩

/-- Multiplies the squares of `base` that the binary digits of the exponent name. -/
def powerLoop : (bits : Nat) → (result base : Float) → (exponent : Nat) → Float
  | 0, result, _, _ => result
  | bits + 1, result, base, exponent =>
      let result := if exponent % 2 = 1 then result * base else result
      if exponent / 2 = 0 then result else powerLoop bits result (base * base) (exponent / 2)

/-- A power with a whole exponent; a negative one gives the reciprocal. -/
def power (base : Float) (exponent : Int) : Float :=
  let magnitude := powerLoop 32 1.0 base exponent.natAbs
  if exponent < 0 then 1.0 / magnitude else magnitude

/-- The smaller of two numbers, or the second one if the first is none. -/
def lesser (a b : Float) : Float := if a.isNaN then b else if a ≤ b then a else b

/-- The exponent of a retry is a 32-bit number with sign. -/
def exponentOf (retry : UInt32) : Int := (retry - 1).toInt32.toInt

def delay (b : Backoff) (retry : UInt32) : UInt64 :=
  (lesser (b.initialDelay.toFloat * power b.multiplier (exponentOf retry))
    b.maxDelay.toFloat).toUInt64

def delay? (b : Backoff) (retry : UInt32) : Option UInt64 :=
  if retry = 0 ∨ b.maxRetries < retry then none else some (b.delay retry)

theorem delay?_of_le {b : Backoff} {retry : UInt32} (first : retry ≠ 0)
    (allowed : retry ≤ b.maxRetries) : b.delay? retry = some (b.delay retry) :=
  if_neg (not_or.2 ⟨first, UInt32.not_lt.2 allowed⟩)

theorem delay?_of_lt {b : Backoff} {retry : UInt32} (used : b.maxRetries < retry) :
    b.delay? retry = none := if_pos (.inr used)

theorem toNat_next {b : Backoff} {failed : UInt32} (h : failed < b.maxRetries) :
    (failed + 1).toNat = failed.toNat + 1 := by
  have hbound := b.maxRetries.toNat_lt
  have hone : (1 : UInt32).toNat = 1 := rfl
  rw [UInt32.lt_iff_toNat_lt] at h
  rw [UInt32.toNat_add, hone]
  omega

/-- As long as there are retries left, there is a delay before the next one. -/
theorem delay?_next {b : Backoff} {failed : UInt32} (h : failed < b.maxRetries) :
    b.delay? (failed + 1) = some (b.delay (failed + 1)) := by
  have hnext := toNat_next h
  refine delay?_of_le (fun hzero => ?_) ?_
  · rw [hzero] at hnext
    cases hnext
  · rw [UInt32.le_iff_toNat_le, hnext]
    exact UInt32.lt_iff_toNat_lt.1 h

/-- Each retry that is allowed leaves fewer of them. -/
theorem retries_decrease {b : Backoff} {failed : UInt32} {d : UInt64}
    (h : b.delay? (failed + 1) = some d) :
    b.maxRetries.toNat - (failed + 1).toNat < b.maxRetries.toNat - failed.toNat := by
  have hallowed : ¬ (failed + 1 = 0 ∨ b.maxRetries < failed + 1) := by
    intro hnone
    rw [delay?, if_pos hnone] at h
    cases h
  have hle : (failed + 1).toNat ≤ b.maxRetries.toNat := by
    simpa [UInt32.lt_iff_toNat_lt] using (not_or.1 hallowed).2
  have hnext : (failed + 1).toNat = failed.toNat + 1 := by
    have hnonzero : (failed + 1).toNat ≠ 0 := fun hzero =>
      hallowed (.inl (UInt32.toNat_inj.1 hzero))
    have hone : (1 : UInt32).toNat = 1 := rfl
    have hbound := failed.toNat_lt
    rw [UInt32.toNat_add, hone] at hnonzero ⊢
    omega
  omega

variable {α : Type}

/-- Calls a program that has failed so often. The counter says before each further call whether
there is one, and how late. -/
def attemptFrom (b : Backoff) (operation : String) (body : Program (Except Failure α))
    (failed : UInt32) : Program (Except Failure α) :=
  body >>= fun
    | .ok a => .done (.ok a)
    | .error f =>
        if f.isTransient then
          match h : b.delay? (failed + 1) with
          | some d => .ask (.wait (.backoff d)) fun _ => attemptFrom b operation body (failed + 1)
          | none => .done (.error (.retryExhausted operation (failed + 1) f))
        else .done (.error f)
termination_by b.maxRetries.toNat - failed.toNat
decreasing_by exact retries_decrease h

def retry (b : Backoff) (operation : String) (body : Program (Except Failure α)) :
    Program (Except Failure α) :=
  attemptFrom b operation body 0

variable {b : Backoff}

theorem attemptFrom_eq (operation : String) (body : Program (Except Failure α))
    (failed : UInt32) :
    b.attemptFrom operation body failed = body >>= fun
      | .ok a => .done (.ok a)
      | .error f =>
          if f.isTransient then
            match b.delay? (failed + 1) with
            | some d => .ask (.wait (.backoff d)) fun _ =>
                b.attemptFrom operation body (failed + 1)
            | none => .done (.error (.retryExhausted operation (failed + 1) f))
          else .done (.error f) := by
  rw [attemptFrom]
  congr
  funext outcome
  cases outcome with
  | ok a => rfl
  | error f =>
    dsimp only
    split
    · split <;> rename_i heq <;> rw [heq]
    · rfl

/-- Induction over the calls that are still allowed. -/
theorem attempt_induction {motive : UInt32 → Prop}
    (call : ∀ failed, (∀ d, b.delay? (failed + 1) = some d → motive (failed + 1)) → motive failed)
    (failed : UInt32) : motive failed :=
  call failed fun _ _ => attempt_induction call (failed + 1)
termination_by b.maxRetries.toNat - failed.toNat
decreasing_by exact retries_decrease ‹_›

end Backoff

end RouterHistory
