import Mathlib.Data.Nat.Find
import RouterHistory.Backoff
import RouterHistory.Proofs.Shared.Surroundings

/-!
How often a failing operation is called. A counter runs one ahead of the calls, and the delay that
it is given decides whether there is another one. So there are as many retries as are allowed and
no more, each after its own delay, and the first outcome that is worth no retry is the result.
-/
namespace RouterHistory.Backoff

open Shared

variable {σ α : Type}

def Fleeting (outcome : Except Failure α) : Prop :=
  ∃ f : Failure, outcome = .error f ∧ f.isTransient = true

section Counter

variable {b : Backoff} {n : Nat}

theorem toNat_attempt (small : b.maxRetries.toNat < UInt32.size - 1)
    (h : n ≤ b.maxRetries.toNat) : (UInt32.ofNat (n + 1)).toNat = n + 1 :=
  UInt32.toNat_ofNat_of_lt' (by simp only [UInt32.size] at *; omega)

/-- As long as there are retries left, the next number of the counter has a delay. -/
theorem delay?_attempt (small : b.maxRetries.toNat < UInt32.size - 1)
    (h : n < b.maxRetries.toNat) :
    b.delay? (UInt32.ofNat (n + 1)) = some (b.delay (UInt32.ofNat (n + 1))) := by
  have hcount : (UInt32.ofNat n).toNat = n := UInt32.toNat_ofNat_of_lt' (by omega)
  rw [UInt32.ofNat_add]
  exact delay?_next (by rwa [UInt32.lt_iff_toNat_lt, hcount])

theorem delay?_last (small : b.maxRetries.toNat < UInt32.size - 1) :
    b.delay? (UInt32.ofNat (b.maxRetries.toNat + 1)) = none := by
  refine delay?_of_lt ?_
  rw [UInt32.lt_iff_toNat_lt, toNat_attempt small (Nat.le_refl _)]
  exact Nat.lt_succ_self _

variable (b) in
def callsAfter (operation : String) (body : Program (Except Failure α)) (failed : Nat) :
    Program (Except Failure α) :=
  b.attemptFrom operation body (UInt32.ofNat failed)

theorem callsAfter_eq {operation : String} {body : Program (Except Failure α)} :
    b.callsAfter operation body n = body >>= fun
      | .ok a => .done (.ok a)
      | .error f =>
          if f.isTransient then
            match b.delay? (UInt32.ofNat (n + 1)) with
            | some d => .ask (.wait (.backoff d)) fun _ => b.callsAfter operation body (n + 1)
            | none => .done (.error (.retryExhausted operation (UInt32.ofNat (n + 1)) f))
          else .done (.error f) := by
  unfold callsAfter
  rw [UInt32.ofNat_add]
  exact attemptFrom_eq operation body (UInt32.ofNat n)

end Counter

section Calls

variable (b : Backoff) (around : Surroundings σ) (body : Program (Except Failure α)) (start : σ)

/-- The surroundings at a call, counted from zero, if all calls before it failed and were followed
by their delays. -/
def before : Nat → σ
  | 0 => start
  | n + 1 =>
      (around.reply (around.run (before n) body).2
        (.wait (.backoff (b.delay (UInt32.ofNat (n + 1)))))).2

def course : (call : Nat) → (delays : List UInt64) → List Exchange
  | n, [] => around.talk (b.before around body start n) body
  | n, d :: rest =>
      around.talk (b.before around body start n) body ++
        ⟨.wait (.backoff d), (around.reply (around.run (b.before around body start n) body).2
          (.wait (.backoff d))).1⟩ :: course (n + 1) rest

def delaysAfter (call more : Nat) : List UInt64 :=
  (List.range' (call + 1) more).map fun n => b.delay (UInt32.ofNat n)

structure Ends (operation : String) (call more : Nat) (result : Except Failure α) : Prop where
  run : around.run (b.before around body start call) (b.callsAfter operation body call) =
    (result, (around.run (b.before around body start (call + more)) body).2)
  talk : around.talk (b.before around body start call) (b.callsAfter operation body call) =
    b.course around body start call (b.delaysAfter call more)

variable {b around body start} {operation : String} {n more : Nat} {result : Except Failure α}

/-- An outcome that is worth no retry is the result. -/
theorem ends_of_settled
    (settled : ¬ Fleeting (around.run (b.before around body start n) body).1) :
    b.Ends around body start operation n 0
      (around.run (b.before around body start n) body).1 := by
  constructor
  · rw [callsAfter_eq, around.run_bind]
    cases houtcome : (around.run (b.before around body start n) body).1 with
    | ok a => rfl
    | error f =>
      have hlasting : ¬ f.isTransient = true := fun ht => settled ⟨f, houtcome, ht⟩
      simp only [hlasting]
      rfl
  · rw [callsAfter_eq, around.talk_bind]
    cases houtcome : (around.run (b.before around body start n) body).1 with
    | ok a => exact List.append_nil _
    | error f =>
      have hlasting : ¬ f.isTransient = true := fun ht => settled ⟨f, houtcome, ht⟩
      simp only [hlasting]
      exact List.append_nil _

/-- After the last call that is allowed, a failure is the end. -/
theorem ends_of_exhausted (small : b.maxRetries.toNat < UInt32.size - 1) {f : Failure}
    (transient : f.isTransient = true)
    (failed : (around.run (b.before around body start b.maxRetries.toNat) body).1 = .error f) :
    b.Ends around body start operation b.maxRetries.toNat 0
      (.error (.retryExhausted operation (UInt32.ofNat (b.maxRetries.toNat + 1)) f)) := by
  constructor
  · rw [callsAfter_eq, around.run_bind, failed]
    simp only [transient, delay?_last small]
    rfl
  · rw [callsAfter_eq, around.talk_bind, failed]
    simp only [transient, delay?_last small]
    exact List.append_nil _

/-- A call that is worth a retry comes before the others. -/
theorem Ends.cons (small : b.maxRetries.toNat < UInt32.size - 1) (h : n < b.maxRetries.toNat)
    (fleeting : Fleeting (around.run (b.before around body start n) body).1)
    (ends : b.Ends around body start operation (n + 1) more result) :
    b.Ends around body start operation n (more + 1) result := by
  obtain ⟨f, hfailed, htransient⟩ := fleeting
  have hcount : n + (more + 1) = n + 1 + more := by omega
  constructor
  · rw [callsAfter_eq, around.run_bind, hfailed, hcount, ← ends.run]
    simp only [htransient, delay?_attempt small h]
    rfl
  · rw [callsAfter_eq, around.talk_bind, hfailed]
    simp only [htransient, delay?_attempt small h]
    have hdelays : b.delaysAfter n (more + 1) =
        b.delay (UInt32.ofNat (n + 1)) :: b.delaysAfter (n + 1) more := rfl
    rw [hdelays, course, ← ends.talk]
    rfl

theorem Ends.from_start (small : b.maxRetries.toNat < UInt32.size - 1)
    (h : n ≤ b.maxRetries.toNat)
    (fleeting : ∀ i < n, Fleeting (around.run (b.before around body start i) body).1)
    (last : b.Ends around body start operation n 0 result) :
    b.Ends around body start operation 0 n result := by
  suffices hall : ∀ more call, call + more = n →
      b.Ends around body start operation call more result
    from hall n 0 (Nat.zero_add n)
  intro more
  induction more with
  | zero =>
    rintro call rfl
    exact last
  | succ more ih =>
    intro call hcall
    exact (ih (call + 1) (by omega)).cons small (by omega) (fleeting call (by omega))

variable (b around body start) in
/-- The operation is called once and then again so many times, each time after the next delay, and
this is the result. The counter of the calls keeps within its word. -/
structure Retries (operation : String) (times : Nat) (result : Except Failure α) : Prop where
  run : around.run start (b.retry operation body) =
    (result, (around.run (b.before around body start times) body).2)
  talk : ∃ delays : List UInt64,
    around.talk start (b.retry operation body) = b.course around body start 0 delays ∧
    delays.map some = (List.range' 1 times).map fun n => b.delay? (UInt32.ofNat n)
  counter : ∀ n ≤ times + 1, (UInt32.ofNat n).toNat = n

theorem Ends.retries (small : b.maxRetries.toNat < UInt32.size - 1) (h : n ≤ b.maxRetries.toNat)
    (ends : b.Ends around body start operation 0 n result) :
    b.Retries around body start operation n result where
  run := by
    rw [← Nat.zero_add n]
    exact ends.run
  talk := by
    refine ⟨b.delaysAfter 0 n, ends.talk, ?_⟩
    unfold delaysAfter
    rw [List.map_map]
    refine List.map_congr_left fun m hm => ?_
    obtain ⟨hfirst, hlast⟩ := List.mem_range'_1.1 hm
    obtain ⟨i, rfl⟩ := Nat.exists_eq_add_of_le' hfirst
    exact (delay?_attempt small (by omega)).symm
  counter := fun m hm => UInt32.toNat_ofNat_of_lt' (by omega)

end Calls

/-- If one of the outcomes that are allowed for is worth no retry, the first of them is the
result, after as many retries as outcomes come before it. Otherwise all retries are made, and the
failure tells how many calls there were and how the last one ended. -/
theorem retry_calls_as_allowed (b : Backoff) (small : b.maxRetries.toNat < UInt32.size - 1)
    (operation : String) (around : Surroundings σ) (body : Program (Except Failure α)) (start : σ)
    {outcome : Nat → Except Failure α}
    (yields : ∀ n, (around.run (b.before around body start n) body).1 = outcome n) :
    ((∃ n ≤ b.maxRetries.toNat, ¬ Fleeting (outcome n)) →
      ∃ k ≤ b.maxRetries.toNat, ¬ Fleeting (outcome k) ∧ (∀ n < k, Fleeting (outcome n)) ∧
        b.Retries around body start operation k (outcome k)) ∧
    ((∀ n ≤ b.maxRetries.toNat, Fleeting (outcome n)) →
      ∃ f attempts, outcome b.maxRetries.toNat = .error f ∧
        attempts.toNat = b.maxRetries.toNat + 1 ∧ b.delay? attempts = none ∧
        b.Retries around body start operation b.maxRetries.toNat
          (.error (.retryExhausted operation attempts f))) := by
  simp only [← yields]
  constructor
  · intro hsome
    classical
    obtain ⟨hallowed, hsettled⟩ := Nat.find_spec hsome
    have hbefore : ∀ n < Nat.find hsome,
        Fleeting (around.run (b.before around body start n) body).1 := by
      intro n hn
      by_contra hn'
      exact Nat.find_min hsome hn ⟨by omega, hn'⟩
    have hlast : b.Ends around body start operation (Nat.find hsome) 0 _ :=
      ends_of_settled hsettled
    have hends := hlast.from_start small hallowed hbefore
    exact ⟨_, hallowed, hsettled, hbefore, hends.retries small hallowed⟩
  · intro hall
    obtain ⟨f, hfailed, htransient⟩ := hall _ (Nat.le_refl _)
    have hlast : b.Ends around body start operation b.maxRetries.toNat 0 _ :=
      ends_of_exhausted small htransient hfailed
    have hends := hlast.from_start small (Nat.le_refl _) fun n hn => hall n (Nat.le_of_lt hn)
    exact ⟨f, _, hfailed, toNat_attempt small (Nat.le_refl _), delay?_last small,
      hends.retries small (Nat.le_refl _)⟩

def counting : Surroundings Nat where
  reply n
    | .clock => ((n : Int), n + 1)
    | .source _ => (.error (.other "no source"), n)
    | .store _ => (.error (.other "no store"), n)
    | .emit _ => ((), n)
    | .signalFork => ((), n)
    | .shutdownFlag => (false, n)
    | .wait _ => (false, n)

def numbered (outcome : Nat → Except Failure α) : Program (Except Failure α) :=
  .ask .clock fun n => .done (outcome n.toNat)

/-- So every sequence of outcomes is the one of some operation. -/
theorem yields_numbered (b : Backoff) (outcome : Nat → Except Failure α) (n : Nat) :
    (counting.run (b.before counting (numbered outcome) 0 n) (numbered outcome)).1 =
      outcome n := by
  have hcount : b.before counting (numbered outcome) 0 n = n := by
    induction n with
    | zero => rfl
    | succ n ih => exact congrArg Nat.succ ih
  rw [hcount]
  rfl

def twice : Backoff := ⟨2, 100, 150, 2.0⟩

def mending (n : Nat) : Except Failure Nat :=
  if n < 2 then .error (.storage "locked") else .ok n

def lasting (n : Nat) : Except Failure Nat := .error (.sourceUnavailable (toString n))

/-- Two retries are enough for one operation and not for another. -/
theorem two_retries_and_no_more :
    twice.Retries counting (numbered mending) 0 "head" 2 (.ok 2) ∧
      twice.Retries counting (numbered lasting) 0 "head" 2
        (.error (.retryExhausted "head" 3 (.sourceUnavailable "2"))) := by
  have hsmall : twice.maxRetries.toNat < UInt32.size - 1 := by decide
  constructor
  · obtain ⟨hmends, -⟩ := retry_calls_as_allowed twice hsmall "head" counting (numbered mending) 0
      (yields_numbered twice mending)
    obtain ⟨k, hk, hsettled, -, hretries⟩ :=
      hmends ⟨2, by decide, by simp [mending, Fleeting]⟩
    have hlast : k = 2 := by
      have hk : k ≤ 2 := hk
      by_contra hother
      have hearly : k < 2 := by omega
      exact hsettled ⟨.storage "locked", if_pos hearly, rfl⟩
    subst hlast
    exact hretries
  · obtain ⟨-, hfails⟩ := retry_calls_as_allowed twice hsmall "head" counting (numbered lasting) 0
      (yields_numbered twice lasting)
    obtain ⟨f, attempts, hfailed, hattempts, -, hretries⟩ := hfails fun n _ => ⟨_, rfl, rfl⟩
    have hthree : attempts = 3 := UInt32.toNat_inj.1 hattempts
    cases hfailed
    subst hthree
    exact hretries

end RouterHistory.Backoff
