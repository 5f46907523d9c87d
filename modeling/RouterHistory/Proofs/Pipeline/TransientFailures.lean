import RouterHistory.Proofs.Reconciliation.Recovery
import RouterHistory.Proofs.Shared.LoneRun

/-!
Transient failures in a batch step. Fetching and storing are retried, so if neither fails more
often than it is retried, the step ends as if nothing had failed. Reading the checkpoint is not
retried: one failure there is the step's own failure.
-/
namespace RouterHistory

open Shared

def Shared.Call.failure? : Call → Option Failure
  | ⟨.source _, .error f, _⟩ => some f
  | ⟨.store _, .error f, _⟩ => some f
  | _ => none

namespace Request

def fetches : Request → Bool
  | .source _ => true
  | _ => false

def stores : Request → Bool
  | .store (.commit _) => true
  | _ => false

/-- Asked when the checkpoint is read, at the start of a step or after a stale commit. -/
def loads : Request → Bool
  | .store (.start _ _) => true
  | _ => false

def offline : Request → Bool
  | .source _ => false
  | .store _ => false
  | _ => true

end Request

def faults (kind : Request → Bool) (calls : List Call) : Nat :=
  calls.countP fun call => kind call.request && call.failure?.any Failure.isTransient

theorem faults_append (kind : Request → Bool) (calls calls' : List Call) :
    faults kind (calls ++ calls') = faults kind calls + faults kind calls' :=
  List.countP_append

theorem faults_le_cons (kind : Request → Bool) (call : Call) (calls : List Call) :
    faults kind calls ≤ faults kind (call :: calls) :=
    (List.sublist_cons_self call calls).countP_le

/-- A program from its start to its end, with its calls in order, when any call may fail with a
transient failure and without effect. -/
inductive Shared.Host.Endures {α : Type} (host : Host) :
    Ledger → Program α → List Call → α × Ledger → Prop
  | done (l : Ledger) (a : α) : Endures host l (.done a) [] (a, l)
  | answered {l : Ledger} {r : Request} {next : r.Answer → Program α} {calls : List Call}
      {x : α × Ledger}
      (rest : Endures host (host.around.reply l r).2 (next (host.around.reply l r).1) calls x) :
      Endures host l (.ask r next) (⟨r, (host.around.reply l r).1, l⟩ :: calls) x
  | sourceFailed {l : Ledger} {call : SourceCall}
      {next : (Request.source call).Answer → Program α} {calls : List Call} {x : α × Ledger}
      {f : Failure} (transient : f.isTransient)
      (rest : Endures host l (next (.error f)) calls x) :
      Endures host l (.ask (.source call) next) (⟨.source call, Except.error f, l⟩ :: calls) x
  | storeFailed {l : Ledger} {call : StoreCall}
      {next : (Request.store call).Answer → Program α} {calls : List Call} {x : α × Ledger}
      {f : Failure} (transient : f.isTransient)
      (rest : Endures host l (next (.error f)) calls x) :
      Endures host l (.ask (.store call) next) (⟨.store call, Except.error f, l⟩ :: calls) x

namespace Shared.Host

variable {α β : Type} {host : Host} {l : Ledger} {calls : List Call}

theorem Endures.of_bind {p : Program β} {f : β → Program α} {x : α × Ledger}
    (h : host.Endures l (p >>= f) calls x) : ∃ first second y, calls = first ++ second ∧
      host.Endures l p first y ∧ host.Endures y.2 (f y.1) second x := by
  induction p generalizing l calls with
  | done b => exact ⟨[], calls, (b, l), rfl, .done l b, h⟩
  | ask r next ih =>
    cases h with
    | answered rest =>
      obtain ⟨first, second, y, rfl, hfirst, hsecond⟩ := ih _ rest
      exact ⟨_ :: first, second, y, rfl, .answered hfirst, hsecond⟩
    | sourceFailed transient rest =>
      obtain ⟨first, second, y, rfl, hfirst, hsecond⟩ := ih _ rest
      exact ⟨_ :: first, second, y, rfl, .sourceFailed transient hfirst, hsecond⟩
    | storeFailed transient rest =>
      obtain ⟨first, second, y, rfl, hfirst, hsecond⟩ := ih _ rest
      exact ⟨_ :: first, second, y, rfl, .storeFailed transient hfirst, hsecond⟩

theorem Endures.of_source {call : SourceCall} {f : Except Failure call.Answer → Program α}
    {x : α × Ledger} (h : host.Endures l (Program.source call >>= f) calls x) :
    ∃ a rest, calls = ⟨.source call, a, l⟩ :: rest ∧ host.Endures l (f a) rest x ∧
      (a = .ok (host.source call) ∨ ∃ e : Failure, a = .error e ∧ e.isTransient) := by
  cases h with
  | answered rest => exact ⟨_, _, rfl, rest, .inl rfl⟩
  | sourceFailed transient rest => exact ⟨_, _, rfl, rest, .inr ⟨_, rfl, transient⟩⟩

theorem Endures.of_store {call : StoreCall} {f : Except Failure call.Answer → Program α}
    {x : α × Ledger} (h : host.Endures l (Program.store call >>= f) calls x) :
    ∃ a l' rest, calls = ⟨.store call, a, l⟩ :: rest ∧ host.Endures l' (f a) rest x ∧
      ((a, l') = l.answer host.now call ∨ l' = l ∧
        ∃ e : Failure, a = .error e ∧ e.isTransient) := by
  cases h with
  | answered rest => exact ⟨_, _, _, rfl, rest, .inl rfl⟩
  | storeFailed transient rest => exact ⟨_, _, _, rfl, rest, .inr ⟨rfl, _, rfl, transient⟩⟩

/-- Calls that are not made do not fail. -/
theorem Endures.faults_eq_zero {kind : Request → Bool} {post : List Call → α → Prop}
    {past : List Call} {p : Program α} {x : α × Ledger} (h : host.Endures l p calls x)
    (other : p.Follows host.fallible (fun _ r => kind r = false) post past) :
    faults kind calls = 0 := by
  have skipped : ∀ {r : Request} {a : r.Answer} {l : Ledger} {calls : List Call},
      kind r = false → faults kind calls = 0 → faults kind (⟨r, a, l⟩ :: calls) = 0 := by
    intro r a l calls hr hcalls
    unfold faults at *
    rw [List.countP_cons_of_neg (by simp [hr]), hcalls]
  induction h generalizing past with
  | done => rfl
  | answered rest ih =>
    exact skipped other.1 (ih (other.2 _ _ _ (host.answered host.suits_fallible _ _)))
  | @sourceFailed l call next calls x f transient rest ih =>
    exact skipped other.1 (ih (other.2 l _ l (.sourceFailed f trivial)))
  | @storeFailed l call next calls x f transient rest ih =>
    exact skipped other.1 (ih (other.2 l _ l (.storeFailed f trivial)))

/-- Where neither the source nor the store is called, nothing fails. -/
theorem Endures.of_offline {post : List Call → α → Prop} {past : List Call} {p : Program α}
    {x : α × Ledger} (h : host.Endures l p calls x)
    (offline : p.Follows host.fallible (fun _ r => r.offline) post past) (kind : Request → Bool) :
    x = host.around.run l p ∧ faults kind calls = 0 := by
  have skipped : ∀ {r : Request} {a : r.Answer} {l : Ledger} {calls : List Call},
      r.offline → faults kind calls = 0 → faults kind (⟨r, a, l⟩ :: calls) = 0 := by
    intro r a l calls hr hcalls
    have hnone : (Call.mk r a l).failure? = none := by
      cases r with
      | source call => cases hr
      | store call => cases hr
      | _ => rfl
    unfold faults at *
    rw [List.countP_cons_of_neg (by simp [hnone]), hcalls]
  induction h generalizing past with
  | done => exact ⟨rfl, rfl⟩
  | answered rest ih =>
    obtain ⟨hx, hcalls⟩ := ih (offline.2 _ _ _ (host.answered host.suits_fallible _ _))
    exact ⟨hx, skipped offline.1 hcalls⟩
  | sourceFailed => cases offline.1
  | storeFailed => cases offline.1

def Settled (result : Except Failure α) : Prop := ∀ f, result = .error f → f.isTransient = false

/-- How an attempt ends: as if nothing had failed, or with a transient failure that is one of its
faults. -/
def Attempted (host : Host) (l : Ledger) (body : Program (Except Failure α))
    (kind : Request → Bool) (calls : List Call) (x : Except Failure α × Ledger) : Prop :=
  (x = host.around.run l body ∧ Settled x.1) ∨
    (∃ f : Failure, x = (.error f, l) ∧ f.isTransient) ∧ 0 < faults kind calls

section Retry

variable {b : Backoff} {operation : String} {body : Program (Except Failure α)}
  {kind : Request → Bool}

theorem Endures.of_settled {result : Except Failure α}
    {again : Failure → Program (Except Failure α)} {x : Except Failure α × Ledger}
    (settled : Settled result)
    (h : host.Endures l (match result with
      | .ok a => .done (.ok a)
      | .error f => if f.isTransient then again f else .done (.error f)) calls x) :
    x = (result, l) ∧ Settled x.1 := by
  cases result with
  | ok a =>
    cases h
    exact ⟨rfl, settled⟩
  | error f =>
    simp only [settled f rfl, if_false, Bool.false_eq_true] at h
    cases h
    exact ⟨rfl, settled⟩

/-- Attempts go on only after a transient failure, so there is at most one more than there are
faults. -/
theorem Endures.attemptFrom
    (attempt : ∀ {calls x}, host.Endures l body calls x → Attempted host l body kind calls x)
    {failed : UInt32} {x : Except Failure α × Ledger}
    (h : host.Endures l (b.attemptFrom operation body failed) calls x)
    (few : faults kind calls + failed.toNat ≤ b.maxRetries.toNat) :
    x = host.around.run l body ∧ Settled x.1 := by
  induction failed using Backoff.attempt_induction generalizing calls with
  | call failed ih =>
    rw [Backoff.attemptFrom_eq] at h
    obtain ⟨first, second, ⟨result, l'⟩, rfl, hfirst, hsecond⟩ := h.of_bind
    rw [faults_append] at few
    rcases attempt hfirst with ⟨hrun, settled⟩ | ⟨⟨f, hfailed, transient⟩, hfaults⟩
    · rw [← hrun]
      exact Endures.of_settled settled hsecond
    · cases hfailed
      have hleft : failed < b.maxRetries := UInt32.lt_iff_toNat_lt.2 (by omega)
      have hnext := Backoff.toNat_next hleft
      simp only [transient, if_true, Backoff.delay?_next hleft] at hsecond
      cases hsecond with
      | @answered _ _ _ calls _ rest =>
        have hrest := faults_le_cons kind
          ⟨.wait (.backoff (b.delay (failed + 1))), false, l⟩ calls
        change faults kind first + faults kind (⟨.wait _, false, l⟩ :: calls) + _ ≤ _ at few
        exact ih _ (Backoff.delay?_next hleft) rest (by omega)

/-- Retries that are not used up are invisible. -/
theorem Endures.retry
    (attempt : ∀ {calls x}, host.Endures l body calls x → Attempted host l body kind calls x)
    {x : Except Failure α × Ledger} (h : host.Endures l (b.retry operation body) calls x)
    (few : faults kind calls ≤ b.maxRetries.toNat) :
    x = host.around.run l (b.retry operation body) ∧ Settled x.1 := by
  obtain ⟨rfl, settled⟩ := Endures.attemptFrom attempt h few
  have lasting : ∀ f, (host.around.run l body).1 = .error f → ¬ f.isTransient := by
    intro f hf
    simp [settled f hf]
  exact ⟨(host.around.run_retry l rfl lasting).symm, settled⟩

end Retry

/-- One attempt to fetch a batch. -/
theorem Endures.fetch {ids : List String} {w : ChainWindow} {position : Slot} {size : UInt64}
    {x : Except Failure (Batch × ChainWindow) × Ledger}
    (h : host.Endures l (Batch.fetch ids w position size) calls x) :
    Attempted host l (Batch.fetch ids w position size) Request.fetches calls x := by
  unfold Batch.fetch at h ⊢
  obtain ⟨a, rest, rfl, hrest, rfl | ⟨f, rfl, transient⟩⟩ := h.of_source
  · simp only at hrest
    by_cases hcaught : host.source .head ≤ position ∨ size = 0
    · rw [if_pos hcaught] at hrest
      cases hrest
      refine .inl ⟨?_, nofun⟩
      change _ = host.around.run l (if host.source .head ≤ position ∨ size = 0 then _ else _)
      rw [if_pos hcaught]
      rfl
    · rw [if_neg hcaught] at hrest
      obtain ⟨a, rest', rfl, hrest', rfl | ⟨f, rfl, transient⟩⟩ := hrest.of_source
      · cases hrest'
        refine .inl ⟨?_, nofun⟩
        change _ = host.around.run l (if host.source .head ≤ position ∨ size = 0 then _ else _)
        rw [if_neg hcaught]
        rfl
      · cases hrest'
        refine .inr ⟨⟨f, rfl, transient⟩, ?_⟩
        simp [faults, Request.fetches, Call.failure?, transient]
  · cases hrest
    refine .inr ⟨⟨f, rfl, transient⟩, ?_⟩
    simp [faults, Request.fetches, Call.failure?, transient]

/-- One attempt to store a batch. A move of a checkpoint that does not exist is a fault too. -/
theorem Endures.store {batch : Commit} {x : Except Failure Receipt × Ledger}
    (h : host.Endures l (Program.store (.commit batch)) calls x) :
    Attempted host l (Program.store (.commit batch)) Request.stores calls x := by
  have hstore : Program.store (.commit batch) = Program.store (.commit batch) >>= Program.done :=
    rfl
  rw [hstore] at h
  obtain ⟨a, l', rest, rfl, hrest, hanswer | ⟨rfl, f, rfl, transient⟩⟩ := h.of_store
  · cases hrest
    have hrun : (a, l') = host.around.run l (Program.store (.commit batch)) := hanswer
    by_cases settled : Settled a
    · exact .inl ⟨hrun, settled⟩
    · unfold Settled at settled
      push Not at settled
      obtain ⟨f, rfl, transient⟩ := settled
      have hcommit : (.error f, l') = l.commit host.now batch := hanswer
      have hkept : l' = l := by
        cases hmove : l.checkMove host.now batch.move with
        | error f => exact congrArg Prod.snd (hcommit.trans (l.commit_eq_of_error hmove))
        | ok next =>
          obtain ⟨tally, hstored⟩ := l.exists_receipt hmove
          cases hcommit.trans hstored
      subst hkept
      refine .inr ⟨⟨f, rfl, by simpa using transient⟩, ?_⟩
      simp [faults, Request.stores, Call.failure?, transient]
  · cases hrest
    refine .inr ⟨⟨f, rfl, transient⟩, ?_⟩
    simp [faults, Request.stores, Call.failure?, transient]

end Shared.Host

namespace Pipeline

open Shared.Host

variable {α β γ δ : Type} {host : Host} {l : Ledger} {calls first second : List Call}

/-- How a part of a step ends: as if nothing had failed, or with the failure of a load. -/
structure Weathers (host : Host) (l : Ledger) (p : Program (Except Failure α × β))
    (calls : List Call) (x : (Except Failure α × β) × Ledger) : Prop where
  unseen : faults Request.loads calls = 0 → x = host.around.run l p
  seen : faults Request.loads calls ≠ 0 → ∃ f : Failure, x.1.1 = .error f ∧ f.isTransient

theorem weathers_of_eq {p : Program (Except Failure α × β)} {x : (Except Failure α × β) × Ledger}
    (hx : x = host.around.run l p) (hcalls : faults Request.loads calls = 0) :
    Weathers host l p calls x := ⟨fun _ => hx, fun h => absurd hcalls h⟩

/-- After a part in which no load failed. -/
theorem Weathers.after {p : Program γ} {f : γ → Program (Except Failure α × β)} {y : γ × Ledger}
    {x : (Except Failure α × β) × Ledger} (hy : y = host.around.run l p)
    (hfirst : faults Request.loads first = 0) (h : Weathers host y.2 (f y.1) second x) :
    Weathers host l (p >>= f) (first ++ second) x := by
  constructor
  · rw [faults_append, hfirst, Nat.zero_add, host.around.run_bind, ← hy]
    exact h.unseen
  · rw [faults_append, hfirst, Nat.zero_add]
    exact h.seen

/-- A part after which a failure is the end. -/
theorem Weathers.bind {p : Program (Except Failure γ × δ)}
    {f : Except Failure γ × δ → Program (Except Failure α × β)}
    {y : (Except Failure γ × δ) × Ledger} {x : (Except Failure α × β) × Ledger}
    (hfirst : Weathers host l p first y) (hsecond : host.Endures y.2 (f y.1) second x)
    (fails : ∀ e c, ∃ b, f (.error e, c) = .done (.error e, b))
    (goesOn : ∀ a c, y.1 = (.ok a, c) → Weathers host y.2 (f y.1) second x) :
    Weathers host l (p >>= f) (first ++ second) x := by
  by_cases hnone : faults Request.loads first = 0
  · have hy := hfirst.unseen hnone
    obtain ⟨⟨result, c⟩, l'⟩ := y
    cases result with
    | ok a => exact (goesOn a c rfl).after hy hnone
    | error e =>
      obtain ⟨b, hdone⟩ := fails e c
      simp only [hdone] at hsecond
      cases hsecond
      refine Weathers.after hy hnone (weathers_of_eq ?_ rfl)
      rw [hdone]
      rfl
  · obtain ⟨e, hfailed, transient⟩ := hfirst.seen hnone
    obtain ⟨⟨result, c⟩, l'⟩ := y
    cases hfailed
    obtain ⟨b, hdone⟩ := fails e c
    simp only [hdone] at hsecond
    cases hsecond
    rw [List.append_nil]
    exact ⟨fun h => absurd h hnone, fun _ => ⟨e, rfl, transient⟩⟩

theorem weathers_reload {c : Cursor} {x : (Except Failure Slot × Cursor) × Ledger}
    (h : host.Endures l c.reload calls x) : Weathers host l c.reload calls x := by
  unfold Cursor.reload at h ⊢
  obtain ⟨a, l', rest, rfl, hrest, hanswer | ⟨rfl, f, rfl, transient⟩⟩ := h.of_store
  · cases hanswer
    cases hrest
    exact weathers_of_eq rfl rfl
  · cases hrest
    refine ⟨fun hnone => absurd hnone ?_, fun _ => ⟨f, rfl, transient⟩⟩
    simp [faults, Request.loads, Call.failure?, transient]

theorem weathers_load {p : Pipeline} {x : (Except Failure Slot × Pipeline) × Ledger}
    (h : host.Endures l p.load calls x) : Weathers host l p.load calls x := by
  unfold Pipeline.load Cursor.load at h ⊢
  obtain ⟨first, second, y, rfl, hfirst, hsecond⟩ := h.of_bind
  refine Weathers.bind ?_ hsecond (fun e c => ⟨_, rfl⟩) fun a c hy => ?_
  · cases hcurrent : p.cursor.current with
    | some slot =>
      rw [hcurrent] at hfirst
      cases hfirst
      exact weathers_of_eq rfl rfl
    | none =>
      rw [hcurrent] at hfirst
      exact weathers_reload hfirst
  · cases hsecond
    exact weathers_of_eq rfl rfl

theorem settings_of_load {p : Pipeline} {x : (Except Failure Slot × Pipeline) × Ledger}
    (h : host.Endures l p.load calls x) : x.1.2.settings = p.settings := by
  obtain ⟨first, second, y, -, -, hsecond⟩ := h.of_bind
  cases hsecond
  rfl

theorem weathers_resume {p : Pipeline} {x : (Except Failure StepOutcome × Pipeline) × Ledger}
    (h : host.Endures l p.resume calls x) : Weathers host l p.resume calls x := by
  unfold Pipeline.resume at h ⊢
  obtain ⟨first, second, y, rfl, hfirst, hsecond⟩ := h.of_bind
  refine Weathers.bind (weathers_reload hfirst) hsecond (fun e c => ⟨_, rfl⟩) fun slot c hy => ?_
  obtain ⟨⟨result, c⟩, l'⟩ := y
  cases hy
  cases hsecond with
  | answered rest =>
    cases rest
    exact weathers_of_eq rfl rfl

theorem announceRejected_offline {site : Site} (rejected : List (Transaction × Rejection)) :
    (announceRejected rejected).Follows site (fun _ r => r.offline)
      (fun _ dated => ∃ times, dated = Sorted.datedAt times rejected) [] := by
  have offline : ∀ (_ : List Call) r, Announces r → r.offline := by
    intro _ r h
    cases h <;> rfl
  exact Program.follows_imp ((asks_announceRejected rejected).follows offline) fun _ _ h => h.2

theorem announceForks_offline {site : Site} (forks : List Fork) :
    (announceForks forks).Follows site (fun _ r => r.offline) (fun _ _ => True) [] := by
  unfold announceForks
  refine Program.follows_bind (Program.follows_emitAll (fun _ _ => rfl) fun q _ => ?_)
  cases forks.isEmpty with
  | true => trivial
  | false => exact ⟨rfl, fun _ _ _ _ => trivial⟩

theorem fetch_loads_nothing {site : Site} {ids : List String} {w : ChainWindow} {position : Slot}
    {size : UInt64} {b : Backoff} {operation : String} :
    (b.retry operation (Batch.fetch ids w position size)).Follows site
      (fun _ r => r.loads = false) (fun _ _ => True) [] := by
  refine Program.follows_retry (fun _ _ => rfl) (fun q _ => ?_) fun _ _ _ => trivial
  unfold Batch.fetch
  refine Program.follows_source rfl (fun _ _ _ _ => trivial) fun l (head : Slot) _ => ?_
  by_cases hcaught : head ≤ position ∨ size = 0
  · simp only [if_pos hcaught]
    exact fun _ _ => trivial
  · simp only [if_neg hcaught]
    exact Program.follows_source rfl (fun _ _ _ _ => trivial) fun _ _ _ _ _ => trivial

theorem store_loads_nothing {site : Site} {batch : Commit} {b : Backoff} {operation : String} :
    (b.retry operation (Program.store (.commit batch))).Follows site
      (fun _ r => r.loads = false) (fun _ _ => True) [] := by
  refine Program.follows_retry (fun _ _ => rfl) (fun q _ => ?_) fun _ _ _ => trivial
  exact ⟨rfl, fun _ _ _ _ _ _ => trivial⟩

theorem weathers_commit {p : Pipeline} {position : Slot} {batch : Batch}
    {x : (Except Failure StepOutcome × Pipeline) × Ledger}
    (h : host.Endures l (p.commit position batch) calls x)
    (few : faults Request.stores calls ≤ p.settings.backoff.maxRetries.toNat) :
    Weathers host l (p.commit position batch) calls x := by
  unfold Pipeline.commit at h ⊢
  obtain ⟨announced, rest, y, rfl, hannounced, hrest⟩ := h.of_bind
  rw [faults_append] at few
  obtain ⟨hy, hnone⟩ := hannounced.of_offline (announceRejected_offline _) Request.loads
  refine Weathers.after hy hnone ?_
  obtain ⟨attempts, rest, z, rfl, hstored, hrest⟩ := hrest.of_bind
  rw [faults_append] at few
  obtain ⟨hz, settled⟩ := Endures.retry Endures.store hstored (by omega)
  refine Weathers.after hz (hstored.faults_eq_zero store_loads_nothing) ?_
  obtain ⟨stored, l'⟩ := z
  cases stored with
  | ok receipt =>
    cases hrest with
    | answered hdone =>
      cases hdone
      exact weathers_of_eq rfl rfl
  | error f =>
    simp only at hrest ⊢
    split at hrest
    · next hstale =>
      rw [if_pos hstale]
      exact weathers_resume hrest
    · next hfresh =>
      rw [if_neg hfresh]
      cases hrest
      exact weathers_of_eq rfl rfl

theorem weathers_step {p : Pipeline} {x : (Except Failure StepOutcome × Pipeline) × Ledger}
    (h : host.Endures l p.step calls x)
    (fetches : faults Request.fetches calls ≤ p.settings.backoff.maxRetries.toNat)
    (stores : faults Request.stores calls ≤ p.settings.backoff.maxRetries.toNat) :
    Weathers host l p.step calls x := by
  unfold Pipeline.step at h ⊢
  obtain ⟨first, rest, y, rfl, hload, hrest⟩ := h.of_bind
  rw [faults_append] at fetches stores
  refine Weathers.bind (weathers_load hload) hrest (fun e p => ⟨_, rfl⟩) fun position p' hy => ?_
  have hsettings := settings_of_load hload
  obtain ⟨⟨result, p'⟩, l₁⟩ := y
  cases hy
  simp only at hrest hsettings ⊢
  rw [← hsettings] at fetches stores
  obtain ⟨attempts, rest, z, rfl, hfetched, hrest⟩ := hrest.of_bind
  rw [faults_append] at fetches stores
  obtain ⟨hz, settled⟩ := Endures.retry Endures.fetch hfetched (by omega)
  refine Weathers.after hz (hfetched.faults_eq_zero fetch_loads_nothing) ?_
  obtain ⟨fetched, l₂⟩ := z
  rcases fetched with f | ⟨batch, window⟩
  · cases hrest
    exact weathers_of_eq rfl rfl
  · simp only at hrest ⊢
    obtain ⟨signals, rest, u, rfl, hforks, hrest⟩ := hrest.of_bind
    rw [faults_append] at stores
    obtain ⟨hu, hnone⟩ := hforks.of_offline (announceForks_offline _) Request.loads
    refine Weathers.after hu hnone ?_
    split at hrest
    · next hcaught =>
      rw [if_pos hcaught]
      cases hrest with
      | answered hdone =>
        cases hdone
        exact weathers_of_eq rfl rfl
    · next hmore =>
      rw [if_neg hmore]
      exact weathers_commit hrest (by simp only; omega)

theorem settled_attempt {result : Except Failure α} {again : Failure → Program (Except Failure α)}
    (h : ∀ f, Settled (host.around.run l (again f)).1) :
    Settled (host.around.run l (match result with
      | .ok a => .done (.ok a)
      | .error f => if f.isTransient then again f else .done (.error f))).1 := by
  cases result with
  | ok a => exact nofun
  | error f =>
    by_cases transient : f.isTransient
    · simp only [transient, if_true]
      exact h f
    · simp only [transient, if_false, Bool.false_eq_true]
      intro f' hf'
      cases hf'
      simpa using transient

/-- The last of the attempts is settled, or it makes the result a failure of all of them. -/
theorem settled_retry (host : Host) (l : Ledger) (b : Backoff) (operation : String)
    (body : Program (Except Failure α)) :
    Settled (host.around.run l (b.retry operation body)).1 := by
  suffices h : ∀ n l, Settled (host.around.run l (b.attemptFrom operation body n)).1 from h 0 l
  intro n
  induction n using Backoff.attempt_induction with
  | call n ih =>
    intro l
    rw [Backoff.attemptFrom_eq, host.around.run_bind]
    refine settled_attempt fun f => ?_
    cases hdelay : b.delay? (n + 1) with
    | some d => exact ih d hdelay _
    | none =>
      intro f' hf'
      cases hf'
      rfl

theorem settled_resume (p : Pipeline) : Settled (host.around.run l p.resume).1.1 := nofun

theorem settled_commit (p : Pipeline) (position : Slot) (batch : Batch) :
    Settled (host.around.run l (p.commit position batch)).1.1 := by
  unfold Pipeline.commit
  simp only
  rw [host.around.run_bind_of_eq l (run_announceRejected host l _), host.around.run_bind]
  have hstored := settled_retry host l p.settings.backoff "commit_batch"
    (Program.store (.commit ⟨(Sorted.ofTransactions p.settings.classifier
      batch.transactions).entries, Sorted.datedAt (fun _ => host.now) (Sorted.ofTransactions
        p.settings.classifier batch.transactions).rejected,
        some ⟨p.settings.id, position, batch.next⟩⟩))
  generalize host.around.run l (p.settings.backoff.retry "commit_batch" _) = z at hstored ⊢
  obtain ⟨stored, l'⟩ := z
  cases stored with
  | ok receipt => exact nofun
  | error f =>
    simp only
    split
    · exact settled_resume _
    · intro f' hf'
      cases hf'
      exact hstored f rfl

/-- Without failures a step never ends with a transient failure. -/
theorem settled_step (host : Host) (l : Ledger) (p : Pipeline) :
    Settled (host.around.run l p.step).1.1 := by
  unfold Pipeline.step
  obtain ⟨slot, p₁, l₁, hload⟩ :
      ∃ slot p₁ l₁, host.around.run l p.load = ((.ok slot, p₁), l₁) := by
    unfold Pipeline.load Cursor.load
    cases p.cursor.current <;> exact ⟨_, _, _, rfl⟩
  rw [host.around.run_bind_of_eq l hload]
  simp only
  rw [host.around.run_bind]
  have hfetched := settled_retry host l₁ p₁.settings.backoff "fetch_batch"
    (Batch.fetch p₁.settings.classifier.programIds p₁.window slot p₁.settings.batchSize)
  generalize host.around.run l₁ (p₁.settings.backoff.retry "fetch_batch" _) = z at hfetched ⊢
  obtain ⟨fetched, l₂⟩ := z
  rcases fetched with f | ⟨batch, window⟩
  · intro f' hf'
    cases hf'
    exact hfetched f rfl
  · simp only
    rw [host.around.run_bind]
    split
    · exact nofun
    · exact settled_commit _ _ _

end Pipeline

namespace Ingestion

open Shared Pipeline

def callsFailing {α : Type} (host : Host) (script : List (Option Failure)) (l : Ledger)
    (p : Program α) : List Call :=
  host.failing.notes (fun w r a => ⟨r, a, w.2⟩) (script, l) p

section Script

variable {α : Type} {host : Host} {l : Ledger}

theorem endures_replyOr {r : Request} {next : r.Answer → Program α} {failure : Option Failure}
    {calls : List Call} {x : α × Ledger} (transient : ∀ f, failure = some f → f.isTransient)
    (rest : host.Endures (host.replyOr failure l r).2
      (next (host.replyOr failure l r).1) calls x) :
    host.Endures l (.ask r next) (⟨r, (host.replyOr failure l r).1, l⟩ :: calls) x := by
  cases failure with
  | none => cases r <;> exact .answered rest
  | some f =>
    cases r with
    | source call => exact .sourceFailed (transient f rfl) rest
    | store call => exact .storeFailed (transient f rfl) rest
    | _ => exact .answered rest

/-- A script of transient failures is one way to fail. -/
theorem endures_runFailing {script : List (Option Failure)}
    (transient : ∀ f, some f ∈ script → f.isTransient) (p : Program α) :
    host.Endures l p (callsFailing host script l p) (host.runFailing script l p) := by
  induction p generalizing l script with
  | done a => exact .done l a
  | ask r next ih =>
    refine endures_replyOr (fun f hf => ?_)
      (ih _ fun f hf => transient f (List.mem_of_mem_tail hf))
    cases script with
    | nil => cases hf
    | cons first rest =>
      have hfirst : first = some f := hf
      exact transient f (hfirst ▸ List.mem_cons_self ..)

end Script

/-- If neither fetching nor storing fails more often than it is retried, a step under a script of
transient failures ends as without them if and only if no load of the checkpoint fails. -/
theorem step_unaffected_iff_loads_hold (host : Host) (l : Ledger) (p : Pipeline)
    {script : List (Option Failure)} (transient : ∀ f, some f ∈ script → f.isTransient)
    (fetches : faults Request.fetches (callsFailing host script l p.step) ≤
      p.settings.backoff.maxRetries.toNat)
    (stores : faults Request.stores (callsFailing host script l p.step) ≤
      p.settings.backoff.maxRetries.toNat) :
    host.runFailing script l p.step = host.around.run l p.step ↔
      faults Request.loads (callsFailing host script l p.step) = 0 := by
  have weathers := weathers_step (endures_runFailing transient p.step) fetches stores
  refine ⟨fun hsame => ?_, weathers.unseen⟩
  -- a load that failed shows, since without failures no step ends with a transient one
  by_contra hloads
  obtain ⟨f, hfailed, htransient⟩ := weathers.seen hloads
  rw [hsame] at hfailed
  rw [settled_step host l p f hfailed] at htransient
  cases htransient

section SlotOne

open Reconciliation

def starting : Pipeline := .ofSettings oneRouter ⟨1, []⟩

/-- The head is asked for twice, and the batch is stored at the second attempt. -/
def interrupted : List (Option Failure) :=
  [none, some (.sourceUnavailable "down"), none, none, none, some (.storage "locked")]

theorem interrupted_step_unaffected :
    faults Request.fetches (callsFailing timed interrupted .empty starting.step) = 1 ∧
    faults Request.stores (callsFailing timed interrupted .empty starting.step) = 1 ∧
    timed.runFailing interrupted .empty starting.step =
      timed.around.run .empty starting.step := by
  have hfetches :
      faults Request.fetches (callsFailing timed interrupted .empty starting.step) = 1 := by
    decide +kernel
  have hstores :
      faults Request.stores (callsFailing timed interrupted .empty starting.step) = 1 := by
    decide +kernel
  refine ⟨hfetches, hstores, (step_unaffected_iff_loads_hold timed .empty starting ?_ ?_ ?_).2 ?_⟩
  · simp [interrupted, Failure.isTransient]
  · rw [hfetches]
    decide
  · rw [hstores]
    decide
  · decide +kernel

def locked : List (Option Failure) := [some (.storage "locked")]

/-- That failure ends the step, which otherwise stores a batch. -/
theorem failed_load_ends_step :
    faults Request.loads (callsFailing timed locked .empty starting.step) = 1 ∧
    faults Request.fetches (callsFailing timed locked .empty starting.step) = 0 ∧
    faults Request.stores (callsFailing timed locked .empty starting.step) = 0 ∧
    1 ≤ starting.settings.backoff.maxRetries.toNat ∧
    (timed.runFailing locked .empty starting.step).1.1 = .error (.storage "locked") ∧
    (timed.runFailing locked .empty starting.step).2.rows.isEmpty = true ∧
    (timed.around.run .empty starting.step).1.1 = .ok (.committed 0 1 ⟨1, 0, 0, 0⟩) ∧
    soundSignature ∈ (timed.around.run .empty starting.step).2.rows := by
  refine ⟨by decide +kernel, by decide +kernel, by decide +kernel, by decide,
    rfl, by decide +kernel,
    by decide +kernel, by decide +kernel⟩

end SlotOne

end Ingestion

end RouterHistory
