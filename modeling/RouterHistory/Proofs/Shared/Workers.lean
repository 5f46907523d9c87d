import Mathlib.Logic.Function.Basic
import Mathlib.Logic.Relation
import RouterHistory.Pipeline.Reconciler
import RouterHistory.Store.Ledger

/-!
Pipelines and reconcile cycles that share one ledger. Every worker goes through a program and
stops at each request. Between two requests of one worker all others may go on, new ones may
join and any of them may leave for good, so a run is any interleaving of single requests.
-/
namespace RouterHistory.Shared

structure Site where
  /-- What the source may answer to a call that does not fail. -/
  source : (call : SourceCall) → call.Answer → Prop
  /-- Whether calls may fail; a failed call has no effect. -/
  failing : Prop
  /-- Whether the answer to a commit that took effect may be lost. -/
  lossy : Prop
  /-- The settings of the pipelines that may join. -/
  settings : Settings → Prop
  /-- The reconcilers whose cycles may begin. -/
  reconcilers : Reconciler → Prop

/-- The same surroundings, but every call is answered. -/
def Site.calm (site : Site) : Site := { site with failing := False, lossy := False }

/-- A request that was made, with its answer and the ledger as the request found it. -/
structure Call where
  request : Request
  answer : request.Answer
  ledger : Ledger

inductive Answered (site : Site) (l : Ledger) : (r : Request) → r.Answer → Ledger → Prop
  | source {call : SourceCall} {a : call.Answer} (allowed : site.source call a) :
      Answered site l (.source call) (Except.ok a) l
  | sourceFailed {call : SourceCall} (f : Failure) (failing : site.failing) :
      Answered site l (.source call) (Except.error f) l
  | store {call : StoreCall} (now : Int) :
      Answered site l (.store call) (l.answer now call).1 (l.answer now call).2
  | storeFailed {call : StoreCall} (f : Failure) (failing : site.failing) :
      Answered site l (.store call) (Except.error f) l
  | receiptLost {batch : Commit} (now : Int) (reason : String) (lossy : site.lossy) :
      Answered site l (.store (.commit batch)) (Except.error (.storage reason))
        (l.commit now batch).2
  | clock (now : Int) : Answered site l .clock now l
  | emit (event : Event) : Answered site l (.emit event) () l
  | signalFork : Answered site l .signalFork () l
  | shutdownFlag (flag : Bool) : Answered site l .shutdownFlag flag l
  | wait (w : Wait) (stop : Bool) : Answered site l (.wait w) stop l

theorem Answered.of_calm {site : Site} {l l' : Ledger} {r : Request} {a : r.Answer}
    (h : Answered site.calm l r a l') : Answered site l r a l' := by
  cases h with
  | source allowed => exact .source allowed
  | sourceFailed f failing => exact failing.elim
  | store now => exact .store now
  | storeFailed f failing => exact failing.elim
  | receiptLost now reason lossy => exact lossy.elim
  | clock now => exact .clock now
  | emit event => exact .emit event
  | signalFork => exact .signalFork
  | shutdownFlag flag => exact .shutdownFlag flag
  | wait w stop => exact .wait w stop

/-- A call of the store is answered by the ledger, or it fails. -/
theorem Answered.of_store {site : Site} {l l' : Ledger} {call : StoreCall}
    {a : Except Failure call.Answer} (h : Answered site l (.store call) a l') :
    (∃ now, (l.answer now call).1 = a) ∨ ∃ f, a = .error f := by
  cases h with
  | store now => exact .inl ⟨now, rfl⟩
  | storeFailed f failing => exact .inr ⟨f, rfl⟩
  | receiptLost now reason lossy => exact .inr ⟨_, rfl⟩

/-- A pipeline between two steps or in one, or a cycle; with the calls that the step or the
cycle has made, the latest first. -/
inductive Worker where
  | resting (p : Pipeline)
  | stepping (past : List Call) (rest : Program (Except Failure StepOutcome × Pipeline))
  | cycling (past : List Call) (rest : Program (Except Failure CycleReport))

def Worker.report? : Worker → Option CycleReport
  | .cycling _ (.done (.ok report)) => some report
  | _ => none

theorem Worker.report?_eq_some {w : Worker} {report : CycleReport} :
    w.report? = some report ↔ ∃ past, w = .cycling past (.done (.ok report)) := by
  unfold Worker.report?
  split
  · simp
  · next hother =>
    simp only [reduceCtorEq, false_iff]
    intro h
    obtain ⟨past, rfl⟩ := h
    exact hother past report rfl

inductive Moves (site : Site) : Ledger × Worker → Ledger × Worker → Prop
  | begins (l : Ledger) (p : Pipeline) :
      Moves site (l, .resting p) (l, .stepping [] p.step)
  | asks {l l' : Ledger} {past : List Call} {r : Request} {a : r.Answer}
      {next : r.Answer → Program (Except Failure StepOutcome × Pipeline)}
      (h : Answered site l r a l') :
      Moves site (l, .stepping past (.ask r next)) (l', .stepping (⟨r, a, l⟩ :: past) (next a))
  | cycleAsks {l l' : Ledger} {past : List Call} {r : Request} {a : r.Answer}
      {next : r.Answer → Program (Except Failure CycleReport)}
      (h : Answered site l r a l') :
      Moves site (l, .cycling past (.ask r next)) (l', .cycling (⟨r, a, l⟩ :: past) (next a))
  | rests (l : Ledger) (past : List Call) (result : Except Failure StepOutcome) (p : Pipeline) :
      Moves site (l, .stepping past (.done (result, p))) (l, .resting p)

theorem Moves.of_calm {site : Site} {x y : Ledger × Worker} (h : Moves site.calm x y) :
    Moves site x y := by
  cases h with
  | begins l p => exact .begins l p
  | asks h => exact .asks h.of_calm
  | cycleAsks h => exact .cycleAsks h.of_calm
  | rests l past result p => exact .rests l past result p

structure State where
  ledger : Ledger
  workers : Nat → Option Worker

def State.idle (l : Ledger) : State := ⟨l, fun _ => none⟩

/-- What may happen next at a place. A worker that leaves is never heard of again; a pipeline that
is built anew in its place starts without a view of the checkpoint. -/
inductive Step (site : Site) : State → Nat → State → Prop
  | joins {σ : State} {i : Nat} {s : Settings} (window : ChainWindow)
      (free : σ.workers i = none) (allowed : site.settings s) :
      Step site σ i
        ⟨σ.ledger, Function.update σ.workers i (some (.resting (.ofSettings s window)))⟩
  | cycles {σ : State} {i : Nat} {r : Reconciler} (turns : Turns)
      (free : σ.workers i = none) (allowed : site.reconcilers r) :
      Step site σ i ⟨σ.ledger, Function.update σ.workers i (some (.cycling [] (r.cycleIn turns)))⟩
  | moves {σ : State} {i : Nat} {w w' : Worker} {l : Ledger}
      (busy : σ.workers i = some w) (h : Moves site (σ.ledger, w) (l, w')) :
      Step site σ i ⟨l, Function.update σ.workers i (some w')⟩
  | leaves (σ : State) (i : Nat) : Step site σ i ⟨σ.ledger, Function.update σ.workers i none⟩

inductive Reachable (site : Site) (l : Ledger) : State → Prop
  | idle : Reachable site l (.idle l)
  | step {σ σ' : State} {i : Nat} (reached : Reachable site l σ) (h : Step site σ i σ') :
      Reachable site l σ'

/-- One pipeline at work alone, from an empty ledger: it steps again and again, nobody else
joins, and every call is answered. -/
def Undisturbed (site : Site) (s : Settings) (window : ChainWindow) :
    Ledger × Worker → Prop :=
  Relation.ReflTransGen (Moves site.calm) (.empty, .resting (.ofSettings s window))

/-- What an undisturbed pipeline does may happen in company too. -/
theorem Undisturbed.reachable {site : Site} {s : Settings} {window : ChainWindow}
    (allowed : site.settings s) {x : Ledger × Worker} (h : Undisturbed site s window x) :
    ∃ σ, Reachable site .empty σ ∧ σ.ledger = x.1 ∧ σ.workers 0 = some x.2 := by
  induction h with
  | refl => exact ⟨_, .step .idle (.joins (i := 0) window rfl allowed), rfl, by simp⟩
  | @tail x y _ move ih =>
    obtain ⟨σ, reached, hl, hw⟩ := ih
    obtain ⟨l, w⟩ := x
    obtain ⟨l', w'⟩ := y
    subst hl
    exact ⟨_, .step reached (.moves hw move.of_calm), rfl, by simp⟩

end RouterHistory.Shared
