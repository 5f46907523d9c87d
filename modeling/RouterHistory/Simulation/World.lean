import RouterHistory.Pipeline.Reconciler
import RouterHistory.Program
import RouterHistory.Simulation.Schedule
import RouterHistory.Source
import RouterHistory.Store.Backend

/-!
Worlds to run programs in. The full one has a recorded source, a store, and calls that fail when
told to, and keeps the events that a program makes known. The delays of retries take time in it,
in which others may change the world; a program that runs to its end at once has the world for
itself, and a reconcile cycle can be held up between its halves while other work goes on.

The small one is a script of failures, to see how a program retries. The program asks for the head
of a source only, and each call that does not fail is answered with its own number, so the result
tells which call it came from.
-/
namespace RouterHistory.Simulation

/-- For each call, counted from zero, the failure that answers it, if one does. -/
abbrev Script := Nat → Option Failure

/-- What a scripted run came to. -/
structure ScriptedRun where
  calls : Nat
  /-- Milliseconds spent waiting. -/
  elapsed : Nat
  result : Except Failure Slot

namespace Script

def answer (s : Script) (call : Nat) : Except Failure Slot :=
  match s call with
  | some f => .error f
  | none => .ok (UInt64.ofNat call)

/-- Runs a program after so many calls and so much waiting; nothing if it asks for anything but
heads and delays. -/
def runFrom (s : Script) :
    (calls elapsed : Nat) → Program (Except Failure Slot) → Option ScriptedRun
  | calls, elapsed, .done result => some ⟨calls, elapsed, result⟩
  | calls, elapsed, .ask (.source .head) next =>
      runFrom s (calls + 1) elapsed (next (s.answer calls))
  | calls, elapsed, .ask (.wait (.backoff milliseconds)) next =>
      runFrom s calls (elapsed + milliseconds.toNat) (next false)
  | _, _, .ask _ _ => none

def run (s : Script) (p : Program (Except Failure Slot)) : Option ScriptedRun := s.runFrom 0 0 p

end Script

/-- What happens to a call instead of reaching the store. -/
inductive Disruption where
  | failure (failure : Failure)
  /-- The caller ends without an answer. -/
  | crash

/-- The calls of a store without their arguments. -/
inductive Method where
  | checkpoint
  | start
  | advance
  | upsert
  | upsertAll
  | commit
  | record
  | lifecycle
  | count
  | provisionalAfter
  | finalizeThrough
  | moveMark
  | orphan
  | quarantined
  deriving DecidableEq, Repr

def Method.ofCall : StoreCall → Method
  | .checkpoint _ => .checkpoint
  | .start _ _ => .start
  | .advance _ => .advance
  | .upsert _ => .upsert
  | .upsertAll _ => .upsertAll
  | .commit _ => .commit
  | .record _ => .record
  | .lifecycle _ => .lifecycle
  | .count => .count
  | .provisionalAfter _ => .provisionalAfter
  | .finalizeThrough _ => .finalizeThrough
  | .moveMark _ _ => .moveMark
  | .orphan _ _ => .orphan
  | .quarantined => .quarantined

abbrev Disruptions := Method → UInt32 × Disruption

namespace Disruptions

def none : Disruptions := fun _ => (0, .crash)

def set (d : Disruptions) (m : Method) (count : UInt32) (how : Disruption) : Disruptions :=
  fun k => if k = m then (count, how) else d k

def next (d : Disruptions) (m : Method) : Option Disruption × Disruptions :=
  let (count, how) := d m
  if count = 0 then (Option.none, d) else (some how, d.set m (count - 1) how)

end Disruptions

/-- An outage that begins after some more calls. -/
structure Outage where
  after : UInt32
  calls : UInt32

structure World where
  now : Int
  recording : Recording
  /-- An outage to come. -/
  outage : Option Outage
  /-- Deliveries that are given out whatever slots are asked for. -/
  deliveries : Option (List Delivery)
  backend : Backend
  disruptions : Disruptions
  /-- How many times the store will still deny having a checkpoint. -/
  hiddenCheckpoints : UInt32
  /-- The events so far, the latest first. -/
  events : List Event
  /-- Whether a fork was signalled. -/
  signalled : Bool

namespace World

def countSourceCall (w : World) : World :=
  match w.outage with
  | none => w
  | some ⟨after, calls⟩ =>
      if after = 0 then { w with outage := none, recording := w.recording.failing calls }
      else { w with outage := some ⟨after - 1, calls⟩ }

/-- Puts the fixed deliveries, if there are any, in place of those that were asked for. -/
def override (w : World) : (c : SourceCall) → Except Failure c.Answer → Except Failure c.Answer
  | .slots _ _ _, .ok (found : List Delivery) => .ok (w.deliveries.getD found)
  | _, result => result

def answerSource (w : World) (c : SourceCall) : Except Failure c.Answer × World :=
  let w := w.countSourceCall
  let (result, recording) := w.recording.answer c
  (w.override c result, { w with recording })

def askBackend (w : World) : (c : StoreCall) → Except Failure c.Answer × World
  | .checkpoint id =>
      if w.hiddenCheckpoints = 0 then
        let (result, backend) := w.backend.answer w.now (.checkpoint id)
        (result, { w with backend })
      else (.ok none, { w with hiddenCheckpoints := w.hiddenCheckpoints - 1 })
  | c =>
      let (result, backend) := w.backend.answer w.now c
      (result, { w with backend })

/-- Answers a store call; nothing when the caller crashes. -/
def answerStore (w : World) (c : StoreCall) : Option (Except Failure c.Answer) × World :=
  match w.disruptions.next (.ofCall c) with
  | (some (.failure f), disruptions) => (some (.error f), { w with disruptions })
  | (some .crash, disruptions) => (none, { w with disruptions })
  | (none, _) => let (result, w) := w.askBackend c; (some result, w)

def answer (w : World) : (r : Request) → Option r.Answer × World
  | .source c => let (result, w) := w.answerSource c; (some result, w)
  | .store c => w.answerStore c
  | .clock => (some w.now, w)
  | .emit event => (some (), { w with events := event :: w.events })
  | .signalFork => (some (), { w with signalled := true })
  | .shutdownFlag => (some false, w)
  | .wait _ => (some false, w)

/-- Runs a program to its end; nothing when it crashes. -/
def run : World → Program α → Option α × World
  | w, .done a => (some a, w)
  | w, .ask r next =>
      match w.answer r with
      | (none, w) => (none, w)
      | (some answer, w) => run w (next answer)

def course : World → Program α → Course World (Option α)
  | w, .done a => .done (some a) w
  | w, .ask (.wait (.backoff milliseconds)) next =>
      .wait milliseconds.toNat w fun w => course w (next false)
  | w, .ask r next =>
      match w.answer r with
      | (none, w) => .done none w
      | (some answer, w) => course w (next answer)

/-- With the world for itself a program does the same at once. -/
theorem alone_course (w : World) (p : Program α) : (w.course p).alone = w.run p := by
  induction p generalizing w with
  | done a => rfl
  | ask r next ih =>
    rw [run]
    cases r with
    | wait wait =>
      cases wait with
      | backoff milliseconds => exact ih false w
      | _ => exact ih false w
    | _ =>
      rw [course]
      split
      next => rfl
      next => exact ih _ _
      all_goals simp

def takeEvents (w : World) : List Event × World :=
  (w.events.reverse, { w with events := [] })

end World

/-- A cycle that has ended, or one whose answers are held back. -/
inductive Held where
  /-- The report; nothing after a crash. -/
  | over (report : Option (Except Failure CycleReport))
  | waiting (survey : Survey)

namespace World

/-- Runs a cycle up to its answers. With nothing to resolve there are none to hold back, and the
cycle runs to its end. -/
def hold (w : World) (r : Reconciler) : Held × World :=
  match w.run r.survey with
  | (none, w) => (.over none, w)
  | (some (.error f), w) => (.over (some (.error f)), w)
  | (some (.ok survey), w) =>
      if survey.resolved.isEmpty then
        let (report, w) := w.run (r.conclude survey)
        (.over report, w)
      else (.waiting survey, w)

def release (w : World) (r : Reconciler) : Held → Option (Except Failure CycleReport) × World
  | .over report => (report, w)
  | .waiting survey => w.run (r.conclude survey)

end World

end RouterHistory.Simulation
