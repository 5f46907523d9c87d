import RouterHistory.Program

/-!
Work that takes time, and a run in virtual time. A course changes a state at once, and between two
changes it waits while others may change the state. Courses follow one another, work on a part of
a larger state, or show others only a part of their own; alone, a course does not notice the
waiting.

In a run two tasks share a world: the pipeline, and the reconciler that it waits for at its end.
Working takes no time; only waiting does. The pipeline goes first, but of two waits that run out
at once the older one ends first. What is done from outside begins at given times, before anything
else that happens then, and the tasks go on while it waits. Time passes by courses, so a run may
itself go on beside other work.
-/
namespace RouterHistory.Simulation

/-- The rest of some work, up to its next wait. -/
inductive Course (σ α : Type) : Type where
  | done (result : α) (state : σ)
  /-- Waits, and goes on with the state as it is then. -/
  | wait (milliseconds : Nat) (state : σ) (next : σ → Course σ α)

namespace Course

variable {σ τ α β γ : Type}

def andThen : Course σ α → (α → σ → Course σ β) → Course σ β
  | done a s, f => f a s
  | wait milliseconds s next, f => wait milliseconds s fun s => (next s).andThen f

def alone : Course σ α → α × σ
  | done a s => (a, s)
  | wait _ s next => (next s).alone

def within (part : τ → σ) (put : σ → τ → τ) : (whole : τ) → Course σ α → Course τ α
  | whole, done a s => done a (put s whole)
  | whole, wait milliseconds s next =>
      wait milliseconds (put s whole) fun whole => within part put whole (next (part whole))

/-- Shows others only a part of the state. The whole comes out at the end. -/
def showing (part : τ → σ) (put : σ → τ → τ) : Course τ α → Course σ (α × τ)
  | done a whole => done (a, whole) (part whole)
  | wait milliseconds whole next =>
      wait milliseconds (part whole) fun s => showing part put (next (put s whole))

@[simp] theorem done_andThen (a : α) (s : σ) (f : α → σ → Course σ β) :
    (done a s).andThen f = f a s := rfl

theorem andThen_assoc (c : Course σ α) (f : α → σ → Course σ β) (g : β → σ → Course σ γ) :
    (c.andThen f).andThen g = c.andThen fun a s => (f a s).andThen g := by
  induction c with
  | done a s => rfl
  | wait milliseconds s next ih => exact congrArg (wait milliseconds s) (funext ih)

theorem alone_andThen (c : Course σ α) (f : α → σ → Course σ β) :
    (c.andThen f).alone = (f c.alone.1 c.alone.2).alone := by
  induction c with
  | done a s => rfl
  | wait milliseconds s next ih => exact ih s

/-- Alone, a course on a part does to the whole what it does to the part. -/
theorem alone_within (part : τ → σ) (put : σ → τ → τ)
    (part_put : ∀ s whole, part (put s whole) = s)
    (put_put : ∀ s t whole, put s (put t whole) = put s whole) (whole : τ) (c : Course σ α) :
    (c.within part put whole).alone = (c.alone.1, put c.alone.2 whole) := by
  induction c generalizing whole with
  | done a s => rfl
  | wait milliseconds s next ih =>
    rw [within, alone, ih, part_put, put_put, alone]

end Course

/-- The shutdown flag as the pipeline sees it. -/
structure Flag where
  value : Bool
  /-- Whether the flag was set since it last ended a pause. -/
  changed : Bool
  /-- Whether anyone can still set it. -/
  held : Bool
  /-- Whether the pipeline still looks at it. -/
  watched : Bool

def Flag.set (f : Flag) (value : Bool) : Flag := { f with value, changed := true }

def Flag.announce (f : Flag) (value : Bool) : Bool × Flag :=
  (f.watched, if f.watched then f.set value else f)

/-- What the two tasks share. -/
structure Shared (σ : Type) where
  world : σ
  flag : Flag
  /-- The number of fork signals that were not served yet. -/
  signals : Nat
  /-- The largest number of such signals: one is remembered, and a waiting reconciler holds one
  more that has woken it. -/
  signalRoom : Nat
  /-- Whether the reconciler is told to stop. -/
  stopping : Bool

def Shared.signal (s : Shared σ) : Shared σ :=
  { s with signals := min (s.signals + 1) s.signalRoom }

/-- How the world answers what is not a matter of scheduling; nothing is a crash. -/
abbrev Perform (σ : Type) := σ → (r : Request) → Option r.Answer × σ

/-- A task between two turns. -/
inductive Task (α : Type) where
  | ready (program : Program α)
  | waiting (wait : Wait) (deadline : Nat) (next : Bool → Program α)
  | finished (result : α)
  | crashed

def Task.isOver : Task α → Bool
  | .finished _ => true
  | .crashed => true
  | _ => false

def Task.isWaiting : Task α → Bool
  | .waiting _ _ _ => true
  | _ => false

/-- When a wait that began now ends by itself. -/
def Wait.deadline (now : Nat) : Wait → Nat
  | .backoff milliseconds => now + milliseconds.toNat
  | .pause milliseconds => now + milliseconds.toNat
  | .cycle milliseconds => now + milliseconds.toNat
  | .reconcilerEnd => now

/-- Gives a task its turn: it works until it waits or ends. A delay of no length is no wait. -/
def work (perform : Perform σ) (now : Nat) :
    Program α → Shared σ → Task α × Shared σ
  | .done a, s => (.finished a, s)
  | .ask (.wait (.backoff 0)) next, s => work perform now (next false) s
  | .ask (.wait w) next, s =>
      let s := if w = .reconcilerEnd then { s with stopping := true } else s
      (.waiting w (Wait.deadline now w) next, s)
  | .ask .shutdownFlag next, s => work perform now (next s.flag.value) s
  | .ask .signalFork next, s => work perform now (next ()) s.signal
  | .ask r next, s =>
      match perform s.world r with
      | (none, world) => (.crashed, { s with world })
      | (some answer, world) => work perform now (next answer) { s with world }

/-- The answer to a wait, if it is over. A pause ends early when the flag changed, and stops the
pipeline when the flag can change no more; a cycle is due early on a fork signal, and when the run
stops. -/
def Wait.over? (now deadline : Nat) (reconcilerOver : Bool) (s : Shared σ) :
    Wait → Option (Bool × Shared σ)
  | .backoff _ => if deadline ≤ now then some (false, s) else none
  | .pause _ =>
      if s.flag.changed then
        some (s.flag.value, { s with flag := { s.flag with changed := false } })
      else if !s.flag.held then some (true, s)
      else if deadline ≤ now then some (s.flag.value, s)
      else none
  | .cycle _ =>
      if s.stopping then some (true, s)
      else if 0 < s.signals then some (false, { s with signals := s.signals - 1 })
      else if deadline ≤ now then some (false, s)
      else none
  | .reconcilerEnd => if reconcilerOver then some (true, s) else none

/-- A run in progress. -/
structure Clockwork (σ α : Type) where
  now : Nat
  shared : Shared σ
  pipeline : Task α
  reconciler : Task Unit
  /-- Whether the pipeline had its last turn after the reconciler. -/
  pipelineLast : Bool

def turn (perform : Perform σ) (now : Nat) (reconcilerOver : Bool) (s : Shared σ) :
    Task β → Option (Task β × Shared σ)
  | .ready program => some (work perform now program s)
  | .waiting w deadline next =>
      (Wait.over? now deadline reconcilerOver s w).map fun (answer, s) =>
        work perform now (next answer) s
  | .finished _ => none
  | .crashed => none

namespace Clockwork

variable {σ α : Type}

def start (world : σ) (flag signalled : Bool) (pipeline : Program α) (reconciler : Program Unit) :
    Clockwork σ α where
  now := 0
  shared := ⟨world, ⟨flag, false, true, true⟩, if signalled then 1 else 0, 1, false⟩
  pipeline := .ready pipeline
  reconciler := .ready reconciler
  pipelineLast := false

/-- A pipeline that is over, in whatever way, leaves the reconciler nothing to go on for, and
looks at the flag no more. -/
def afterPipeline (c : Clockwork σ α) : Clockwork σ α :=
  { c with shared := { c.shared with
    stopping := c.shared.stopping || c.pipeline.isOver
    flag := { c.shared.flag with watched := !c.pipeline.isOver } } }

def pipelineTurn? (perform : Perform σ) (c : Clockwork σ α) : Option (Clockwork σ α) :=
  let signalRoom := if c.reconciler.isWaiting then 2 else 1
  (turn perform c.now c.reconciler.isOver { c.shared with signalRoom } c.pipeline).map
    fun (pipeline, shared) => afterPipeline { c with pipeline, shared, pipelineLast := true }

def reconcilerTurn? (perform : Perform σ) (c : Clockwork σ α) : Option (Clockwork σ α) :=
  (turn perform c.now c.reconciler.isOver c.shared c.reconciler).map
    fun (reconciler, shared) => { c with reconciler, shared, pipelineLast := false }

def wakeTime? : Task β → Option Nat
  | .waiting .reconcilerEnd _ _ => none
  | .waiting _ deadline _ => some deadline
  | _ => none

def isDue (now : Nat) (t : Task β) : Bool := (wakeTime? t).any (· ≤ now)

/-- Whether the reconciler goes first. Of two waits that run out at once the older one does. -/
def reconcilerLeads (c : Clockwork σ α) : Bool :=
  c.pipelineLast && isDue c.now c.pipeline && isDue c.now c.reconciler

def settle (perform : Perform σ) : (turns : Nat) → Clockwork σ α → Clockwork σ α
  | 0, c => c
  | turns + 1, c =>
      let first :=
        if c.reconcilerLeads then c.reconcilerTurn? perform else c.pipelineTurn? perform
      match first.orElse fun _ => c.reconcilerTurn? perform with
      | some c => settle perform turns c
      | none => c

def nextWake? (c : Clockwork σ α) : Option Nat :=
  match wakeTime? c.pipeline, wakeTime? c.reconciler with
  | some a, some b => some (min a b)
  | some a, none => some a
  | none, b => b

def waitUntil (time : Nat) (c : Clockwork σ α) : Course (Clockwork σ α) Unit :=
  .wait (time - c.now) c fun c => .done () { c with now := time }

def passBefore (perform : Perform σ) (limit : Nat) :
    (turns : Nat) → Clockwork σ α → Course (Clockwork σ α) Unit
  | 0, c => .done () c
  | turns + 1, c =>
      let c := c.settle perform turns
      match c.nextWake? with
      | some wake =>
          if wake < limit then
            (c.waitUntil (max c.now wake)).andThen fun _ c => passBefore perform limit turns c
          else .done () c
      | none => .done () c

/-- Brings a run to a time. Nobody works if that time is here. -/
def passUntil (perform : Perform σ) (turns time : Nat) (c : Clockwork σ α) :
    Course (Clockwork σ α) Unit :=
  if time ≤ c.now then .done () c
  else (c.passBefore perform time turns).andThen fun _ c => c.waitUntil time

def beside (perform : Perform σ) (turns : Nat) :
    Course (Shared σ) β → Clockwork σ α → Course (Clockwork σ α) β
  | .done b shared, c => .done b { c with shared }
  | .wait milliseconds shared next, c =>
      (passUntil perform turns (c.now + milliseconds) { c with shared }).andThen fun _ c =>
        beside perform turns (next c.shared) c

def act (perform : Perform σ) (turns time : Nat) (action : Shared σ → Course (Shared σ) β)
    (c : Clockwork σ α) : Course (Clockwork σ α) β :=
  (c.passUntil perform turns time).andThen fun _ c => beside perform turns (action c.shared) c

def finish (perform : Perform σ) : (turns : Nat) → Clockwork σ α → Course (Clockwork σ α) Unit
  | 0, c => .done () c
  | turns + 1, c =>
      let c := c.settle perform turns
      if c.pipeline.isOver then .done () c
      else
        match c.nextWake? with
        | some wake =>
            (c.waitUntil (max c.now wake)).andThen fun _ c => finish perform turns c
        | none => .done () c

def result? (c : Clockwork σ α) : Option α :=
  match c.pipeline with
  | .finished a => some a
  | _ => none

end Clockwork

end RouterHistory.Simulation
