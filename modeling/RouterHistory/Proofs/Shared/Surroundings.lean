import RouterHistory.Backoff
import RouterHistory.Store.Ledger

/-!
Surroundings in which a program runs from its start to its end. They answer every request at once,
with whatever they like, out of a state of their own. The plainest ones are a ledger beside a
source that replies to each call in its own way whenever it is made, and a clock that stands
still.
-/
namespace RouterHistory

namespace Program

variable {α β : Type}

/-- Each request is `ok` by itself and the result is `fine`, whatever the answers. -/
def Asks (ok : Request → Prop) (fine : α → Prop) : Program α → Prop
  | .done a => fine a
  | .ask r next => ok r ∧ ∀ answer, (next answer).Asks ok fine

variable {ok : Request → Prop} {fine : α → Prop}

theorem Asks.imp {p : Program α} {fine' : α → Prop} (h : p.Asks ok fine)
    (himp : ∀ a, fine a → fine' a) : p.Asks ok fine' := by
  induction p with
  | done a => exact himp a h
  | ask r next ih => exact ⟨h.1, fun answer => ih answer (h.2 answer)⟩

theorem Asks.bind {p : Program β} {f : β → Program α}
    (h : p.Asks ok fun b => (f b).Asks ok fine) : (p >>= f).Asks ok fine := by
  induction p with
  | done b => exact h
  | ask r next ih => exact ⟨h.1, fun answer => ih answer (h.2 answer)⟩

theorem asks_emitAll {events : List Event} (h : ∀ e ∈ events, ok (.emit e)) :
    (Program.emitAll events).Asks ok fun _ => True := by
  induction events with
  | nil => trivial
  | cons e rest ih =>
    obtain ⟨hfirst, hrest⟩ := List.forall_mem_cons.1 h
    exact ⟨hfirst, fun _ => ih hrest⟩

end Program

namespace Shared

structure Surroundings (σ : Type) where
  reply : σ → (r : Request) → r.Answer × σ

structure Exchange where
  request : Request
  answer : request.Answer

namespace Surroundings

variable {σ α β γ : Type} (around : Surroundings σ) (w : σ)

def run : σ → Program α → α × σ
  | w, .done a => (a, w)
  | w, .ask r next => run (around.reply w r).2 (next (around.reply w r).1)

def notes (note : σ → (r : Request) → r.Answer → γ) : σ → Program α → List γ
  | _, .done _ => []
  | w, .ask r next =>
      note w r (around.reply w r).1 :: notes note (around.reply w r).2 (next (around.reply w r).1)

def talk : σ → Program α → List Exchange := around.notes fun _ r a => ⟨r, a⟩

@[simp] theorem run_done (a : α) : around.run w (.done a) = (a, w) := rfl

theorem run_bind (p : Program β) (f : β → Program α) :
    around.run w (p >>= f) = around.run (around.run w p).2 (f (around.run w p).1) := by
  induction p generalizing w with
  | done b => rfl
  | ask r next ih => exact ih _ _

theorem run_bind_of_eq {p : Program β} {b : β} {w' : σ} (h : around.run w p = (b, w'))
    (f : β → Program α) : around.run w (p >>= f) = around.run w' (f b) := by
  rw [run_bind, h]

/-- The result of a program that only takes something from the result of another. -/
theorem run_map (f : α → β) (p : Program α) :
    around.run w (f <$> p) = (f (around.run w p).1, (around.run w p).2) := by
  rw [map_eq_pure_bind, around.run_bind]
  rfl

theorem notes_bind (note : σ → (r : Request) → r.Answer → γ) (p : Program β)
    (f : β → Program α) :
    around.notes note w (p >>= f) =
      around.notes note w p ++ around.notes note (around.run w p).2 (f (around.run w p).1) := by
  induction p generalizing w with
  | done b => rfl
  | ask r next ih => exact congrArg _ (ih _ _)

theorem talk_bind (p : Program β) (f : β → Program α) :
    around.talk w (p >>= f) =
      around.talk w p ++ around.talk (around.run w p).2 (f (around.run w p).1) :=
  around.notes_bind w _ p f

/-- An outcome that is worth no retry is the result. -/
theorem run_retry {b : Backoff} {operation : String} {body : Program (Except Failure α)}
    {outcome : Except Failure α} {w' : σ} (h : around.run w body = (outcome, w'))
    (lasting : ∀ f, outcome = .error f → ¬ f.isTransient) :
    around.run w (b.retry operation body) = (outcome, w') := by
  rw [Backoff.retry, Backoff.attemptFrom_eq, around.run_bind_of_eq w h]
  cases outcome with
  | ok a => rfl
  | error f =>
    simp only [lasting f rfl]
    rfl

end Surroundings

/-- What a source replies to each call, and a clock that stands still. -/
structure Replies where
  source : (call : SourceCall) → Except Failure call.Answer
  now : Int

/-- A source that never fails, and a clock that stands still. -/
structure Host where
  source : (call : SourceCall) → call.Answer
  now : Int

namespace Replies

variable (w : Replies)

def atTime (now : Int) : Replies := { w with now }

def around : Surroundings Ledger where
  reply l
    | .source call => (w.source call, l)
    | .store call => l.answer w.now call
    | .clock => (w.now, l)
    | .emit _ => ((), l)
    | .signalFork => ((), l)
    | .shutdownFlag => (false, l)
    | .wait _ => (false, l)

/-- The host with these answers, which is told of no head, no slots and no transactions where the
reply is a failure. -/
def host : Host where
  source call :=
    match w.source call with
    | .ok answer => answer
    | .error _ =>
        match call with
        | .head => (0 : Slot)
        | .slots _ _ _ => []
        | .resolve _ => .absent
  now := w.now

theorem host_source {call : SourceCall} {answer : call.Answer}
    (h : w.source call = .ok answer) : w.host.source call = answer := by
  unfold host
  simp only [h]

theorem host_slots (first last : Slot) (programIds : List String) :
    w.host.source (.slots first last programIds) =
      (w.source (.slots first last programIds)).toOption.getD [] := by
  unfold host
  simp only
  cases w.source (.slots first last programIds) <;> rfl

end Replies

namespace Host

variable (host : Host)

def atTime (now : Int) : Host := { host with now }

def replies : Replies := ⟨fun call => .ok (host.source call), host.now⟩

def around : Surroundings Ledger := host.replies.around

theorem run_emitAll (l : Ledger) (events : List Event) :
    host.around.run l (Program.emitAll events) = ((), l) := by
  induction events with
  | nil => rfl
  | cons e rest ih => exact ih

end Host

end Shared

end RouterHistory
