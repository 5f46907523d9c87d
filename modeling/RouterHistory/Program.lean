import RouterHistory.Report
import RouterHistory.Source
import RouterHistory.Store.Call

/-!
Programs of the pipeline as trees of requests. A program either is done or asks one thing of the
world and goes on with the answer, so whoever runs it decides what the source and the store
answer, how time passes and what comes between two requests.
-/
namespace RouterHistory

/-- Something that only time or another task brings about. -/
inductive Wait where
  /-- A delay before a retry. -/
  | backoff (milliseconds : UInt64)
  /-- A delay that a change of the shutdown flag ends early. -/
  | pause (milliseconds : UInt64)
  /-- The next reconcile cycle: after a delay, on a fork, or never when the run stops. -/
  | cycle (milliseconds : UInt64)
  /-- The end of the reconciling task, which is told to stop. -/
  | reconcilerEnd
  deriving DecidableEq, Repr

inductive Request where
  | source (call : SourceCall)
  | store (call : StoreCall)
  /-- The time in seconds since 1970. -/
  | clock
  | emit (event : Event)
  /-- Tells the reconciling task that a fork was seen. -/
  | signalFork
  /-- Whether the shutdown flag is set. -/
  | shutdownFlag
  /-- Waits; the answer tells whether to stop. -/
  | wait (wait : Wait)
  deriving DecidableEq, Repr

@[reducible]
def Request.Answer : Request → Type
  | .source call => Except Failure call.Answer
  | .store call => Except Failure call.Answer
  | .clock => Int
  | .emit _ => Unit
  | .signalFork => Unit
  | .shutdownFlag => Bool
  | .wait _ => Bool

inductive Program (α : Type) : Type where
  | done (result : α)
  | ask (request : Request) (next : request.Answer → Program α)

namespace Program

variable {α β γ : Type}

def bind : Program α → (α → Program β) → Program β
  | done a, f => f a
  | ask r next, f => ask r fun answer => (next answer).bind f

instance : Monad Program where
  pure := done
  bind := bind

@[simp] theorem pure_eq (a : α) : (pure a : Program α) = done a := rfl

@[simp] theorem done_bind (a : α) (f : α → Program β) : done a >>= f = f a := rfl

@[simp] theorem ask_bind (r : Request) (next : r.Answer → Program α) (f : α → Program β) :
    ask r next >>= f = ask r fun answer => next answer >>= f := rfl

theorem bind_done (p : Program α) : p >>= done = p := by
  induction p with
  | done a => rfl
  | ask r next ih => exact congrArg (ask r) (funext ih)

theorem bind_assoc (p : Program α) (f : α → Program β) (g : β → Program γ) :
    p >>= f >>= g = p >>= fun a => f a >>= g := by
  induction p with
  | done a => rfl
  | ask r next ih => exact congrArg (ask r) (funext ih)

instance : LawfulMonad Program := LawfulMonad.mk' Program bind_done (fun _ _ => rfl) bind_assoc

def source (call : SourceCall) : Program (Except Failure call.Answer) := ask (.source call) done

def store (call : StoreCall) : Program (Except Failure call.Answer) := ask (.store call) done

def clock : Program Int := ask .clock done

def signalFork : Program Unit := ask .signalFork done

def shutdownFlag : Program Bool := ask .shutdownFlag done

def wait (w : Wait) : Program Bool := ask (.wait w) done

def emit (event : Event) : Program Unit := ask (.emit event) done

def emitAll : List Event → Program Unit
  | [] => done ()
  | e :: rest => ask (.emit e) fun _ => emitAll rest

end Program

end RouterHistory
