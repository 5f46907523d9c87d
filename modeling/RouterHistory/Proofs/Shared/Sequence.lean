import RouterHistory.Proofs.Shared.Law
import RouterHistory.Proofs.Shared.LoneRun
import RouterHistory.Proofs.Store.Attained

/-!
Operations one after the other. A batch step or a reconcile cycle begins on an empty ledger or
where the one before has ended, and nobody else is at work meanwhile. Between two operations
anything may have changed around them: the source, the clock, and the state of the pipelines.
-/
namespace RouterHistory.Shared

/-- A source that finds a transaction finds the one that it was asked for. -/
def Site.FindsOwn (site : Site) : Prop :=
  ∀ S tx, site.source (.resolve S) (.canonical tx) → tx.signature = S

def Own : (call : SourceCall) → call.Answer → Prop
  | .resolve S, .canonical tx => tx.signature = S
  | _, _ => True

def Site.withClassifier (c : Classifier) : Site where
  source := Own
  failing := True
  lossy := False
  settings s := s.classifier = c
  reconcilers r := r.classifier = c

theorem Site.findsOwn_withClassifier (c : Classifier) : (withClassifier c).FindsOwn :=
  fun _ _ own => own

inductive Operation where
  | step (p : Pipeline)
  | cycle (r : Reconciler) (turns : Turns)

namespace Operation

def program : Operation → Program Unit
  | .step p => p.step >>= fun _ => .done ()
  | .cycle r turns => r.cycleIn turns >>= fun _ => .done ()

inductive Allowed (site : Site) : Operation → Prop
  | step {p : Pipeline} {s : Settings} (allowed : site.settings s) (fits : p.Fits s) :
      Allowed site (.step p)
  | cycle {r : Reconciler} (turns : Turns) (allowed : site.reconcilers r) :
      Allowed site (.cycle r turns)

def Rule : Operation → List Call → Request → Prop
  | .step p => Pipeline.StepRule p.settings
  | .cycle r _ => r.CycleRule

theorem follows {site : Site} {op : Operation} (allowed : op.Allowed site) :
    op.program.Follows site op.Rule (fun _ _ => True) [] := by
  cases allowed with
  | step _ fits =>
    obtain ⟨rfl, hcursor⟩ := fits
    exact Program.follows_bind (Program.follows_imp (Pipeline.step_follows ⟨rfl, hcursor⟩)
      fun _ _ _ => trivial)
  | cycle turns _ =>
    exact Program.follows_bind (Program.follows_imp (Reconciler.cycleIn_follows turns)
      fun _ _ _ => trivial)

end Operation

/-- Operations one after the other: the calls of those that have ended and the calls of the latest
one, the latest call first, the ledger, and what the latest operation has left to do. -/
inductive Sequence (site : Site) : List Call → List Call → Ledger → Program Unit → Prop
  | empty : Sequence site [] [] .empty (.done ())
  | begins {earlier past : List Call} {l : Ledger} {op : Operation}
      (ended : Sequence site earlier past l (.done ())) (allowed : op.Allowed site) :
      Sequence site (past ++ earlier) [] l op.program
  | asks {earlier past : List Call} {l l' : Ledger} {r : Request} {a : r.Answer}
      {next : r.Answer → Program Unit} (before : Sequence site earlier past l (.ask r next))
      (answered : Answered site l r a l') : Sequence site earlier (⟨r, a, l⟩ :: past) l' (next a)

/-- A request leaves the ledger as it is, or the ledger answers it. -/
theorem Answered.ledger {site : Site} {l l' : Ledger} {r : Request} {a : r.Answer}
    (h : Answered site l r a l') :
    l' = l ∨ ∃ now call, r = .store call ∧ l' = (l.answer now call).2 := by
  cases h with
  | @store call now => exact .inr ⟨now, call, rfl, rfl⟩
  | @receiptLost batch now _ _ => exact .inr ⟨now, .commit batch, rfl, rfl⟩
  | _ => exact .inl rfl

theorem Answered.attained {site : Site} {l l' : Ledger} {r : Request} {a : r.Answer}
    (h : Answered site l r a l') (attained : l.Attained) : l'.Attained := by
  rcases h.ledger with rfl | ⟨now, call, -, rfl⟩
  · exact attained
  · exact attained.answer now call

theorem ends_attained {α : Type} {site : Site} {p : Program α} {past : List Call} {l : Ledger}
    (attained : l.Attained) : p.Ends site (fun _ l' _ => l'.Attained) past l := by
  induction p generalizing past l with
  | done a => exact attained
  | ask r next ih => exact fun a l' answered => ih a (answered.attained attained)

namespace Sequence

variable {site : Site} {earlier past : List Call} {l : Ledger} {rest : Program Unit}

theorem attained (h : Sequence site earlier past l rest) : l.Attained := by
  induction h with
  | empty => exact .empty
  | begins _ _ ih => exact ih
  | asks _ answered ih => exact answered.attained ih

/-- The requests of the latest operation are in order, and those that are left will be. -/
theorem conducted (h : Sequence site earlier past l rest) :
    rest = .done () ∨ ∃ op : Operation, op.Allowed site ∧ Recorded .none site op.Rule past l ∧
      rest.Follows site op.Rule (fun _ _ => True) past := by
  induction h with
  | empty => exact .inl rfl
  | begins _ allowed _ => exact .inr ⟨_, allowed, .nil _, Operation.follows allowed⟩
  | asks _ answered ih =>
    rcases ih with hdone | ⟨op, allowed, recorded, inOrder, hnext⟩
    · cases hdone
    · exact .inr ⟨op, allowed, .call recorded inOrder trivial answered trivial trivial,
        hnext _ _ _ answered⟩

theorem in_order {r : Request} {next : r.Answer → Program Unit}
    (h : Sequence site earlier past l (.ask r next)) :
    ∃ op : Operation, op.Allowed site ∧ Recorded .none site op.Rule past l ∧ op.Rule past r := by
  rcases h.conducted with hdone | ⟨op, allowed, recorded, follows⟩
  · cases hdone
  · exact ⟨op, allowed, recorded, follows.1⟩

/-- What each operation establishes at its end, if it held where the operation began, holds
whenever an operation has ended. -/
theorem at_end (inv : List Call → List Call → Ledger → Prop) (empty : inv [] [] .empty)
    (operation : ∀ {earlier past l} {op : Operation}, inv earlier past l → l.Attained →
      op.Allowed site →
      op.program.Ends site (fun q l' _ => inv (past ++ earlier) q l') [] l)
    (h : Sequence site earlier past l (.done ())) : inv earlier past l := by
  -- in the course of an operation, what is left of it leads to the invariant
  suffices ends : ∀ {earlier past l rest}, Sequence site earlier past l rest →
      rest.Ends site (fun q l' _ => inv earlier q l') past l from ends h
  intro earlier past l rest h
  induction h with
  | empty => exact empty
  | begins ended allowed ih => exact operation ih ended.attained allowed
  | asks _ answered ih => exact ih _ _ answered

/-- An operation that a host answers goes on to its end. -/
theorem run {host : Host} (suits : host.Suits site) (h : Sequence site earlier past l rest) :
    ∃ q, Sequence site earlier q (host.around.run l rest).2 (.done ()) := by
  induction rest generalizing past l with
  | done a => exact ⟨past, h⟩
  | ask r next ih => exact ih _ (.asks h (host.answered suits l r))

end Sequence

end RouterHistory.Shared
