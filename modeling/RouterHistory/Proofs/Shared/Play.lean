import RouterHistory.Proofs.Shared.Surroundings
import RouterHistory.Proofs.Shared.Workers

/-!
Runs that are played out. A host answers every request at once, and a list of actions says who
goes on when; what is not possible does not happen. Whatever is played is a run.
-/
namespace RouterHistory.Shared

def Host.Suits (host : Host) (site : Site) : Prop := ∀ call, site.source call (host.source call)

theorem Host.answered {host : Host} {site : Site} (suits : host.Suits site) (l : Ledger)
    (r : Request) : Answered site l r (host.around.reply l r).1 (host.around.reply l r).2 := by
  cases r with
  | source call => exact .source (suits call)
  | store call => exact .store host.now
  | clock => exact .clock host.now
  | emit event => exact .emit event
  | signalFork => exact .signalFork
  | shutdownFlag => exact .shutdownFlag false
  | wait w => exact .wait w false

/-- The next move of a worker; a cycle that is done makes none. -/
def Host.goOn (host : Host) (l : Ledger) : Worker → Ledger × Worker
  | .resting p => (l, .stepping [] p.step)
  | .stepping past (.ask r next) =>
      let (a, l') := host.around.reply l r
      (l', .stepping (⟨r, a, l⟩ :: past) (next a))
  | .stepping _ (.done (_, p)) => (l, .resting p)
  | .cycling past (.ask r next) =>
      let (a, l') := host.around.reply l r
      (l', .cycling (⟨r, a, l⟩ :: past) (next a))
  | .cycling past (.done report) => (l, .cycling past (.done report))

theorem Host.moves {host : Host} {site : Site} (suits : host.Suits site) (l : Ledger)
    (w : Worker) : host.goOn l w = (l, w) ∨ Moves site (l, w) (host.goOn l w) := by
  rcases w with p | ⟨past, ⟨result, p⟩ | ⟨r, next⟩⟩ | ⟨past, report | ⟨r, next⟩⟩
  · exact .inr (.begins l p)
  · exact .inr (.rests l past result p)
  · exact .inr (.asks (host.answered suits l r))
  · exact .inl rfl
  · exact .inr (.cycleAsks (host.answered suits l r))

def Host.calls {α : Type} (host : Host) : Ledger → Program α → List Call :=
  host.around.notes fun l r a => ⟨r, a, l⟩

/-- A step that runs to its end is a stretch of moves. -/
theorem Host.moves_run {host : Host} {site : Site} (suits : host.Suits site) (l : Ledger)
    (past : List Call) (p : Program (Except Failure StepOutcome × Pipeline)) :
    Relation.ReflTransGen (Moves site) (l, .stepping past p)
      ((host.around.run l p).2, .resting (host.around.run l p).1.2) := by
  induction p generalizing l past with
  | done x =>
    obtain ⟨result, p⟩ := x
    exact .single (.rests l past result p)
  | ask r next ih =>
    have hreply : Moves site (l, .stepping past (.ask r next)) _ :=
      .asks (host.answered suits l r)
    exact .head hreply (ih _ _ _)

inductive Action where
  | join (s : Settings) (window : ChainWindow)
  | cycle (r : Reconciler)
  | goOn (host : Host)
  | leave

/-- The action brings in nobody and nothing that the site does not allow. -/
def Action.Suits (site : Site) : Action → Prop
  | .join s _ => site.settings s
  | .cycle r => site.reconcilers r
  | .goOn host => host.Suits site
  | .leave => True

def State.play (σ : State) (i : Nat) (action : Action) : State :=
  match action, σ.workers i with
  | .join s window, none =>
      ⟨σ.ledger, Function.update σ.workers i (some (.resting (.ofSettings s window)))⟩
  | .cycle r, none =>
      ⟨σ.ledger, Function.update σ.workers i (some (.cycling [] (r.cycleIn .inOrder)))⟩
  | .goOn host, some w =>
      ⟨(host.goOn σ.ledger w).1, Function.update σ.workers i (some (host.goOn σ.ledger w).2)⟩
  | .leave, _ => ⟨σ.ledger, Function.update σ.workers i none⟩
  | _, _ => σ

/-- An action changes nothing or is a step. -/
theorem State.play_step {site : Site} (σ : State) (i : Nat) {action : Action}
    (suits : action.Suits site) : σ.play i action = σ ∨ Step site σ i (σ.play i action) := by
  unfold State.play
  cases hw : σ.workers i with
  | none =>
    cases action with
    | join s window => exact .inr (.joins window hw suits)
    | cycle r => exact .inr (.cycles .inOrder hw suits)
    | goOn host => exact .inl rfl
    | leave => exact .inr (.leaves σ i)
  | some w =>
    cases action with
    | join s window => exact .inl rfl
    | cycle r => exact .inl rfl
    | goOn host =>
      rcases host.moves suits σ.ledger w with hsame | hmove
      · refine .inl ?_
        simp only [hsame]
        rw [← hw, Function.update_eq_self]
      · exact .inr (.moves hw hmove)
    | leave => exact .inr (.leaves σ i)

/-- Who goes on stays. -/
theorem State.busy_goOn {σ : State} {i : Nat} {host : Host} (busy : σ.workers i ≠ none) :
    (σ.play i (.goOn host)).workers i ≠ none := by
  obtain ⟨w, hw⟩ := Option.ne_none_iff_exists'.1 busy
  unfold State.play
  rw [hw]
  simp

def soundSignature : Signature := ⟨String.ofList (List.replicate 64 '1')⟩

def slotwise : Settings :=
  { Settings.default with batchSize := 1, classifier := ⟨["router"], 0, [1]⟩ }

def State.playAll (σ : State) : List (Nat × Action) → State
  | [] => σ
  | (i, action) :: rest => (σ.play i action).playAll rest

theorem Reachable.playAll {site : Site} {l : Ledger} {σ : State} (reached : Reachable site l σ)
    {actions : List (Nat × Action)} (suits : ∀ a ∈ actions, a.2.Suits site) :
    Reachable site l (σ.playAll actions) := by
  induction actions generalizing σ with
  | nil => exact reached
  | cons a rest ih =>
    refine ih ?_ fun b hb => suits b (List.mem_cons_of_mem a hb)
    rcases σ.play_step a.1 (suits a (List.mem_cons_self ..)) with hsame | hstep
    · rw [hsame]
      exact reached
    · exact .step reached hstep

end RouterHistory.Shared
