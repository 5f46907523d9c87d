import RouterHistory.Proofs.Reconciliation.RepliedCycle

/-!
A cycle that runs alone while its calls may fail. It does what the undisturbed cycle does, only
not to its end and not for every signature: resolutions that fail are passed over, slots that
cannot be fetched again are left for a later cycle, and any other failure ends the cycle where it
is.
-/
namespace RouterHistory.Reconciler

open Shared

variable {r : Reconciler} {host : Host} {l l' : Ledger} {turns : Turns}

/-- The host's answer for a mark, or a failure. -/
def AnswersOrFails (host : Host) (x : Resolved) : Prop :=
  x.verdict = .ok (host.source (.resolve x.mark.signature)) ∨ ∃ f, x.verdict = .error f

/-- Some of the pending marks, each once, with the host's answers where they did not fail. -/
structure Resolves (r : Reconciler) (host : Host) (l : Ledger) (resolved : List Resolved) :
    Prop where
  pending : ∀ x ∈ resolved, x.mark ∈ r.pendingAt host l
  answered : ∀ x ∈ resolved, AnswersOrFails host x
  nodup : (resolved.map fun x => x.mark.signature).Nodup

theorem resolves_nil : Resolves r host l [] := ⟨nofun, nofun, List.nodup_nil⟩

theorem Resolves.sublist {resolved done : List Resolved} (h : Resolves r host l resolved)
    (hsub : done.Sublist resolved) : Resolves r host l done :=
  ⟨fun x hx => h.pending x (hsub.subset hx), fun x hx => h.answered x (hsub.subset hx),
    h.nodup.sublist (hsub.map _)⟩

inductive Leaves (r : Reconciler) (host : Host) (l : Ledger) : Ledger → Prop
  | nothing : Leaves r host l l
  | settled {done : List Resolved} (resolves : Resolves r host l done) :
      Leaves r host l (r.settleAll (r.finalized host l) done)
  | recorded {done : List Resolved} (resolves : Resolves r host l done) (times : Nat → Int) :
      Leaves r host l (r.recorded (r.settleAll (r.finalized host l) done) times
        (r.foundAt host (r.settleAll (r.finalized host l) done)))

theorem Answers.resolves {resolved : List Resolved}
    (h : Answers host.fallible.lone (turns.asked (r.pendingAt host l)) resolved) :
    Resolves r host l (turns.answered resolved) := by
  have asked : Answers _ (turns.asked (r.leftAt l (host.source .head))) resolved := h
  obtain ⟨hpending, hnodup⟩ := asked.pending
  refine ⟨hpending, fun x hx => ?_, hnodup⟩
  have hreply := h.replies x ((turns.answered_perm resolved).subset hx)
  cases hverdict : x.verdict with
  | error f => exact .inr ⟨f, hverdict⟩
  | ok verdict => exact .inl (hverdict.trans (congrArg _ (hreply verdict hverdict)))

/-- Slots that cannot be fetched are the only ones that are missed. -/
theorem Refetches.eq_or_nil {txs : List Transaction}
    (h : Refetches host.fallible.lone r l (r.boundaryAt host) txs) :
    txs = r.refetched host l ∨ txs = [] := by
  unfold refetched
  cases h with
  | @opened id genesis c rescans stored above reply told =>
    cases reply with
    | error f => exact .inr (Gapless.transactions_nil _ _)
    | ok raw =>
      refine .inl ?_
      simp only [rescans, stored, if_neg above]
      rw [← (told raw rfl : raw = _)]
      rfl
  | _ => exact .inr rfl

theorem Concludes.leaves {s : Survey} {result : Except Failure CycleReport}
    (h : Concludes host.fallible.lone r (r.finalized host l) s l' result)
    (hboundary : s.boundary = r.boundaryAt host) (resolves : Resolves r host l s.resolved) :
    Leaves r host l l' := by
  cases h with
  | broken applied f disturbed => exact .settled (resolves.sublist applied.sublist)
  | @done l₁ txs settled refetches times shown =>
    subst settled
    rw [hboundary] at refetches
    rcases refetches.eq_or_nil with rfl | rfl
    · exact .recorded resolves times
    · exact .settled resolves

/-- Whatever fails, and whether it ends well or not, a cycle that runs alone leaves one of these
ledgers behind. -/
theorem cycleIn_ends (r : Reconciler) (host : Host) (l : Ledger) (turns : Turns)
    {past : List Call} :
    (r.cycleIn turns).Ends host.fallible (fun _ l' _ => Leaves r host l l') past l := by
  refine Program.ends_imp ((r.cycleIn_finishes turns l).ends host.lossless_fallible)
    fun _ l' result cycles => ?_
  cases cycles with
  | stopped surveys =>
    cases surveys with
    | headless untold => exact .nothing
    | undropped f disturbed => exact .nothing
    | unlisted told f disturbed =>
      obtain rfl : _ = host.source .head := told _ rfl
      exact .settled resolves_nil
  | concluded surveys concludes =>
    cases surveys with
    | done told answers =>
      obtain rfl : _ = host.source .head := told _ rfl
      exact concludes.leaves rfl (Answers.resolves answers)

end RouterHistory.Reconciler
