import RouterHistory.Proofs.Reconciliation.Convergence

/-!
Cycles over a ledger that was just reconciled. On a chain that does not change, what a cycle put
into the ledger is what the next one is told: each pending row by the answer for its signature,
and each open transaction by the slots that are fetched again. So the next cycle has nothing to
correct, and all it does is to make final what the first moved to the boundary or below it.
-/
namespace RouterHistory.Reconciler

open Shared

variable {r : Reconciler} {host : Host} {l : Ledger} {mark : Mark} {f : Finding}

/-- There is nothing to do about a finding: either nothing was found out, or what the ledger has.
-/
def Finding.Fits (l : Ledger) (mark : Mark) : Finding → Prop
  | .unknown => True
  | .gone => False
  | .found row slot => l.rows[mark.signature]? = some row ∧ slot = mark.slot

theorem Finding.settle_of_fits (h : f.Fits l mark) : f.settle l mark = l := by
  cases f with
  | unknown => rfl
  | gone => cases h
  | found row slot =>
    simp only [Finding.settle]
    rw [if_pos h.1, if_pos h.2]

/-- They leave a report clean. -/
theorem Finding.clean_count_of_fits {report : CycleReport} (hclean : report.Clean)
    (h : f.Fits l mark) : (f.count l mark report).Clean := by
  cases f with
  | unknown => exact ⟨hclean.orphaned, hclean.overwritten, hclean.recovered, hclean.quarantined⟩
  | gone => cases h
  | found row slot =>
    simp only [Finding.count]
    rw [if_pos h.1]
    exact ⟨hclean.orphaned, hclean.overwritten, hclean.recovered, hclean.quarantined⟩

section SettleAll

variable {resolved : List Resolved} (h : ∀ x ∈ resolved, (r.finding x.verdict).Fits l x.mark)

include h

theorem settleAll_of_fits : r.settleAll l resolved = l := by
  induction resolved with
  | nil => rfl
  | cons x rest ih =>
    rw [settleAll, Finding.settle_of_fits (h x (List.mem_cons_self ..))]
    exact ih fun y hy => h y (List.mem_cons_of_mem x hy)

theorem clean_countAll_of_fits {report : CycleReport} (hclean : report.Clean) :
    (r.countAll l report resolved).Clean := by
  induction resolved generalizing report with
  | nil => exact hclean
  | cons x rest ih =>
    have hfits := h x (List.mem_cons_self ..)
    rw [countAll, Finding.settle_of_fits hfits]
    exact ih (fun y hy => h y (List.mem_cons_of_mem x hy))
      (Finding.clean_count_of_fits hclean hfits)

end SettleAll

end RouterHistory.Reconciler

namespace RouterHistory.Reconciliation

open Shared Reconciler

variable {c : Chain} {r : Reconciler} {host : Host} {l m : Ledger} {turns : Turns}
variable {S : Signature} {s : Slot}

/-- What the source would tell a cycle is what the ledger has. -/
structure Reconciled (r : Reconciler) (host : Host) (m : Ledger) : Prop where
  pending : ∀ (S : Signature) (s : Slot), m.marks[S]? = some s → r.boundaryAt host < s →
    (r.finding (.ok (host.source (.resolve S)))).Fits m ⟨S, s⟩
  recorded : ∀ tx ∈ window r host m, tx.signature ∈ m.rows ∨ tx.signature ∈ m.quarantine

/-- Where the first half of a cycle leaves a mark, the answer for it fits. -/
theorem fits_of_settled {before : Option Record × Option Slot}
    (hstanding : m.standing S = r.settled host S before) (hmark : m.marks[S]? = some s) :
    (r.finding (.ok (host.source (.resolve S)))).Fits m ⟨S, s⟩ := by
  obtain ⟨row, mark⟩ := before
  have hrow : m.rows[S]? = _ := congrArg Prod.fst hstanding
  have hslot : some s = _ := hmark.symm.trans (congrArg Prod.snd hstanding)
  cases mark with
  | none => cases hslot
  | some slot =>
    simp only [settled] at hrow hslot
    split at hslot
    · next habove =>
      rw [if_pos habove] at hrow
      cases hfinding : r.finding (.ok (host.source (.resolve S))) with
      | unknown => trivial
      | gone =>
        rw [hfinding] at hslot
        cases hslot
      | found row' slot' =>
        rw [hfinding] at hrow hslot
        exact ⟨hrow, (Option.some.inj hslot).symm⟩
    · cases hslot

/-- What the second half of a cycle recorded fits the answer that resolves it. -/
theorem Truthful.fits_of_recorded (truthful : Truthful c host) {tx : Transaction}
    (htx : tx ∈ r.refetched host l) (hrecorded : Recorded r.classifier tx m)
    (hmark : m.marks[tx.signature]? = some s) :
    (r.finding (.ok (host.source (.resolve tx.signature)))).Fits m ⟨tx.signature, s⟩ := by
  rw [truthful.resolve_of_refetched htx]
  simp only [finding]
  cases hclassify : r.classifier.classify tx with
  | error rejection => trivial
  | ok row =>
    obtain ⟨hrow, hslot⟩ := Prod.mk.inj (hrecorded.classified row hclassify).1
    exact ⟨hrow, Option.some.inj (hslot.symm.trans hmark)⟩

/-- A cycle leaves a reconciled ledger behind. -/
theorem Truthful.reconciled_cycledAt (truthful : Truthful c host) (h : l.Regular) (now : Int) :
    Reconciled r host (r.cycledAt (host.atTime now) l turns) := by
  have hsettled : (r.settledAt host l turns).Regular := regular_settledAt h
  constructor
  case pending =>
    intro S s hmark _
    cases rescans_recorded r host hsettled (fun _ => now) S with
    | @recorded tx htx same _ _ recorded =>
      subst same
      exact truthful.fits_of_recorded (List.mem_filter.1 htx).1 recorded hmark
    | kept _ standing _ =>
      exact fits_of_settled (standing.trans (standing_settledAt truthful.canonical)) hmark
  case recorded =>
    have recovers : Recovers r.classifier now (window r host (r.settledAt host l turns))
        (r.settledAt host l turns) (r.cycledAt (host.atTime now) l turns) :=
      recovers_recorded hsettled now
    have hwindow : window r host (r.cycledAt (host.atTime now) l turns) =
        window r host (r.settledAt host l turns) := window_congr (Ledger.checkpoints_written _ _)
    rw [hwindow]
    exact recovers.complete

namespace Reconciled

variable (reconciled : Reconciled r host m)

include reconciled

theorem fits : ∀ x ∈ r.repliedAt host.replies m turns,
    (r.finding x.verdict).Fits (r.finalized host m) x.mark := by
  intro x hx
  obtain ⟨mark, hpending, rfl⟩ := mem_repliedAt.1 hx
  obtain ⟨hmark, habove⟩ := mem_pendingAt.1 hpending
  exact reconciled.pending mark.signature mark.slot hmark habove

theorem settledAt_eq : r.settledAt host m turns = r.finalized host m :=
  settleAll_of_fits reconciled.fits

theorem foundAt_eq_nil (h : m.Regular) : r.foundAt host (r.finalized host m) = [] := by
  refine List.eq_nil_iff_forall_not_mem.2 fun tx htx => ?_
  obtain ⟨hfetched, hnew, hunknown⟩ := (mem_foundAt (h.finalizeThrough _)).1 htx
  exact (reconciled.recorded tx hfetched).elim hnew hunknown

/-- The cycle makes final what is at the boundary or below it, and that is all. -/
theorem run_cycleIn (h : m.Regular) (turns : Turns) : ∃ report,
    host.around.run m (r.cycleIn turns) = (.ok report, r.finalized host m) ∧ report.Clean := by
  have hclean : (r.reportAt host m turns).Clean := by
    change (r.countRecorded (r.settledAt host m turns) _
      (r.foundAt host (r.settledAt host m turns))).Clean
    rw [reconciled.settledAt_eq, reconciled.foundAt_eq_nil h]
    have hcounted : (r.countAll (r.finalized host m) (r.surveyBy host.replies m turns).report
        (r.repliedAt host.replies m turns)).Clean :=
      clean_countAll_of_fits reconciled.fits ⟨rfl, rfl, rfl, rfl⟩
    exact ⟨hcounted.orphaned, hcounted.overwritten, hcounted.recovered, hcounted.quarantined⟩
  have hledger : r.cycledAt host m turns = r.finalized host m :=
    calc r.cycledAt host m turns
      _ = r.recorded (r.settledAt host m turns) (fun _ => host.now)
          (r.foundAt host (r.settledAt host m turns)) := rfl
      _ = r.recorded (r.finalized host m) (fun _ => host.now) [] := by
          rw [reconciled.settledAt_eq, reconciled.foundAt_eq_nil h]
      _ = r.finalized host m := rfl
  refine ⟨_, ?_, hclean⟩
  rw [r.run_cycleIn host m turns, hledger]

end Reconciled

theorem marks_finalized {s : Slot} (habove : r.boundaryAt host < s) :
    (r.finalized host m).marks[S]? = some s ↔ m.marks[S]? = some s := by
  have hmarks : (r.finalized host m).marks[S]? = m.marks[S]?.filter (r.boundaryAt host < ·) :=
    congrArg Prod.snd (m.standing_finalizeThrough (r.boundaryAt host) S)
  rw [hmarks, Option.filter_eq_some_iff]
  simp [habove]

/-- Over a chain that does not change, on a ledger in which each mark has a row: after a cycle
that runs alone, the next one that does has nothing to correct, and it leaves all rows, quarantine
entries and checkpoints and the marks above the boundary as they are. -/
theorem reconciled_is_fixed (truthful : Truthful c host) (h : l.Regular) (r : Reconciler)
    (turns turns' : Turns) (now now' : Int) :
    ∃ report m report' m',
      (host.atTime now).around.run l (r.cycleIn turns) = (.ok report, m) ∧
      (host.atTime now').around.run m (r.cycleIn turns') = (.ok report', m') ∧ report'.Clean ∧
      m'.rows = m.rows ∧ m'.quarantine = m.quarantine ∧ m'.checkpoints = m.checkpoints ∧
      ∀ (S : Signature) (s : Slot), r.boundaryAt host < s →
        (m'.marks[S]? = some s ↔ m.marks[S]? = some s) := by
  have reconciled : Reconciled r host (r.cycledAt (host.atTime now) l turns) :=
    truthful.reconciled_cycledAt h now
  have reconciled' : Reconciled r (host.atTime now') (r.cycledAt (host.atTime now) l turns) :=
    ⟨reconciled.pending, reconciled.recorded⟩
  have hregular : (r.cycledAt (host.atTime now) l turns).Regular :=
    regular_recorded (regular_settledAt h) _ _
  obtain ⟨report', hrun, hclean⟩ := reconciled'.run_cycleIn hregular turns'
  exact ⟨_, _, report', _, r.run_cycleIn _ l turns, hrun, hclean, rfl, rfl, rfl,
    fun S s habove => marks_finalized habove⟩

/-- The first cycle deletes one row and records another; the second has nothing to do. -/
theorem second_cycle_is_clean :
    ∃ report m report' m',
      oneSlotHost.around.run partlyRecorded ((Reconciler.ofSettings oneRouter).cycleIn .inOrder) =
        (.ok report, m) ∧ report.orphaned = 1 ∧ report.recovered = 1 ∧
      oneSlotHost.around.run m ((Reconciler.ofSettings oneRouter).cycleIn .inOrder) =
        (.ok report', m') ∧
      report'.Clean ∧ m'.rows = m.rows := by
  obtain ⟨report, m, report', m', hrun, hrun', hclean, hrows, -⟩ :=
    reconciled_is_fixed truthful_oneSlotHost regular_partlyRecorded (.ofSettings oneRouter)
      .inOrder .inOrder 0 0
  have hreport : ((oneSlotHost.atTime 0).around.run partlyRecorded
      ((Reconciler.ofSettings oneRouter).cycleIn .inOrder)).1.toOption.map (fun report =>
        (report.orphaned, report.recovered)) = some (1, 1) := by decide +kernel
  rw [hrun] at hreport
  obtain ⟨horphaned, hrecovered⟩ := Prod.mk.inj (Option.some.inj hreport)
  exact ⟨report, m, report', m', hrun, horphaned, hrecovered, hrun', hclean, hrows⟩

end RouterHistory.Reconciliation
