import RouterHistory.Proofs.Reconciliation.Outcome
import RouterHistory.Proofs.Store.LedgerWrites

/-!
The order in which the resolutions of a cycle come in. What is resolved for a signature is applied
to its own row and mark and counted by them, and no signature is resolved twice. So resolutions
commute, and a cycle ends with the same history and the same report in whichever order they are
asked for and answered.
-/
namespace RouterHistory

namespace Reconciler

open Shared

variable {r : Reconciler} {l l' : Ledger} {mark mark' : Mark} {f f' : Finding}

/-- A finding is counted by the row and the mark of its own signature. -/
theorem Finding.count_congr (h : l'.standing mark.signature = l.standing mark.signature)
    (report : CycleReport) : f.count l' mark report = f.count l mark report := by
  have hrow : l'.rows[mark.signature]? = l.rows[mark.signature]? := congrArg Prod.fst h
  have hmark : l'.marks[mark.signature]? = l.marks[mark.signature]? := congrArg Prod.snd h
  cases f with
  | unknown => rfl
  | gone =>
    have hremoved : (l'.orphan mark.signature mark.slot).1 =
        (l.orphan mark.signature mark.slot).1 := by
      unfold Ledger.orphan
      rw [hmark]
      split
      · simp only [Std.ExtTreeMap.mem_iff_isSome_getElem?, hrow]
      · rfl
    simp only [Finding.count, hremoved]
  | found row slot => simp only [Finding.count, hrow]

/-- Counts of two findings commute. -/
theorem Finding.count_comm (report : CycleReport) :
    f'.count l mark' (f.count l mark report) = f.count l mark (f'.count l mark' report) := by
  cases f <;> cases f' <;> simp only [Finding.count] <;> (repeat' split) <;> rfl

variable {resolved resolved' : List Resolved}

/-- If no signature is resolved twice, each finding is counted as if it came first. -/
theorem countAll_eq_foldl (hof : ∀ x ∈ resolved, (r.finding x.verdict).Of x.mark.signature)
    (hnodup : (resolved.map fun x => x.mark.signature).Nodup) (report : CycleReport) :
    r.countAll l report resolved =
      resolved.foldl (fun report x => (r.finding x.verdict).count l x.mark report) report := by
  induction resolved generalizing l report with
  | nil => rfl
  | cons first rest ih =>
    rw [List.map_cons, List.nodup_cons] at hnodup
    rw [countAll, ih (fun x hx => hof x (List.mem_cons_of_mem first hx)) hnodup.2,
      List.foldl_cons]
    refine List.foldl_ext _ _ _ fun report x hx => Finding.count_congr ?_ report
    refine Finding.standing_settle_of_ne (hof first (List.mem_cons_self ..)) fun hsame => ?_
    exact hnodup.1 (hsame ▸ List.mem_map_of_mem hx)

theorem countAll_perm (hperm : resolved.Perm resolved')
    (hof : ∀ x ∈ resolved, (r.finding x.verdict).Of x.mark.signature)
    (hnodup : (resolved.map fun x => x.mark.signature).Nodup) (report : CycleReport) :
    r.countAll l report resolved = r.countAll l report resolved' := by
  rw [countAll_eq_foldl hof hnodup, countAll_eq_foldl (fun x hx => hof x (hperm.mem_iff.2 hx))
    ((hperm.map _).nodup_iff.1 hnodup)]
  exact hperm.foldl_eq' (fun x _ y _ report => Finding.count_comm report) report

theorem settleAll_perm (hperm : resolved.Perm resolved')
    (hof : ∀ x ∈ resolved, (r.finding x.verdict).Of x.mark.signature)
    (hnodup : (resolved.map fun x => x.mark.signature).Nodup)
    (hmarks : ∀ x ∈ resolved, l.marks[x.mark.signature]? = some x.mark.slot) :
    r.settleAll l resolved = r.settleAll l resolved' := by
  have hof' : ∀ x ∈ resolved', (r.finding x.verdict).Of x.mark.signature :=
    fun x hx => hof x (hperm.mem_iff.2 hx)
  refine Ledger.eq_of_standing (fun S => ?_) ?_ ?_
  · by_cases hresolved : ∃ x ∈ resolved, x.mark.signature = S
    · obtain ⟨x, hx, rfl⟩ := hresolved
      rw [standing_settleAll_of_mem hof hnodup hmarks hx]
      exact (standing_settleAll_of_mem hof' ((hperm.map _).nodup_iff.1 hnodup)
        (fun y hy => hmarks y (hperm.mem_iff.2 hy)) (hperm.mem_iff.1 hx)).symm
    · rw [standing_settleAll_of_forall_ne hof fun x hx hS => hresolved ⟨x, hx, hS⟩]
      exact (standing_settleAll_of_forall_ne hof' fun x hx hS =>
        hresolved ⟨x, hperm.mem_iff.2 hx, hS⟩).symm
  · rw [quarantine_settleAll, quarantine_settleAll]
  · rw [checkpoints_settleAll, checkpoints_settleAll]

variable {w : Replies}

section Turns

variable (canonical : ∀ mark ∈ r.pendingAt w.host l, ∀ tx,
    w.source (.resolve mark.signature) = .ok (.canonical tx) → tx.signature = mark.signature)
variable (turns turns' : Turns)

include canonical

theorem settledBy_congr : r.settledBy w l turns = r.settledBy w l turns' := by
  refine settleAll_perm ((perm_repliedAt turns).trans (perm_repliedAt turns').symm)
    (of_repliedAt canonical) nodup_repliedAt fun x hx => ?_
  obtain ⟨mark, hpending, rfl⟩ := mem_repliedAt.1 hx
  exact ((Ledger.mem_provisionalAfter _).1 hpending).1

theorem reportBy_congr : r.reportBy w l turns = r.reportBy w l turns' := by
  have hperm : (r.repliedAt w l turns).Perm (r.repliedAt w l turns') :=
    (perm_repliedAt turns).trans (perm_repliedAt turns').symm
  have hsurvey : (r.surveyBy w l turns).report = (r.surveyBy w l turns').report := by
    unfold surveyBy surveyFrom Survey.report
    simp only [hperm.length_eq]
  unfold reportBy
  rw [settledBy_congr canonical turns turns', hsurvey,
    countAll_perm hperm (of_repliedAt canonical) nodup_repliedAt]

end Turns

/-- The times at which what is missing is dated do not matter. -/
theorem same_recorded (times times' : Nat → Int) (found : List Transaction) :
    (r.recorded l times found).Same (r.recorded l times' found) where
  rows := rfl
  marks := rfl
  quarantine := Ledger.quarantineAll_congr
    (Sorted.map_undated_commit (Sorted.ofTransactions r.classifier found) times times' none)
    fun _ => rfl

end Reconciler

namespace Reconciliation

open Shared Reconciler

/-- Over a source whose replies, answers and failures, are fixed: cycles that run alone from one
ledger, at whatever times, end with the same result and the same history, in whichever order their
resolutions are asked for and answered. -/
theorem cycles_agree_in_any_order (r : Reconciler) (w : Replies) (l : Ledger)
    (canonical : ∀ mark ∈ r.pendingAt w.host l, ∀ tx,
      w.source (.resolve mark.signature) = .ok (.canonical tx) → tx.signature = mark.signature)
    (turns turns' : Turns) (now' : Int) :
    ∃ result m m',
      w.around.run l (r.cycleIn turns) = (result, m) ∧
      (w.atTime now').around.run l (r.cycleIn turns') = (result, m') ∧
      result.isOk = (w.source .head).isOk ∧ m.Same m' ∧ m.checkpoints = m'.checkpoints := by
  cases hhead : w.source .head with
  | error f =>
    exact ⟨_, l, l, r.headless_cycleIn w l turns hhead,
      r.headless_cycleIn (w.atTime now') l turns' hhead, rfl, ⟨rfl, rfl, fun _ => rfl⟩, rfl⟩
  | ok head =>
    have hreport : r.reportBy (w.atTime now') l turns' = r.reportBy w l turns :=
      (reportBy_congr canonical turns turns').symm
    have hledger : r.cycledBy (w.atTime now') l turns' =
        r.recorded (r.settledBy w l turns) (fun _ => now')
          (r.foundAt w.host (r.settledBy w l turns)) := by
      rw [settledBy_congr canonical turns turns']
      rfl
    have hrun' := r.replied_cycleIn (w.atTime now') l turns' hhead
    rw [hreport, hledger] at hrun'
    exact ⟨_, _, _, r.replied_cycleIn w l turns hhead, hrun', rfl, same_recorded _ _ _, rfl⟩

/-- A source that has lost one transaction, fails for another and has all others in slot ten. -/
def stuttering : Replies where
  source
    | .head => .ok (10 : Slot)
    | .slots _ _ _ => .ok [⟨10, some "b10", none, some 1700000000, [reincluded ⟨"late"⟩]⟩]
    | .resolve S =>
        if S = ⟨"gone"⟩ then .ok .absent
        else if S = ⟨"unsound"⟩ then .error (.sourceUnavailable "busy")
        else .ok (.canonical (reincluded S))
  now := 0

def backwards : Turns :=
  { Turns.inOrder with asked := List.reverse, asked_perm := List.reverse_perm }

/-- Three marks are pending, and each has another reply. -/
theorem backwards_cycle_agrees :
    (assorted.marks.toList.filter (5 < ·.2)).map Prod.fst =
      [soundSignature, ⟨"gone"⟩, ⟨"unsound"⟩] ∧
    ∃ report m m',
      stuttering.around.run assorted
        (Reconciler.cycleIn ⟨⟨["router"], 0, [1]⟩, 5, some ("p", 0)⟩ .inOrder) = (.ok report, m) ∧
      (stuttering.atTime 60).around.run assorted
        (Reconciler.cycleIn ⟨⟨["router"], 0, [1]⟩, 5, some ("p", 0)⟩ backwards) =
          (.ok report, m') ∧ m.Same m' := by
  have canonical : ∀ S tx, stuttering.source (.resolve S) = .ok (.canonical tx) →
      tx.signature = S := by
    intro S tx htx
    simp only [stuttering] at htx
    split at htx
    · cases htx
    · split at htx
      · cases htx
      · cases htx
        rfl
  obtain ⟨result, m, m', hrun, hrun', hok, hsame, -⟩ := cycles_agree_in_any_order
    ⟨⟨["router"], 0, [1]⟩, 5, some ("p", 0)⟩ stuttering assorted
    (fun mark _ => canonical mark.signature) .inOrder backwards 60
  cases result with
  | error f => cases hok
  | ok report => exact ⟨by decide +kernel, report, m, m', hrun, hrun', hsame⟩

end Reconciliation

end RouterHistory
