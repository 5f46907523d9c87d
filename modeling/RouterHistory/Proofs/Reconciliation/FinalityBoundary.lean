import RouterHistory.Proofs.Reconciliation.Outcome
import RouterHistory.Proofs.Store.BatchWrites
import RouterHistory.Proofs.Store.TableSizes

/-!
The boundary of a cycle. Marks far enough below the head are dropped, which makes their rows
final, and each of the others is resolved once. The difference of head and depth stops at zero, so
while the chain is shorter than the finality depth a mark at slot zero is dropped as well, and
what is dropped is never resolved again.
-/
namespace RouterHistory

open Shared

def Shared.Call.resolved (c : Call) : Option Signature :=
  match c.request with
  | .source (.resolve S) => some S
  | _ => none

def Shared.Host.resolutions {α : Type} (host : Host) (l : Ledger) (p : Program α) :
    List Signature :=
  (host.calls l p).filterMap Call.resolved

section Resolutions

variable {α β : Type} (host : Host) (l : Ledger)

theorem Shared.Host.resolutions_bind (p : Program β) (f : β → Program α) :
    host.resolutions l (p >>= f) =
      host.resolutions l p ++
        host.resolutions (host.around.run l p).2 (f (host.around.run l p).1) := by
  unfold Host.resolutions Host.calls
  rw [host.around.notes_bind, List.filterMap_append]

/-- A program that does not resolve. -/
theorem Program.Finishes.resolutions_eq_nil {p : Program α} {post : Ledger → α → Prop}
    (h : p.Finishes host.replies.lone (¬ Reconciler.Resolving ·) post l) :
    host.resolutions l p = [] := by
  refine List.filterMap_eq_nil_iff.2 (h.notes fun l r a hr => ?_)
  cases r with
  | source call =>
    cases call with
    | resolve S => exact absurd (.resolve S) hr
    | _ => rfl
  | _ => rfl

end Resolutions

namespace Reconciler

variable (r : Reconciler) (host : Host) (l : Ledger)

def Deep (slot : Slot) : Prop :=
  slot.toNat + r.finalityDepth.toNat ≤ UInt64.toNat (host.source .head)

instance : DecidablePred (r.Deep host) := fun _ => Nat.decLe _ _

/-- The boundary does not go below slot zero. -/
theorem le_boundaryAt {slot : Slot} : slot ≤ r.boundaryAt host ↔ slot = 0 ∨ r.Deep host slot := by
  have hzero : slot = 0 ↔ slot.toNat = 0 := UInt64.toNat_inj.symm
  unfold boundaryAt Deep
  rw [UInt64.le_iff_toNat_le, Slot.toNat_down, hzero]
  omega

theorem resolutions_resolveAll (marks : List Mark) :
    host.resolutions l (resolveAll marks) = marks.map Mark.signature := by
  induction marks generalizing l with
  | nil => rfl
  | cons mark rest ih =>
    unfold resolveAll
    rw [host.resolutions_bind, host.resolutions_bind, ih]
    exact congrArg _ (List.append_nil _)

theorem resolutions_surveyIn (turns : Turns) :
    host.resolutions l (r.surveyIn turns) =
      (turns.asked (r.pendingAt host l)).map Mark.signature := by
  unfold surveyIn
  change host.resolutions (r.finalized host l)
    (resolveAll (turns.asked (r.pendingAt host l)) >>= _)
    = _
  rw [host.resolutions_bind, resolutions_resolveAll]
  exact List.append_nil _

/-- The second half of a cycle works with the answers that the first half got. -/
theorem resolutions_cycleIn (turns : Turns) :
    host.resolutions l (r.cycleIn turns) =
      (turns.asked (r.pendingAt host l)).map Mark.signature := by
  have hlast : ∀ l s, host.resolutions l (r.conclude s) = [] := fun l s =>
    (conclude_finishes s).resolutions_eq_nil
  unfold cycleIn
  rw [host.resolutions_bind, r.resolutions_surveyIn]
  refine (congrArg _ ?_).trans (List.append_nil _)
  cases (host.around.run l (r.surveyIn turns)).1 with
  | error f => rfl
  | ok s => exact hlast _ s

theorem nodup_resolutions_cycleIn (turns : Turns) :
    (host.resolutions l (r.cycleIn turns)).Nodup := by
  rw [resolutions_cycleIn, ((turns.asked_perm _).map _).nodup_iff]
  exact (r.finalized host l).nodup_provisionalAfter _

theorem mem_resolutions_cycleIn {turns : Turns} {S : Signature} :
    S ∈ host.resolutions l (r.cycleIn turns) ↔
      ∃ slot, l.marks[S]? = some slot ∧ r.boundaryAt host < slot := by
  rw [resolutions_cycleIn, ((turns.asked_perm _).map _).mem_iff, List.mem_map]
  constructor
  · rintro ⟨mark, hpending, rfl⟩
    exact ⟨mark.slot, mem_pendingAt.1 hpending⟩
  · rintro ⟨slot, hmark⟩
    exact ⟨⟨S, slot⟩, mem_pendingAt.2 hmark, rfl⟩

/-- What is applied changes neither the number of the marks that were dropped nor that of the
others. -/
theorem surveyed_countAll (report : CycleReport) (resolved : List Resolved) :
    (r.countAll l report resolved).finalized = report.finalized ∧
      (r.countAll l report resolved).checked = report.checked := by
  induction resolved generalizing l report with
  | nil => exact ⟨rfl, rfl⟩
  | cons x rest ih =>
    obtain ⟨hfinalized, hchecked⟩ := ih ((r.finding x.verdict).settle l x.mark)
      ((r.finding x.verdict).count l x.mark report)
    have hcount : ((r.finding x.verdict).count l x.mark report).finalized = report.finalized ∧
        ((r.finding x.verdict).count l x.mark report).checked = report.checked := by
      cases r.finding x.verdict with
      | unknown => exact ⟨rfl, rfl⟩
      | gone =>
        simp only [Finding.count]
        split <;> exact ⟨rfl, rfl⟩
      | found row slot =>
        simp only [Finding.count]
        split <;> exact ⟨rfl, rfl⟩
    exact ⟨hfinalized.trans hcount.1, hchecked.trans hcount.2⟩

theorem finalized_reportAt (turns : Turns) : (r.reportAt host l turns).finalized =
    (l.marks.filter fun _ slot => slot ≤ r.boundaryAt host).size :=
  (r.surveyed_countAll _ _ _).1.trans (l.finalized_eq_size _)

theorem checked_reportAt (turns : Turns) : (r.reportAt host l turns).checked =
    (l.marks.filter fun _ slot => r.boundaryAt host < slot).size := by
  refine (r.surveyed_countAll _ _ _).2.trans ?_
  change (r.repliedAt host.replies l turns).length = _
  rw [(perm_repliedAt turns).length_eq, List.length_map]
  exact l.length_provisionalAfter_finalizeThrough _

end Reconciler

namespace Reconciliation

open Reconciler

/-- A cycle from `l` to `l'` parts the marks of `l`. The ripe ones are dropped before the others
are read, and each of the others is resolved once. -/
structure Parts (r : Reconciler) (host : Host) (turns : Turns) (ripe : Slot → Prop)
    [DecidablePred ripe] (l : Ledger) (report : CycleReport) (l' : Ledger) : Prop where
  /-- Of each signature, the ledger in which the others are read has the row, and the mark if it
  is not ripe. -/
  dropped : ∃ boundary finalized pending rest, ∃ m : Ledger,
    host.calls l (r.cycleIn turns) =
      ⟨.source .head, .ok (host.source .head), l⟩ ::
      ⟨.store (.finalizeThrough boundary), .ok finalized, l⟩ ::
      ⟨.store (.provisionalAfter boundary), .ok pending, m⟩ :: rest ∧
    ∀ S, m.standing S = (l.rows[S]?, l.marks[S]?.filter (¬ ripe ·))
  finalized : report.finalized = (l.marks.filter fun _ slot => ripe slot).size
  checked : report.checked = (l.marks.filter fun _ slot => ¬ ripe slot).size
  resolved : ∀ S, S ∈ host.resolutions l (r.cycleIn turns) ↔
    ∃ slot, l.marks[S]? = some slot ∧ ¬ ripe slot
  once : (host.resolutions l (r.cycleIn turns)).Nodup
  final : (∀ S tx, host.source (.resolve S) = .canonical tx → tx.signature = S) →
    ∀ S slot, l.marks[S]? = some slot → S ∈ l.rows → (l'.lifecycle S = .final ↔ ripe slot)

variable {r : Reconciler} {host : Host} {turns : Turns} {l : Ledger} {S : Signature} {slot : Slot}

/-- What records rows makes none of them final. -/
theorem not_final_recorded {times : Nat → Int} {found : List Transaction}
    (h : l.lifecycle S ≠ .final) : (r.recorded l times found).lifecycle S ≠ .final := by
  intro hfinal
  obtain ⟨row, hstanding⟩ := lifecycle_eq_final_iff.1 hfinal
  have hwritten : (l.written (Sorted.ofTransactions r.classifier found).entries).standing S =
      (some row, none) := hstanding
  rw [Ledger.standing_written] at hwritten
  rw [foldl_place_of_unmarked (congrArg Prod.snd hwritten)] at hwritten
  exact h (lifecycle_eq_final_iff.2 ⟨row, hwritten⟩)

/-- What is pending is not final after the cycle, whatever came of it. -/
theorem not_final_of_pending
    (canonical : ∀ S tx, host.source (.resolve S) = .canonical tx → tx.signature = S)
    (hmark : l.marks[S]? = some slot) (habove : r.boundaryAt host < slot) :
    (r.cycledAt host l turns).lifecycle S ≠ .final := by
  refine not_final_recorded fun hfinal => ?_
  obtain ⟨row, hfinal⟩ := lifecycle_eq_final_iff.1 hfinal
  have hstanding := (standing_settledAt_of_pending canonical hmark habove).symm.trans hfinal
  cases hfinding : r.finding (.ok (host.source (.resolve S))) with
  | unknown =>
    rw [hfinding] at hstanding
    exact absurd (hmark.symm.trans (congrArg Prod.snd hstanding)) (Option.some_ne_none _)
  | gone =>
    rw [hfinding] at hstanding
    cases hstanding
  | found row slot =>
    rw [hfinding] at hstanding
    cases hstanding

theorem final_cycledAt_iff
    (canonical : ∀ S tx, host.source (.resolve S) = .canonical tx → tx.signature = S)
    (hmark : l.marks[S]? = some slot) (hrow : S ∈ l.rows) :
    (r.cycledAt host l turns).lifecycle S = .final ↔ slot ≤ r.boundaryAt host := by
  constructor
  · intro hfinal
    rw [← UInt64.not_lt]
    exact fun habove => not_final_of_pending canonical hmark habove hfinal
  · intro hle
    obtain ⟨row, hstored⟩ :=
      Option.isSome_iff_exists.1 (Std.ExtTreeMap.mem_iff_isSome_getElem?.1 hrow)
    refine (final_of_not_pending canonical hstored fun s hs => ?_).1
    rwa [← Option.some.inj (hmark.symm.trans hs)]

/-- A cycle that runs alone and is always answered drops the marks that are the finality depth or
more below the head and those at slot zero, and it resolves each of the others once. -/
theorem cycle_parts_at_boundary (r : Reconciler) (host : Host) (l : Ledger) (turns : Turns) :
    ∃ report l', host.around.run l (r.cycleIn turns) = (.ok report, l') ∧
      Parts r host turns (fun slot => slot = 0 ∨ r.Deep host slot) l report l' := by
  have hripe (slot : Slot) : (slot = 0 ∨ r.Deep host slot) ↔ slot ≤ r.boundaryAt host :=
    (r.le_boundaryAt host).symm
  have hunripe (slot : Slot) : ¬ (slot = 0 ∨ r.Deep host slot) ↔ r.boundaryAt host < slot :=
    (not_congr (hripe slot)).trans UInt64.not_le
  refine ⟨_, _, r.run_cycleIn host l turns, ?_⟩
  constructor
  case dropped =>
    refine ⟨r.boundaryAt host, _, _, _, r.finalized host l, rfl, fun S => ?_⟩
    simp only [hunripe]
    exact l.standing_finalizeThrough _ S
  case finalized =>
    simp only [hripe]
    exact r.finalized_reportAt host l turns
  case checked =>
    simp only [hunripe]
    exact r.checked_reportAt host l turns
  case resolved =>
    intro S
    simp only [hunripe]
    exact r.mem_resolutions_cycleIn host l
  case once => exact r.nodup_resolutions_cycleIn host l turns
  case final =>
    intro canonical S slot hmark hrow
    rw [hripe]
    exact final_cycledAt_iff canonical hmark hrow

/-- A source whose chain is shorter than the finality depth, with all transactions in slot zero.
-/
def young : Host where
  source
    | .head => (3 : Slot)
    | .slots _ _ _ => []
    | .resolve S => .canonical { reincluded S with slot := 0 }
  now := 0

def atZero : Ledger :=
  Ledger.empty.afterCalls 0 [.upsert ⟨⟨soundSignature, .epoch, false, 1⟩, 0⟩]

/-- Slot zero is three slots below the head and the finality depth is five, but the row is made
final and never resolved. -/
theorem zero_is_dropped_early :
    let r : Reconciler := ⟨⟨["router"], 0, [1]⟩, 5, none⟩
    atZero.Attained ∧ atZero.marks[soundSignature]? = some 0 ∧ ¬ r.Deep young 0 ∧
    ∃ report l', young.around.run atZero (r.cycleIn .inOrder) = (.ok report, l') ∧
      l'.lifecycle soundSignature = .final ∧ report.finalized = 1 ∧ report.checked = 0 ∧
      young.resolutions atZero (r.cycleIn .inOrder) = [] ∧
      ¬ Parts r young .inOrder (r.Deep young) atZero report l' := by
  intro r
  have hfinalized : (r.reportAt young atZero .inOrder).finalized = 1 := by decide +kernel
  refine ⟨Ledger.Attained.empty.afterCalls 0 _, by decide +kernel, by decide, _, _,
    r.run_cycleIn young atZero .inOrder, by decide +kernel, hfinalized, by decide +kernel,
    by decide +kernel, fun parts => ?_⟩
  have hnone : (atZero.marks.filter fun _ slot => r.Deep young slot).size = 0 := by decide +kernel
  exact absurd (hfinalized.symm.trans (parts.finalized.trans hnone)) (by decide)

end Reconciliation

end RouterHistory
