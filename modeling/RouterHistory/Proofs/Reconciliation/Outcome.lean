import RouterHistory.Proofs.Reconciliation.RepliedCycle
import RouterHistory.Proofs.Store.Attained

/-!
Where a cycle that runs alone leaves the signatures that were recorded before. Marks at the
boundary and below it are dropped, and each signature above it goes where the source's answer puts
it; what the cycle fetches again afterwards touches none of them.
-/
namespace RouterHistory

open Shared

theorem Ledger.standing_finalizeThrough (l : Ledger) (boundary : Slot) (S : Signature) :
    (l.finalizeThrough boundary).2.standing S =
      (l.rows[S]?, l.marks[S]?.filter (boundary < ·)) := by
  have hmarks : (l.finalizeThrough boundary).2.marks =
      l.marks.filter fun _ slot => boundary < slot := rfl
  unfold standing
  rw [hmarks, Std.ExtTreeMap.getElem?_filter']
  rfl

namespace Reconciler

def Finding.outcome (before : Option Record × Option Slot) : Finding → Option Record × Option Slot
  | .unknown => before
  | .gone => (none, none)
  | .found row slot => (some row, some slot)

def Finding.Of (S : Signature) : Finding → Prop
  | .found row _ => row.signature = S
  | _ => True

variable {l : Ledger} {mark : Mark} {f : Finding} {S : Signature}

theorem Finding.standing_settle_of_ne (hf : f.Of mark.signature) (hne : mark.signature ≠ S) :
    (f.settle l mark).standing S = l.standing S := by
  cases f with
  | unknown => rfl
  | gone =>
    have horphan : ¬ (StoreCall.orphan mark.signature mark.slot).Touches S := hne
    exact (Ledger.standing_answer horphan : (l.answer 0 _).2.standing S = l.standing S)
  | found row slot =>
    have hmove : ¬ (StoreCall.moveMark mark.signature slot).Touches S := hne
    have hwrite : ¬ (StoreCall.upsert ⟨row, slot⟩).Touches S := fun h => hne (hf.symm.trans h)
    simp only [Finding.settle]
    split
    · split
      · rfl
      · exact (Ledger.standing_answer hmove : (l.answer 0 _).2.standing S = l.standing S)
    · exact (Ledger.standing_answer hwrite : (l.answer 0 _).2.standing S = l.standing S)

theorem Finding.standing_settle (hf : f.Of mark.signature)
    (hmark : l.marks[mark.signature]? = some mark.slot) :
    (f.settle l mark).standing mark.signature = f.outcome (l.standing mark.signature) := by
  cases f with
  | unknown => rfl
  | gone =>
    simp only [Finding.settle, Finding.outcome]
    rw [l.orphan_of_eq hmark]
    simp [Ledger.standing]
  | found row slot =>
    simp only [Finding.settle, Finding.outcome]
    split
    · next hrow =>
      have hstanding : l.standing mark.signature = (some row, some mark.slot) := by
        unfold Ledger.standing
        rw [hrow, hmark]
      split
      · next hslot => rw [hstanding, hslot]
      · exact Ledger.standing_moveMark hstanding slot
    · next hrow =>
      have hsame : (Entry.mk row slot).signature = mark.signature := hf
      have hmarks := l.marks_upsert_self ⟨row, slot⟩
      rw [hsame, if_neg fun h => hrow h.1] at hmarks
      unfold Ledger.standing
      rw [hmarks, l.rows_upsert, if_pos hsame]

theorem Finding.regular_settle (h : l.Regular) (f : Finding) (mark : Mark) :
    (f.settle l mark).Regular := by
  cases f with
  | unknown => exact h
  | gone => exact h.orphan mark.signature mark.slot
  | found row slot =>
    simp only [Finding.settle]
    split
    · split
      · exact h
      · exact h.moveMark mark.signature trivial
    · exact h.upsert trivial trivial

theorem regular_settleAll {r : Reconciler} (h : l.Regular) (resolved : List Resolved) :
    (r.settleAll l resolved).Regular := by
  induction resolved generalizing l with
  | nil => exact h
  | cons x rest ih => exact ih (Finding.regular_settle h _ x.mark)

section SettleAll

variable {r : Reconciler} {resolved : List Resolved}

theorem standing_settleAll_of_forall_ne
    (hof : ∀ x ∈ resolved, (r.finding x.verdict).Of x.mark.signature)
    (hne : ∀ x ∈ resolved, x.mark.signature ≠ S) :
    (r.settleAll l resolved).standing S = l.standing S := by
  induction resolved generalizing l with
  | nil => rfl
  | cons x rest ih =>
    have hrest := ih (l := (r.finding x.verdict).settle l x.mark)
      (fun y hy => hof y (List.mem_cons_of_mem x hy)) fun y hy =>
        hne y (List.mem_cons_of_mem x hy)
    exact hrest.trans (Finding.standing_settle_of_ne (hof x (List.mem_cons_self ..))
      (hne x (List.mem_cons_self ..)))

/-- No signature is resolved twice, so each goes where its own answer puts it. -/
theorem standing_settleAll_of_mem
    (hof : ∀ x ∈ resolved, (r.finding x.verdict).Of x.mark.signature)
    (hnodup : (resolved.map fun x => x.mark.signature).Nodup)
    (hmarks : ∀ x ∈ resolved, l.marks[x.mark.signature]? = some x.mark.slot)
    {x : Resolved} (hx : x ∈ resolved) :
    (r.settleAll l resolved).standing x.mark.signature =
      (r.finding x.verdict).outcome (l.standing x.mark.signature) := by
  induction resolved generalizing l with
  | nil => cases hx
  | cons first rest ih =>
    rw [List.map_cons, List.nodup_cons] at hnodup
    have hoff := hof first (List.mem_cons_self ..)
    have hofrest := fun y hy => hof y (List.mem_cons_of_mem first hy)
    have hapart : ∀ y ∈ rest, first.mark.signature ≠ y.mark.signature := fun y hy hsame =>
      hnodup.1 (hsame ▸ List.mem_map_of_mem hy)
    have hkept : ∀ y ∈ rest, ((r.finding first.verdict).settle l first.mark).standing
        y.mark.signature = l.standing y.mark.signature := fun y hy =>
      Finding.standing_settle_of_ne hoff (hapart y hy)
    rcases List.mem_cons.1 hx with rfl | hx
    · refine (standing_settleAll_of_forall_ne hofrest fun y hy => (hapart y hy).symm).trans ?_
      exact Finding.standing_settle hoff (hmarks x (List.mem_cons_self ..))
    · rw [← hkept x hx]
      refine ih hofrest hnodup.2 (fun y hy => ?_) hx
      exact (Prod.mk.inj (hkept y hy)).2.trans (hmarks y (List.mem_cons_of_mem first hy))

end SettleAll

variable {r : Reconciler} {host : Host} {turns : Turns}

theorem mem_pendingAt :
    mark ∈ r.pendingAt host l ↔
      l.marks[mark.signature]? = some mark.slot ∧ r.boundaryAt host < mark.slot := by
  have hmark : (r.finalized host l).marks[mark.signature]? =
      l.marks[mark.signature]?.filter (r.boundaryAt host < ·) :=
    (Prod.mk.inj (l.standing_finalizeThrough (r.boundaryAt host) mark.signature)).2
  unfold pendingAt
  rw [Ledger.mem_provisionalAfter, hmark, Option.filter_eq_some_iff]
  simp only [decide_eq_true_eq]
  tauto

section Replied

variable {w : Replies}

theorem perm_repliedAt (turns : Turns) :
    (r.repliedAt w l turns).Perm ((r.pendingAt w.host l).map (replyFor w)) :=
  turns.perm_map (replyFor w) _

theorem mem_repliedAt {x : Resolved} :
    x ∈ r.repliedAt w l turns ↔ ∃ mark ∈ r.pendingAt w.host l, replyFor w mark = x := by
  rw [(perm_repliedAt turns).mem_iff, List.mem_map]

theorem nodup_repliedAt :
    ((r.repliedAt w l turns).map fun x => x.mark.signature).Nodup := by
  rw [((perm_repliedAt turns).map _).nodup_iff, List.map_map]
  exact (r.finalized w.host l).nodup_provisionalAfter _

/-- What is found out for a signature is about it, if the answer is. -/
theorem of_finding {verdict : Except Failure Verdict}
    (canonical : ∀ tx, verdict = .ok (.canonical tx) → tx.signature = S) :
    (r.finding verdict).Of S := by
  unfold finding
  split
  · trivial
  · trivial
  · next tx =>
    split
    · trivial
    · next row hrow => exact (Classifier.signature_of_classify hrow).trans (canonical tx rfl)

theorem of_repliedAt (canonical : ∀ mark ∈ r.pendingAt w.host l, ∀ tx,
    w.source (.resolve mark.signature) = .ok (.canonical tx) → tx.signature = mark.signature) :
    ∀ x ∈ r.repliedAt w l turns, (r.finding x.verdict).Of x.mark.signature := by
  intro x hx
  obtain ⟨mark, hpending, rfl⟩ := mem_repliedAt.1 hx
  exact of_finding (canonical mark hpending)

end Replied

/-- The answers of a host are about the signatures that were asked for. -/
theorem of_answers
    (canonical : ∀ S tx, host.source (.resolve S) = .canonical tx → tx.signature = S) :
    ∀ x ∈ r.repliedAt host.replies l turns, (r.finding x.verdict).Of x.mark.signature :=
  of_repliedAt fun mark _ tx htx => canonical mark.signature tx (Except.ok.inj htx)

theorem standing_settledAt_of_pending
    (canonical : ∀ S tx, host.source (.resolve S) = .canonical tx → tx.signature = S) {s : Slot}
    (hmark : l.marks[S]? = some s) (habove : r.boundaryAt host < s) :
    (r.settledAt host l turns).standing S =
      (r.finding (.ok (host.source (.resolve S)))).outcome (l.standing S) := by
  have hfinalized : (r.finalized host l).standing S = l.standing S := by
    unfold finalized
    rw [l.standing_finalizeThrough, hmark, Option.filter_some, if_pos (by simpa using habove)]
    unfold Ledger.standing
    rw [hmark]
  have hpending : replyFor host.replies ⟨S, s⟩ ∈ r.repliedAt host.replies l turns :=
    mem_repliedAt.2 ⟨⟨S, s⟩, mem_pendingAt.2 ⟨hmark, habove⟩, rfl⟩
  rw [← hfinalized]
  refine standing_settleAll_of_mem (of_answers canonical) nodup_repliedAt ?_ hpending
  intro x hx
  obtain ⟨mark, hmem, rfl⟩ := mem_repliedAt.1 hx
  exact ((Ledger.mem_provisionalAfter _).1 hmem).1

theorem standing_settledAt_of_not_pending
    (canonical : ∀ S tx, host.source (.resolve S) = .canonical tx → tx.signature = S)
    (hpending : ∀ s, l.marks[S]? = some s → s ≤ r.boundaryAt host) :
    (r.settledAt host l turns).standing S = (l.rows[S]?, none) := by
  have hother : ∀ x ∈ r.repliedAt host.replies l turns, x.mark.signature ≠ S := by
    intro x hx hsame
    obtain ⟨mark, hmem, rfl⟩ := mem_repliedAt.1 hx
    obtain ⟨hmark, habove⟩ := mem_pendingAt.1 hmem
    exact absurd habove (UInt64.not_lt.2 (hpending _ (hsame ▸ hmark)))
  refine (standing_settleAll_of_forall_ne (of_answers canonical) hother).trans ?_
  refine (l.standing_finalizeThrough (r.boundaryAt host) S).trans ?_
  cases hmark : l.marks[S]? with
  | none => rfl
  | some s =>
    rw [Option.filter_some, if_neg (by simpa using UInt64.not_lt.2 (hpending s hmark))]

theorem mem_missing {known : List Signature} {txs : List Transaction} {tx : Transaction} :
    tx ∈ r.missing l known txs ↔ tx ∈ txs ∧ r.classifier.isRouterTransaction tx ∧
      tx.signature ∉ known ∧ l.lifecycle tx.signature = .unseen := by
  simp [missing]

theorem standing_recorded_of_forall_ne {times : Nat → Int} {found : List Transaction}
    (hne : ∀ tx ∈ found, ∀ row, r.classifier.classify tx = .ok row → tx.signature ≠ S) :
    (r.recorded l times found).standing S = l.standing S := by
  refine (Ledger.standing_written_of_forall_ne fun e he => ?_ :
    (l.written (Sorted.ofTransactions r.classifier found).entries).standing S = l.standing S)
  obtain ⟨tx, htx, row, hrow, rfl⟩ := Sorted.mem_entries.1 he
  have hsame : row.signature = tx.signature := Classifier.signature_of_classify hrow
  exact fun h => hne tx htx row hrow (hsame.symm.trans h)

end Reconciler

namespace Reconciliation

open Reconciler

variable {r : Reconciler} {host : Host} {turns : Turns} {l : Ledger} {S : Signature}

theorem lifecycle_eq_final_iff :
    l.lifecycle S = .final ↔ ∃ row, l.standing S = (some row, none) := by
  simp only [Ledger.lifecycle, Ledger.standing, Std.ExtTreeMap.mem_iff_isSome_getElem?]
  cases l.marks[S]? <;> cases l.rows[S]? <;> simp

/-- What is recorded in some way is not missing. -/
theorem standing_cycledBy_of_recorded {w : Replies} {row : Option Record} {slot : Option Slot}
    (hstanding : (r.settledBy w l turns).standing S = (row, slot))
    (hsome : row ≠ none ∨ slot ≠ none) :
    (r.cycledBy w l turns).standing S = (row, slot) := by
  rw [← hstanding]
  refine standing_recorded_of_forall_ne fun tx htx _ _ hsame => ?_
  have hunseen := (mem_missing.1 htx).2.2.2
  rw [hsame, Ledger.lifecycle_eq_unseen, Std.ExtTreeMap.mem_iff_isSome_getElem?,
    Std.ExtTreeMap.mem_iff_isSome_getElem?] at hunseen
  obtain ⟨hrow, hslot⟩ := Prod.mk.inj hstanding
  simp [hrow, hslot] at hunseen
  tauto

/-- A row that is not pending is final afterwards. -/
theorem final_of_not_pending
    (canonical : ∀ S tx, host.source (.resolve S) = .canonical tx → tx.signature = S)
    {row : Record} (hrow : l.rows[S]? = some row)
    (hpending : ∀ s, l.marks[S]? = some s → s ≤ r.boundaryAt host) :
    (r.cycledAt host l turns).lifecycle S = .final ∧
      (r.cycledAt host l turns).rows[S]? = l.rows[S]? := by
  have hsettled : (r.settledAt host l turns).standing S = (some row, none) :=
    hrow ▸ standing_settledAt_of_not_pending canonical hpending
  have hcycled := standing_cycledBy_of_recorded hsettled (.inl (by simp))
  exact ⟨lifecycle_eq_final_iff.2 ⟨row, hcycled⟩, (Prod.mk.inj hcycled).1.trans hrow.symm⟩

structure Settles (r : Reconciler) (host : Host) (l l' : Ledger) : Prop where
  deep : ∀ S s, l.marks[S]? = some s → s ≤ r.boundaryAt host →
    l'.lifecycle S = .final ∧ l'.rows[S]? = l.rows[S]?
  absent : ∀ S s, l.marks[S]? = some s → r.boundaryAt host < s →
    host.source (.resolve S) = .absent → l'.standing S = (none, none)
  classified : ∀ S s tx row, l.marks[S]? = some s → r.boundaryAt host < s →
    host.source (.resolve S) = .canonical tx → r.classifier.classify tx = .ok row →
      l'.standing S = (some row, some tx.slot)
  rejected : ∀ S s tx rejection, l.marks[S]? = some s → r.boundaryAt host < s →
    host.source (.resolve S) = .canonical tx → r.classifier.classify tx = .error rejection →
      l'.standing S = l.standing S
  final : ∀ S, l.lifecycle S = .final → l'.lifecycle S = .final ∧ l'.rows[S]? = l.rows[S]?

/-- A cycle that runs alone over a source with fixed answers ends well, and each signature that
was recorded before stands where the boundary and the answer for it put it. -/
theorem cycle_settles_recorded (r : Reconciler) (host : Host) (l : Ledger) (turns : Turns)
    (marked : ∀ S : Signature, S ∈ l.marks → S ∈ l.rows)
    (canonical : ∀ S tx, host.source (.resolve S) = .canonical tx → tx.signature = S)
    (undelivered : ∀ S, host.source (.resolve S) = .absent →
      ∀ tx ∈ r.refetched host l, tx.signature ≠ S) :
    ∃ report l', host.around.run l (r.cycleIn turns) = (.ok report, l') ∧
    Settles r host l l' := by
  refine ⟨_, _, r.run_cycleIn host l turns, ?_⟩
  constructor
  case deep =>
    intro S s hmark hle
    have hmem : S ∈ l.rows :=
      marked S (by rw [Std.ExtTreeMap.mem_iff_isSome_getElem?, hmark]; rfl)
    obtain ⟨row, hrow⟩ :=
      Option.isSome_iff_exists.1 (Std.ExtTreeMap.mem_iff_isSome_getElem?.1 hmem)
    refine final_of_not_pending canonical hrow fun s' hs' => ?_
    rw [← Option.some.inj (hmark.symm.trans hs')]
    exact hle
  case absent =>
    intro S s hmark habove hanswer
    have hsettled : (r.settledAt host l turns).standing S = _ :=
      standing_settledAt_of_pending canonical hmark habove
    rw [hanswer] at hsettled
    refine (standing_recorded_of_forall_ne fun tx htx _ _ => ?_).trans hsettled
    have hfetched : tx ∈ r.refetched host l :=
      r.refetched_settledBy host.replies l turns ▸ (mem_missing.1 htx).1
    exact undelivered S hanswer tx hfetched
  case classified =>
    intro S s tx row hmark habove hanswer hrow
    have hsettled : (r.settledAt host l turns).standing S = _ :=
      standing_settledAt_of_pending canonical hmark habove
    simp only [hanswer, finding, hrow, Finding.outcome] at hsettled
    exact standing_cycledBy_of_recorded hsettled (.inl (by simp))
  case rejected =>
    intro S s tx rejection hmark habove hanswer hrow
    have hsettled : (r.settledAt host l turns).standing S = _ :=
      standing_settledAt_of_pending canonical hmark habove
    simp only [hanswer, finding, hrow, Finding.outcome] at hsettled
    exact standing_cycledBy_of_recorded hsettled (.inr (by simp [hmark]))
  case final =>
    intro S hfinal
    obtain ⟨row, hstanding⟩ := lifecycle_eq_final_iff.1 hfinal
    obtain ⟨hrow, hmark⟩ := Prod.mk.inj hstanding
    exact final_of_not_pending canonical hrow fun s hs => by simp [hmark] at hs

def reincluded (S : Signature) : Transaction :=
  ⟨S, 10, some 1700000000, none, [⟨"router", "2"⟩], []⟩

/-- A source that has lost one transaction and has all others in slot ten. -/
def reincluding : Host where
  source
    | .head => (10 : Slot)
    | .slots _ _ _ => [⟨10, some "b10", none, some 1700000000, [reincluded soundSignature]⟩]
    | .resolve S => if S = ⟨"gone"⟩ then .absent else .canonical (reincluded S)
  now := 0

/-- A final row, a row at slot one, and three rows at slot nine. -/
def assorted : Ledger :=
  let entry (S : Signature) (slot : Slot) : Entry := ⟨⟨S, .epoch, false, 1⟩, slot⟩
  Ledger.empty.afterCalls 0 [.start "p" 0, .upsert (entry ⟨"final"⟩ 0), .finalizeThrough 0,
    .upsertAll [entry ⟨"deep"⟩ 1, entry ⟨"gone"⟩ 9, entry soundSignature 9, entry ⟨"unsound"⟩ 9],
    .advance ⟨"p", 0, 10⟩]

theorem assorted_is_settled :
    ∃ report l' row,
      reincluding.around.run assorted
        (Reconciler.cycleIn ⟨⟨["router"], 0, [1]⟩, 5, some ("p", 0)⟩ .inOrder) =
          (.ok report, l') ∧
      l'.lifecycle ⟨"final"⟩ = .final ∧ l'.lifecycle ⟨"deep"⟩ = .final ∧
      l'.standing ⟨"gone"⟩ = (none, none) ∧
      l'.standing soundSignature = (some row, some 10) ∧ row.isSuccess = true ∧
      l'.standing ⟨"unsound"⟩ = assorted.standing ⟨"unsound"⟩ := by
  let r : Reconciler := ⟨⟨["router"], 0, [1]⟩, 5, some ("p", 0)⟩
  have hkept : ∀ S, S ≠ ⟨"gone"⟩ →
      reincluding.source (.resolve S) = .canonical (reincluded S) := fun S h => if_neg h
  have hgone : reincluding.source (.resolve ⟨"gone"⟩) = .absent := rfl
  have canonical : ∀ S tx, reincluding.source (.resolve S) = .canonical tx →
      tx.signature = S := by
    intro S tx htx
    by_cases hS : S = ⟨"gone"⟩
    · rw [hS, hgone] at htx
      cases htx
    · rw [hkept S hS] at htx
      cases htx
      rfl
  have hfetched : (r.refetched reincluding assorted).map Transaction.signature =
      [soundSignature] := by decide +kernel
  have undelivered : ∀ S, reincluding.source (.resolve S) = .absent →
      ∀ tx ∈ r.refetched reincluding assorted, tx.signature ≠ S := by
    intro S habsent tx htx hsame
    have hS : S = soundSignature := by
      have hmem := List.mem_map_of_mem (f := Transaction.signature) htx
      rw [hfetched, List.mem_singleton, hsame] at hmem
      exact hmem
    rw [hS, hkept _ (by decide)] at habsent
    cases habsent
  obtain ⟨report, l', hrun, settles⟩ := cycle_settles_recorded r reincluding assorted .inOrder
    (Ledger.Attained.empty.afterCalls 0 _).regular.marked canonical undelivered
  have hrow : r.classifier.classify (reincluded soundSignature) =
      .ok ⟨soundSignature, ⟨1700000000, 0, by decide, by decide⟩, true, 1⟩ := by decide +kernel
  have hunsound : r.classifier.classify (reincluded ⟨"unsound"⟩) =
      .error .signatureMalformed := by
    decide +kernel
  exact ⟨report, l', _, hrun, (settles.final ⟨"final"⟩ (by decide +kernel)).1,
    (settles.deep ⟨"deep"⟩ 1 (by decide +kernel) (by decide)).1,
    settles.absent ⟨"gone"⟩ 9 (by decide +kernel) (by decide) hgone,
    settles.classified soundSignature 9 _ _ (by decide +kernel) (by decide) (hkept _ (by decide))
      hrow, rfl,
    settles.rejected ⟨"unsound"⟩ 9 _ _ (by decide +kernel) (by decide) (hkept _ (by decide))
      hunsound⟩

end Reconciliation

end RouterHistory
