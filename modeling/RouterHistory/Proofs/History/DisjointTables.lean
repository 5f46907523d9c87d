import RouterHistory.Proofs.Reconciliation.Recovery
import RouterHistory.Proofs.Shared.Sequence

/-!
Whether a signature may be in the history and in quarantine at once. Reconcile cycles look at both
tables before they write and never bring that about. A batch step looks at neither, so the tables
stay disjoint exactly as long as each batch agrees with what the ledger has when it is stored.
-/
namespace RouterHistory

/-- A batch that has no row for what is in quarantine and turns down nothing that has a row. -/
structure Commit.Agrees (batch : Commit) (l : Ledger) : Prop where
  entries : ∀ e ∈ batch.entries, e.signature ∉ l.quarantine
  quarantined : ∀ q ∈ batch.quarantined, q.signature ∉ l.rows

namespace Ledger

def Disjoint (l : Ledger) : Prop := ∀ S : Signature, S ∈ l.rows → S ∉ l.quarantine

variable {l l' : Ledger}

theorem Disjoint.mono (h : l.Disjoint) (hrows : ∀ S : Signature, S ∈ l'.rows → S ∈ l.rows)
    (hquarantine : l'.quarantine = l.quarantine) : l'.Disjoint := by
  intro S hS
  rw [hquarantine]
  exact h S (hrows S hS)

theorem Disjoint.finalizeThrough (h : l.Disjoint) (boundary : Slot) :
    (l.finalizeThrough boundary).2.Disjoint := h

theorem Disjoint.moveMark (h : l.Disjoint) (S : Signature) (slot : Slot) :
    (l.moveMark S slot).Disjoint := by
  refine h.mono (fun T hT => ?_) (l.quarantine_moveMark S slot)
  rwa [rows_moveMark] at hT

theorem Disjoint.orphan (h : l.Disjoint) (S : Signature) (slot : Slot) :
    (l.orphan S slot).2.Disjoint := by
  by_cases hmark : l.marks[S]? = some slot
  · rw [l.orphan_of_eq hmark]
    exact fun T hT => h T (Std.ExtTreeMap.mem_of_mem_erase hT)
  · rwa [l.orphan_of_ne hmark]

/-- Writing the row of a signature that has one. -/
theorem Disjoint.upsert (h : l.Disjoint) {e : Entry} (present : e.signature ∈ l.rows) :
    (l.upsert e).2.Disjoint := by
  refine h.mono (fun S hS => ?_) (l.quarantine_upsert e)
  rcases (l.mem_rows_upsert e).1 hS with rfl | hold
  · exact present
  · exact hold

theorem mem_rows_written_iff {entries : List Entry} {S : Signature} :
    S ∈ (l.written entries).rows ↔ S ∈ l.rows ∨ ∃ e ∈ entries, e.signature = S := by
  induction entries generalizing l with
  | nil => simp [written]
  | cons e rest ih =>
    have hrest : S ∈ (l.written (e :: rest)).rows ↔ _ := @ih (l.upsert e).2
    rw [hrest, mem_rows_upsert]
    simp only [List.mem_cons, exists_eq_or_imp]
    tauto

/-- A batch that does not both store and turn down a signature keeps the tables disjoint if and
only if it agrees with them. -/
theorem Disjoint.commit_iff (h : l.Disjoint) {now : Int} {batch : Commit}
    {next : Option Checkpoint} (possible : l.checkMove now batch.move = .ok next)
    (apart : ∀ e ∈ batch.entries, ∀ q ∈ batch.quarantined, e.signature ≠ q.signature) :
    (l.commit now batch).2.Disjoint ↔ batch.Agrees l := by
  have hmem : ∀ S, S ∈ (l.commit now batch).2.rows ↔
      S ∈ l.rows ∨ ∃ e ∈ batch.entries, e.signature = S := fun S => by
    rw [l.rows_commit possible, mem_rows_written_iff]
  have hmem' : ∀ S, S ∈ (l.commit now batch).2.quarantine ↔
      S ∈ l.quarantine ∨ ∃ q ∈ batch.quarantined, q.signature = S := fun S => by
    rw [l.quarantine_commit possible, mem_quarantineAll]
  constructor
  · intro hdisjoint
    refine ⟨fun e he hlisted => ?_, fun q hq hpresent => ?_⟩
    · exact hdisjoint _ ((hmem _).2 (.inr ⟨e, he, rfl⟩)) ((hmem' _).2 (.inl hlisted))
    · exact hdisjoint _ ((hmem _).2 (.inl hpresent)) ((hmem' _).2 (.inr ⟨q, hq, rfl⟩))
  · intro hagrees S hrow hlisted
    rcases (hmem S).1 hrow with hold | ⟨e, he, rfl⟩
    · rcases (hmem' S).1 hlisted with hold' | ⟨q, hq, rfl⟩
      · exact h S hold hold'
      · exact hagrees.quarantined q hq hold
    · rcases (hmem' _).1 hlisted with hold' | ⟨q, hq, hsame⟩
      · exact hagrees.entries e he hold'
      · exact apart e he q hq hsame.symm

/-- A commit takes nothing out of either table. -/
theorem disjoint_of_commit {now : Int} {batch : Commit} (h : (l.commit now batch).2.Disjoint) :
    l.Disjoint := by
  cases hmove : l.checkMove now batch.move with
  | error f => rwa [l.commit_of_error hmove] at h
  | ok next =>
    intro S hrow hlisted
    refine h S (l.mem_rows_commit hrow now batch) ?_
    rw [l.quarantine_commit hmove, mem_quarantineAll]
    exact .inl hlisted

end Ledger

/-- A transaction is classified or turned down, not both. -/
theorem Sorted.apart_commit {c : Classifier} {txs : List Transaction}
    (nodup : (txs.map Transaction.signature).Nodup) (times : Nat → Int) (move : Option Move) :
    ∀ e ∈ ((ofTransactions c txs).commit times move).entries,
      ∀ q ∈ ((ofTransactions c txs).commit times move).quarantined,
        e.signature ≠ q.signature := by
  intro e he q hq hsame
  obtain ⟨tx, htx, row, hrow, rfl⟩ := mem_entries.1 he
  obtain ⟨tx', htx', rejection, hrejected, now, rfl⟩ := mem_quarantined hq
  have hsignature : tx.signature = tx'.signature :=
    (Classifier.signature_of_classify hrow).symm.trans hsame
  obtain rfl := List.inj_on_of_nodup_map nodup htx htx' hsignature
  rw [hrow] at hrejected
  cases hrejected

namespace History

open Shared

variable {site : Site} {past : List Call} {l : Ledger}

/-- If the call stored a batch, the batch agreed with the ledger. -/
def Consistent (call : Call) : Prop :=
  ∀ batch receipt l, call = ⟨.store (.commit batch), Except.ok receipt, l⟩ →
    batch.move ≠ none → batch.Agrees l

theorem consistent_of_ne {r : Request} {a : r.Answer}
    (h : ∀ batch, batch.move ≠ none → r ≠ .store (.commit batch)) : Consistent ⟨r, a, l⟩ := by
  intro batch receipt l' hcall hmove
  cases hcall
  exact absurd rfl (h batch hmove)

theorem consistent_of_error {batch : Commit} {f : Failure} :
    Consistent ⟨.store (.commit batch), Except.error f, l⟩ := nofun

/-- A batch that is answered is stored or not possible. -/
theorem disjoint_iff_of_commit {now : Int} {batch : Commit} (moves : batch.move ≠ none)
    (apart : ∀ e ∈ batch.entries, ∀ q ∈ batch.quarantined, e.signature ≠ q.signature) :
    (l.answer now (.commit batch)).2.Disjoint ↔
      l.Disjoint ∧ Consistent ⟨.store (.commit batch), (l.answer now (.commit batch)).1, l⟩ := by
  cases hmove : l.checkMove now batch.move with
  | error f =>
    have hfailed : l.answer now (.commit batch) = (.error f, l) := l.commit_eq_of_error hmove
    rw [hfailed]
    exact (and_iff_left consistent_of_error).symm
  | ok next =>
    obtain ⟨tally, hcommit⟩ := l.exists_receipt hmove
    have hstored : l.answer now (.commit batch) =
        (.ok ⟨tally, next⟩, (l.commit now batch).2) := hcommit
    rw [hstored]
    constructor
    · intro hafter
      have hbefore := Ledger.disjoint_of_commit hafter
      refine ⟨hbefore, fun batch' receipt' l' hcall _ => ?_⟩
      cases hcall
      exact (hbefore.commit_iff hmove apart).1 hafter
    · intro h
      obtain ⟨hbefore, hconsistent⟩ := h
      exact (hbefore.commit_iff hmove apart).2 (hconsistent batch _ l rfl moves)

/-- A request of a step keeps the tables disjoint, unless it stores a batch that disagrees with
them. None makes them disjoint again. -/
theorem disjoint_iff_of_request (lossless : ¬ site.lossy) {s : Settings} {r : Request}
    {a : r.Answer} {l' : Ledger} (inOrder : Pipeline.StepRule s past r)
    (answered : Answered site l r a l') :
    l'.Disjoint ↔ l.Disjoint ∧ Consistent ⟨r, a, l⟩ := by
  cases inOrder with
  | commit times fetched =>
    cases answered with
    | store now =>
      exact disjoint_iff_of_commit nofun
        (Sorted.apart_commit Settings.nodup_transactionsOf times _)
    | storeFailed f _ => exact (and_iff_left consistent_of_error).symm
    | receiptLost _ _ lossy => exact absurd lossy lossless
  | start =>
    have hsame : l'.Disjoint ↔ l.Disjoint := by
      rcases answered.ledger with rfl | ⟨now, call, hcall, rfl⟩
      · rfl
      · cases hcall
        rfl
    rw [hsame]
    exact (and_iff_left (consistent_of_ne (by simp))).symm
  | _ =>
    rcases answered.ledger with rfl | ⟨now, call, hcall, -⟩
    · exact (and_iff_left (consistent_of_ne (by simp))).symm
    · cases hcall

theorem step_ends_disjoint_iff (lossless : ¬ site.lossy) {p : Pipeline} {s : Settings}
    (hp : p.Fits s) (disjoint : l.Disjoint) :
    p.step.Ends site (fun q l' _ => l'.Disjoint ↔ ∀ call ∈ q, Consistent call) [] l := by
  refine (Pipeline.step_follows hp).ends
    (fun q l' => l'.Disjoint ↔ ∀ call ∈ q, Consistent call) (by simpa using disjoint) ?_
  intro q l r a l' ih inOrder answered
  rw [disjoint_iff_of_request lossless inOrder answered, ih, List.forall_mem_cons, and_comm]

/-- What a cycle knows before it applies an answer: the signature has a row, and a transaction
that was found is one of this signature. -/
structure Settled (l : Ledger) (x : Resolved) : Prop where
  present : x.mark.signature ∈ l.rows
  own : ∀ tx, x.verdict = .ok (.canonical tx) → tx.signature = x.mark.signature

variable {r : Reconciler}

theorem disjoint_settle (disjoint : l.Disjoint) {x : Resolved} (settled : Settled l x) :
    ((r.finding x.verdict).settle l x.mark).Disjoint := by
  have hown : (r.finding x.verdict).Of x.mark.signature := Reconciler.of_finding settled.own
  cases hfinding : r.finding x.verdict with
  | unknown => exact disjoint
  | gone => exact disjoint.orphan _ _
  | found row slot =>
    rw [hfinding] at hown
    simp only [Reconciler.Finding.settle]
    split
    · split
      · exact disjoint
      · exact disjoint.moveMark _ _
    · refine disjoint.upsert ?_
      change row.signature ∈ l.rows
      rw [(hown : row.signature = _)]
      exact settled.present

/-- The signatures of a survey are distinct, so each still has its row when its turn comes. -/
theorem disjoint_settleAll (disjoint : l.Disjoint) {resolved : List Resolved}
    (settled : ∀ x ∈ resolved, Settled l x)
    (nodup : (resolved.map fun x => x.mark.signature).Nodup) :
    (r.settleAll l resolved).Disjoint := by
  induction resolved generalizing l with
  | nil => exact disjoint
  | cons x rest ih =>
    obtain ⟨hx, hrest⟩ := List.forall_mem_cons.1 settled
    rw [List.map_cons, List.nodup_cons] at nodup
    refine ih (disjoint_settle disjoint hx) (fun y hy => ⟨?_, (hrest y hy).own⟩) nodup.2
    have hother : x.mark.signature ≠ y.mark.signature := fun hsame =>
      nodup.1 (hsame ▸ List.mem_map_of_mem hy)
    have hkept := Reconciler.Finding.standing_settle_of_ne (l := l)
      (Reconciler.of_finding (r := r) hx.own) hother
    have hrow := (hrest y hy).present
    rw [Std.ExtTreeMap.mem_iff_isSome_getElem?] at hrow ⊢
    exact (congrArg Option.isSome (congrArg Prod.fst hkept)).trans hrow

/-- What was missing agrees with both tables. -/
theorem disjoint_recorded (regular : l.Regular) (disjoint : l.Disjoint) {txs : List Transaction}
    (nodup : (txs.map Transaction.signature).Nodup) (times : Nat → Int) :
    (r.recorded l times (r.missing l (Reconciler.known l) txs)).Disjoint := by
  let batch := (Sorted.ofTransactions r.classifier
    (r.missing l (Reconciler.known l) txs)).commit times none
  have hstored : r.recorded l times (r.missing l (Reconciler.known l) txs) =
      (l.commit 0 batch).2 := (l.commit_of_ok (rfl : l.checkMove 0 batch.move = .ok none)).symm
  have hnodup := nodup.sublist
    ((List.filter_sublist : (r.missing l (Reconciler.known l) txs).Sublist txs).map _)
  rw [hstored, disjoint.commit_iff (rfl : l.checkMove 0 batch.move = .ok none)
    (Sorted.apart_commit hnodup times none)]
  constructor
  · intro e he
    obtain ⟨tx, htx, row, hrow, rfl⟩ := Sorted.mem_entries.1 he
    have hsignature : (Entry.mk row tx.slot).signature = tx.signature :=
      Classifier.signature_of_classify hrow
    rw [hsignature, ← Reconciler.mem_known regular]
    exact (Reconciler.mem_missing.1 htx).2.2.1
  · intro q hq
    obtain ⟨tx, htx, rejection, hrejected, now, rfl⟩ := Sorted.mem_quarantined hq
    exact (l.lifecycle_eq_unseen.1 (Reconciler.mem_missing.1 htx).2.2.2).2

theorem disjoint_of_concludes {alone : Lone} {s : Survey} {l' : Ledger}
    {result : Except Failure CycleReport} (h : r.Concludes alone l s l' result)
    (regular : l.Regular) (disjoint : l.Disjoint) (settled : ∀ x ∈ s.resolved, Settled l x)
    (nodup : (s.resolved.map fun x => x.mark.signature).Nodup) : l'.Disjoint := by
  cases h with
  | broken applied f disturbed =>
    exact disjoint_settleAll disjoint (fun x hx => settled x (applied.subset hx))
      (nodup.sublist (applied.sublist.map _))
  | done hsettled refetches shown =>
    subst hsettled
    exact disjoint_recorded (Reconciler.regular_settleAll regular _)
      (disjoint_settleAll disjoint settled nodup) refetches.nodup _

variable (findsOwn : site.FindsOwn) (lossless : ¬ site.lossy)

include findsOwn in
theorem settled_of_answers {turns : Turns} {head : Slot} {resolved : List Resolved}
    (regular : l.Regular)
    (answers : Reconciler.Answers site.lone (turns.asked (r.leftAt l head)) resolved) :
    ∀ x ∈ turns.answered resolved, Settled (r.droppedAt l head) x := by
  intro x hx
  constructor
  · have hmark := (Ledger.mem_provisionalAfter _).1 (answers.pending.1 x hx)
    refine (regular.finalizeThrough (Slot.down head r.finalityDepth)).marked _ ?_
    exact Std.ExtTreeMap.mem_iff_isSome_getElem?.2 (hmark.1 ▸ rfl)
  · intro tx htx
    exact findsOwn _ _ (answers.replies x ((turns.answered_perm resolved).subset hx) _ htx)

include findsOwn lossless in
/-- A cycle keeps the tables disjoint, and it stores no batches. -/
theorem cycleIn_ends_disjoint (turns : Turns) (attained : l.Attained) (disjoint : l.Disjoint) :
    (r.cycleIn turns).Ends site
      (fun q l' _ => l'.Disjoint ∧ ∀ call ∈ q, Consistent call) [] l := by
  have consistent :
      (r.cycleIn turns).Ends site (fun q _ _ => ∀ call ∈ q, Consistent call) [] l := by
    refine (Reconciler.cycleIn_follows turns).ends (fun q _ => ∀ call ∈ q, Consistent call)
      (by simp) fun {q l request a l'} ih inOrder _ => List.forall_mem_cons.2 ⟨?_, ih⟩
    refine consistent_of_ne fun batch moves hbatch => ?_
    subst hbatch
    cases inOrder
    exact moves rfl
  refine Program.Ends.and (Program.ends_imp ((r.cycleIn_finishes turns l).ends lossless) ?_)
    consistent
  intro _ l' result cycles
  cases cycles with
  | stopped surveys =>
    cases surveys with
    | unlisted => exact disjoint.finalizeThrough _
    | _ => exact disjoint
  | concluded surveys concludes =>
    cases surveys with
    | done told answers =>
      exact disjoint_of_concludes concludes (attained.regular.finalizeThrough _)
        (disjoint.finalizeThrough _) (settled_of_answers findsOwn attained.regular answers)
        answers.pending.2

include findsOwn lossless in
theorem Operation.ends_disjoint_iff {op : Operation} (allowed : op.Allowed site)
    (attained : l.Attained) (disjoint : l.Disjoint) :
    op.program.Ends site (fun q l' _ => l'.Disjoint ↔ ∀ call ∈ q, Consistent call) [] l := by
  cases allowed with
  | step _ fits =>
    refine Program.ends_bind (Program.ends_imp (step_ends_disjoint_iff lossless fits disjoint) ?_)
    exact fun q l' _ h => h
  | cycle turns _ =>
    refine Program.ends_bind (Program.ends_imp
      (cycleIn_ends_disjoint findsOwn lossless turns attained disjoint) ?_)
    exact fun q l' _ h => iff_of_true h.1 h.2

include findsOwn lossless in
/-- As long as every batch agreed with the tables when it was stored, no signature is in both of
them after an operation, unless the batch of that operation disagrees. -/
theorem disjoint_iff_batches_agree {earlier : List Call}
    (h : Sequence site earlier past l (.done ())) (agreed : ∀ call ∈ earlier, Consistent call) :
    l.Disjoint ↔ ∀ call ∈ past, Consistent call := by
  refine h.at_end (fun earlier past l => (∀ call ∈ earlier, Consistent call) →
    (l.Disjoint ↔ ∀ call ∈ past, Consistent call)) (fun _ => ?_) ?_ agreed
  · simp [Ledger.Disjoint, Ledger.empty]
  · intro earlier past l op ih attained allowed
    by_cases hbefore : ∀ call ∈ past ++ earlier, Consistent call
    · obtain ⟨hpast, hearlier⟩ := List.forall_mem_append.1 hbefore
      refine Program.ends_imp (Operation.ends_disjoint_iff findsOwn lossless allowed attained
        ((ih hearlier).2 hpast)) ?_
      exact fun q l' _ hiff _ => hiff
    · exact Program.ends_imp (ends_attained attained) fun _ _ _ _ h => absurd h hbefore

section Reincluded

open Reconciliation

def holding (slot : Slot) (time : Option Int) : Host where
  source
    | .head => slot
    | .slots _ _ _ => [⟨slot, some "b", none, time,
        [⟨soundSignature, slot, time, none, [⟨"router", "2"⟩], []⟩]⟩]
    | .resolve _ => Verdict.absent
  now := 0

def resuming : Operation := .step (.ofSettings oneRouter ⟨1, []⟩)

def turnedDown : Ledger := ((holding 1 none).around.run .empty resuming.program).2

def reincluded : Ledger :=
  ((holding 2 (some 1700000000)).around.run turnedDown resuming.program).2

theorem exists_reincluded : ∃ first second,
    Sequence (.withClassifier oneRouter.classifier) [] first turnedDown (.done ()) ∧
    Sequence (.withClassifier oneRouter.classifier) first second reincluded (.done ()) := by
  have suits : ∀ slot time, (holding slot time).Suits (.withClassifier oneRouter.classifier) := by
    intro slot time call
    cases call <;> trivial
  have allowed : resuming.Allowed (.withClassifier oneRouter.classifier) :=
    .step (s := oneRouter) rfl ⟨rfl, rfl, rfl⟩
  obtain ⟨first, hfirst⟩ : ∃ q, Sequence (.withClassifier oneRouter.classifier) [] q turnedDown
      (.done ()) := (Sequence.empty.begins allowed).run (suits 1 none)
  have hbegun := hfirst.begins allowed
  rw [List.append_nil] at hbegun
  obtain ⟨second, hsecond⟩ := hbegun.run (suits 2 (some 1700000000))
  exact ⟨first, second, hfirst, hsecond⟩

/-- The transaction is now in the history, and in quarantine as well. -/
theorem present_reincluded :
    soundSignature ∈ reincluded.rows ∧ soundSignature ∈ reincluded.quarantine := by
  decide +kernel

theorem reincluded_in_both_tables : ∃ earlier past,
    Sequence (.withClassifier oneRouter.classifier) earlier past reincluded (.done ()) ∧
      soundSignature ∈ reincluded.rows ∧ soundSignature ∈ reincluded.quarantine := by
  obtain ⟨first, second, -, hsecond⟩ := exists_reincluded
  exact ⟨first, second, hsecond, present_reincluded⟩

theorem reincluded_batch_disagrees : ∃ first second,
    Sequence (.withClassifier oneRouter.classifier) first second reincluded (.done ()) ∧
      (∀ call ∈ first, Consistent call) ∧ ∃ call ∈ second, ¬ Consistent call := by
  obtain ⟨first, second, hfirst, hsecond⟩ := exists_reincluded
  have findsOwn := Site.findsOwn_withClassifier oneRouter.classifier
  have hdisjoint : turnedDown.Disjoint := by
    have hempty : turnedDown.rows.isEmpty = true := by decide +kernel
    have hnone := Std.ExtTreeMap.eq_empty_iff_forall_not_mem.1
      (Std.ExtTreeMap.isEmpty_iff.1 hempty)
    exact fun S hS => absurd hS (hnone S)
  have hagreed := (disjoint_iff_batches_agree findsOwn id hfirst (by simp)).1 hdisjoint
  have hiff := disjoint_iff_batches_agree findsOwn id hsecond hagreed
  have hboth : ¬ reincluded.Disjoint := fun h =>
    h soundSignature present_reincluded.1 present_reincluded.2
  refine ⟨first, second, hsecond, hagreed, ?_⟩
  simpa using mt hiff.2 hboth

end Reincluded

end History

end RouterHistory
