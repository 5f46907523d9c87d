import RouterHistory.Proofs.Shared.Law
import RouterHistory.Proofs.Shared.Play

/-!
Rows that are removed. However pipelines and cycles share a ledger, and whatever the source
answers, a row goes only with its mark, by a cycle that was told of the mark at the slot where it
still is and then learned that the transaction is gone.
-/
namespace RouterHistory.Reconciliation

open Shared

/-- A worker at a place is about to remove the row of a signature whose mark is at a slot: it runs
a cycle that was told of the mark there and then resolved the signature as absent. -/
def Condemned (σ : State) (i : Nat) (S : Signature) (s : Slot) : Prop :=
  ∃ past next, σ.workers i = some (.cycling past (.ask (.store (.orphan S s)) next)) ∧
    Reconciler.Resolution past ⟨S, s⟩ .absent

variable {site : Site} {σ σ' : State} {i : Nat} {S : Signature}

/-- A request removes a row only by taking away a mark at the slot that it names. -/
theorem Answered.orphan_of_gone {l l' : Ledger} {r : Request} {a : r.Answer}
    (h : Answered site l r a l') (present : S ∈ l.rows) (gone : S ∉ l'.rows) :
    ∃ s, r = .store (.orphan S s) ∧ l.marks[S]? = some s ∧ S ∉ l'.marks := by
  cases h with
  | @store call now =>
    obtain ⟨s, rfl, hmark, hmarks⟩ := l.orphan_of_notMem_rows present gone
    exact ⟨s, rfl, hmark, hmarks⟩
  | @receiptLost batch now reason lossy => exact absurd (l.mem_rows_commit present now batch) gone
  | _ => exact absurd present gone

/-- In a run, whoever removes a row has condemned it. -/
theorem condemned_of_gone {l : Ledger} (reached : Reachable site l σ) (step : Step site σ i σ')
    (present : S ∈ σ.ledger.rows) (gone : S ∉ σ'.ledger.rows) :
    ∃ s, Condemned σ i S s ∧ σ.ledger.marks[S]? = some s ∧ S ∉ σ'.ledger.marks := by
  cases step with
  | joins | cycles | leaves => exact absurd present gone
  | moves busy move =>
    have conducted := reached.conducted busy
    cases move with
    | begins | rests => exact absurd present gone
    | asks answered =>
      obtain ⟨s, rfl, hmark, hmarks⟩ := Answered.orphan_of_gone answered present gone
      cases conducted with
      | stepping allowed recorded follows => cases follows.1
    | @cycleAsks _ _ past _ _ next answered =>
      obtain ⟨s, rfl, hmark, hmarks⟩ := Answered.orphan_of_gone answered present gone
      cases conducted with
      | cycling allowed recorded follows =>
        exact ⟨s, ⟨past, next, busy, follows.1.resolution_of_orphan.1⟩, hmark, hmarks⟩

/-- In every run a row that disappears was condemned at the slot of its mark, and the mark goes
with it. So a final row stays, and so does one whose mark is not where the cycle was told. -/
theorem row_removed_only_if_condemned {l : Ledger} (reached : Reachable site l σ)
    (step : Step site σ i σ') (present : S ∈ σ.ledger.rows) :
    (S ∉ σ'.ledger.rows →
      ∃ s, Condemned σ i S s ∧ σ.ledger.marks[S]? = some s ∧ S ∉ σ'.ledger.marks) ∧
    (σ.ledger.lifecycle S = .final → S ∈ σ'.ledger.rows) ∧
    (∀ past rest, σ.workers i = some (.cycling past rest) →
      (∀ s, Reconciler.Pending past ⟨S, s⟩ → σ.ledger.marks[S]? ≠ some s) →
      S ∈ σ'.ledger.rows) := by
  refine ⟨condemned_of_gone reached step present, fun hfinal => ?_, fun past rest hw hmoved => ?_⟩
  · by_contra gone
    obtain ⟨s, -, hmark, -⟩ := condemned_of_gone reached step present gone
    have hprovisional : S ∈ σ.ledger.marks := by
      rw [Std.ExtTreeMap.mem_iff_isSome_getElem?, hmark]
      rfl
    simp [Ledger.lifecycle, hprovisional] at hfinal
  · by_contra gone
    obtain ⟨s, ⟨past', next, hw', hresolution⟩, hmark, -⟩ :=
      condemned_of_gone reached step present gone
    rw [hw] at hw'
    cases hw'
    obtain ⟨newer, l', older, hpending, rfl⟩ := hresolution
    refine hmoved s (hpending.of_suffix ?_) hmark
    exact (List.suffix_cons _ older).trans (List.suffix_append newer _)

def anywhere : Site := ⟨fun _ _ => True, False, False, fun _ => False, fun _ => True⟩

def barren : Host where
  source
    | .head => (10 : Slot)
    | .slots _ _ _ => ([] : List Delivery)
    | .resolve _ => Verdict.absent
  now := 0

def removing : State :=
  (State.idle (Ledger.empty.put ⟨⟨⟨"a"⟩, ⟨0, 0, by decide, by decide⟩, true, 1⟩, 1⟩)).playAll
    ([(0, .cycle ⟨.empty, 10, none⟩)] ++ List.replicate 4 (0, .goOn barren))

theorem row_removed_by_cycle :
    ∃ s, Condemned removing 0 ⟨"a"⟩ s ∧ removing.ledger.marks[(⟨"a"⟩ : Signature)]? = some s ∧
      (⟨"a"⟩ : Signature) ∉ (removing.play 0 (.goOn barren)).ledger.marks := by
  have suits : (Action.goOn barren).Suits anywhere := fun _ => trivial
  have allowed : (Action.cycle ⟨.empty, 10, none⟩).Suits anywhere := trivial
  have reached : Reachable anywhere _ removing := Reachable.idle.playAll (by
    simp [or_imp, forall_and, suits, allowed])
  have present : (⟨"a"⟩ : Signature) ∈ removing.ledger.rows := by decide +kernel
  have gone : (⟨"a"⟩ : Signature) ∉ (removing.play 0 (.goOn barren)).ledger.rows := by
    decide +kernel
  rcases removing.play_step 0 suits with hsame | step
  · rw [hsame] at gone
    exact absurd present gone
  · exact (row_removed_only_if_condemned reached step present).1 gone

end RouterHistory.Reconciliation
