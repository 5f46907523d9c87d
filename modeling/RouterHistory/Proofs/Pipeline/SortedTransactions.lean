import Mathlib.Data.List.Nodup
import RouterHistory.Pipeline.Reconciler
import RouterHistory.Proofs.Shared.Surroundings
import RouterHistory.Proofs.Shared.Workers
import RouterHistory.Proofs.Store.LedgerWrites

/-!
What sorting transactions comes to. Each transaction ends up in one of the two lists, rows and
rejections keep the signatures of their transactions, and none of them is repeated. Rejections are
dated one by one, so what is stored depends on one reading of the clock for each of them.
-/
namespace RouterHistory

theorem Classifier.signature_of_classify {c : Classifier} {tx : Transaction} {row : Record}
    (h : c.classify tx = .ok row) : row.signature = tx.signature := by
  unfold classify at h
  split at h
  · split at h
    · cases h
    · split at h
      · cases h
      · split at h
        · cases h
        · cases h
          rfl
  · cases h

namespace Sorted

variable {c : Classifier} {txs : List Transaction}

theorem ofTransactions_cons_ok {tx : Transaction} {row : Record} (h : c.classify tx = .ok row) :
    ofTransactions c (tx :: txs) =
      { ofTransactions c txs with
        entries := ⟨row, tx.slot⟩ :: (ofTransactions c txs).entries } := by
  simp [ofTransactions, h]

theorem ofTransactions_cons_error {tx : Transaction} {r : Rejection}
    (h : c.classify tx = .error r) :
    ofTransactions c (tx :: txs) =
      { ofTransactions c txs with rejected := (tx, r) :: (ofTransactions c txs).rejected } := by
  simp [ofTransactions, h]

theorem mem_entries {e : Entry} :
    e ∈ (ofTransactions c txs).entries ↔
      ∃ tx ∈ txs, ∃ row, c.classify tx = .ok row ∧ e = ⟨row, tx.slot⟩ := by
  induction txs with
  | nil => simp [ofTransactions, empty]
  | cons tx rest ih =>
    simp only [List.mem_cons, exists_eq_or_imp]
    cases h : c.classify tx with
    | ok row =>
      rw [ofTransactions_cons_ok h, List.mem_cons, ih]
      simp
    | error r =>
      rw [ofTransactions_cons_error h, ih]
      simp

theorem mem_rejected {tx : Transaction} {r : Rejection} :
    (tx, r) ∈ (ofTransactions c txs).rejected ↔ tx ∈ txs ∧ c.classify tx = .error r := by
  induction txs with
  | nil => simp [ofTransactions, empty]
  | cons first rest ih =>
    rw [List.mem_cons]
    cases h : c.classify first with
    | ok row =>
      rw [ofTransactions_cons_ok h, ih]
      constructor
      · intro hrest
        obtain ⟨hmem, hr⟩ := hrest
        exact ⟨.inr hmem, hr⟩
      · intro hlisted
        obtain ⟨rfl | hmem, hr⟩ := hlisted
        · simp [h] at hr
        · exact ⟨hmem, hr⟩
    | error r' =>
      rw [ofTransactions_cons_error h, List.mem_cons, ih]
      constructor
      · intro hlisted
        rcases hlisted with heq | ⟨hmem, hr⟩
        · cases heq
          exact ⟨.inl rfl, h⟩
        · exact ⟨.inr hmem, hr⟩
      · intro hlisted
        obtain ⟨rfl | hmem, hr⟩ := hlisted
        · rw [h] at hr
          cases hr
          exact .inl rfl
        · exact .inr ⟨hmem, hr⟩

/-- The signatures of the rows are those of some of the transactions, in order. -/
theorem signatures_entries :
    ((ofTransactions c txs).entries.map Entry.signature).Sublist
      (txs.map Transaction.signature) := by
  induction txs with
  | nil => exact List.Sublist.refl []
  | cons tx rest ih =>
    cases h : c.classify tx with
    | ok row =>
      have hsame : (Entry.mk row tx.slot).signature = tx.signature :=
        Classifier.signature_of_classify h
      rw [ofTransactions_cons_ok h, List.map_cons, List.map_cons, hsame]
      exact ih.cons_cons _
    | error r =>
      rw [ofTransactions_cons_error h]
      exact ih.cons _

theorem signatures_rejected :
    ((ofTransactions c txs).rejected.map fun x => x.1.signature).Sublist
      (txs.map Transaction.signature) := by
  induction txs with
  | nil => exact List.Sublist.refl []
  | cons tx rest ih =>
    cases h : c.classify tx with
    | ok row =>
      rw [ofTransactions_cons_ok h]
      exact ih.cons _
    | error r =>
      rw [ofTransactions_cons_error h]
      exact ih.cons_cons _

theorem nodup_entries (h : (txs.map Transaction.signature).Nodup) :
    ((ofTransactions c txs).entries.map Entry.signature).Nodup := h.sublist signatures_entries

/-- Rejections with the times at which they were turned down, by their place among them. -/
def datedAt (times : Nat → Int) (rejected : List (Transaction × Rejection)) : List Quarantined :=
  rejected.mapIdx fun i x => dated (times i) x

theorem datedAt_cons (times : Nat → Int) (x : Transaction × Rejection)
    (rest : List (Transaction × Rejection)) :
    datedAt times (x :: rest) = dated (times 0) x :: datedAt (fun i => times (i + 1)) rest :=
  List.mapIdx_cons

/-- One more reading comes before the others. -/
theorem exists_datedAt_cons {P : Int → Prop} (now : Int) (hnow : P now) (times : Nat → Int)
    (htimes : ∀ i, P (times i)) (x : Transaction × Rejection)
    (rest : List (Transaction × Rejection)) :
    ∃ times', (∀ i, P (times' i)) ∧
      dated now x :: datedAt times rest = datedAt times' (x :: rest) := by
  let times' : Nat → Int := fun i => Nat.casesOn (motive := fun _ => Int) i now times
  refine ⟨times', fun i => ?_, (datedAt_cons times' x rest).symm⟩
  cases i with
  | zero => exact hnow
  | succ i => exact htimes i

def quarantined (s : Sorted) (times : Nat → Int) : List Quarantined := datedAt times s.rejected

def commit (s : Sorted) (times : Nat → Int) (move : Option Move) : Commit :=
  ⟨s.entries, s.quarantined times, move⟩

@[simp] theorem length_quarantined (s : Sorted) (times : Nat → Int) :
    (s.quarantined times).length = s.rejected.length := List.length_mapIdx

/-- If there is nothing to store, there was nothing to sort. -/
theorem eq_empty_of_isEmpty_commit {s : Sorted} {times : Nat → Int} {move : Option Move}
    (h : (s.commit times move).isEmpty) : s = empty := by
  obtain ⟨hentries, hrejected⟩ : s.entries = [] ∧ s.rejected = [] := by
    simpa [commit, quarantined, datedAt, Commit.isEmpty] using h
  unfold empty
  rw [← hentries, ← hrejected]

theorem map_signature_quarantined (s : Sorted) (times : Nat → Int) :
    (s.quarantined times).map Quarantined.signature = s.rejected.map fun x => x.1.signature := by
  refine List.ext_getElem (by simp) fun i _ _ => ?_
  simp [quarantined, datedAt, dated]

theorem signatures_quarantined (times : Nat → Int) :
    (((ofTransactions c txs).quarantined times).map Quarantined.signature).Sublist
      (txs.map Transaction.signature) := by
  rw [map_signature_quarantined]
  exact signatures_rejected

/-- Only the dates of what is turned down depend on the readings of the clock. -/
theorem map_undated_commit (s : Sorted) (times times' : Nat → Int) (move : Option Move) :
    (s.commit times move).quarantined.map Quarantined.undated =
      (s.commit times' move).quarantined.map Quarantined.undated := by
  refine List.ext_getElem (by simp [commit]) fun i _ _ => ?_
  simp [commit, quarantined, datedAt, dated, Quarantined.undated]

theorem mem_quarantined {times : Nat → Int} {q : Quarantined}
    (h : q ∈ (ofTransactions c txs).quarantined times) :
    ∃ tx ∈ txs, ∃ r, c.classify tx = .error r ∧ ∃ now, q = dated now (tx, r) := by
  obtain ⟨i, hi, rfl⟩ := List.mem_mapIdx.1 h
  obtain ⟨htx, hr⟩ := mem_rejected.1 (List.getElem_mem hi)
  exact ⟨_, htx, _, hr, times i, rfl⟩

theorem exists_mem_quarantined {tx : Transaction} {r : Rejection} (htx : tx ∈ txs)
    (hr : c.classify tx = .error r) (times : Nat → Int) :
    ∃ i, dated (times i) (tx, r) ∈ (ofTransactions c txs).quarantined times := by
  obtain ⟨i, hi, hget⟩ := List.mem_iff_getElem.1 (mem_rejected.2 ⟨htx, hr⟩)
  exact ⟨i, List.mem_mapIdx.2 ⟨i, hi, by rw [hget]⟩⟩

end Sorted

namespace Pipeline

open Shared Sorted

inductive Announces : Request → Prop
  | quarantined (signature : Signature) (slot : Slot) (reason : String) :
      Announces (.emit (.quarantined signature slot reason))
  | clock : Announces .clock

theorem Announces.still {site : Site} {r : Request} {l l' : Ledger} {a : r.Answer}
    (h : Announces r) (answered : Answered site l r a l') : l' = l := by
  cases h <;> cases answered <;> rfl

theorem asks_announceRejected (rejected : List (Transaction × Rejection)) :
    (announceRejected rejected).Asks Announces fun dated =>
      ∃ times, dated = datedAt times rejected := by
  induction rejected with
  | nil => exact ⟨fun _ => 0, rfl⟩
  | cons x rest ih =>
    refine ⟨.quarantined _ _ _, fun _ => ⟨.clock, fun now => ?_⟩⟩
    change Program.Asks _ _ (announceRejected rest >>= _)
    refine Program.Asks.bind (ih.imp fun others h => ?_)
    obtain ⟨times, rfl⟩ := h
    obtain ⟨times', -, hdated⟩ :=
      exists_datedAt_cons (P := fun _ => True) now trivial times (fun _ => trivial) x rest
    exact ⟨times', hdated⟩

/-- A clock that stands still gives all rejections one date. -/
theorem run_announceRejected (host : Host) (l : Ledger)
    (rejected : List (Transaction × Rejection)) :
    host.around.run l (announceRejected rejected) =
      (datedAt (fun _ => host.now) rejected, l) := by
  induction rejected with
  | nil => rfl
  | cons x rest ih =>
    change host.around.run l (announceRejected rest >>= _) = _
    rw [host.around.run_bind_of_eq l ih, datedAt_cons]
    rfl

end Pipeline

namespace Reconciler

def sortedAt (r : Reconciler) (now : Int) (tx : Transaction) : Entry ⊕ Quarantined :=
  match r.classifier.classify tx with
  | .ok row => .inl ⟨row, tx.slot⟩
  | .error rejection => .inr (Sorted.dated now (tx, rejection))

/-- It comes in front of what was sorted after it. -/
theorem exists_cons_sortedAt (r : Reconciler) {P : Int → Prop} (now : Int) (hnow : P now)
    (times : Nat → Int) (htimes : ∀ i, P (times i)) (tx : Transaction)
    (found : List Transaction) :
    ∃ times', (∀ i, P (times' i)) ∧ Commit.cons (r.sortedAt now tx)
        ((Sorted.ofTransactions r.classifier found).commit times none) =
      (Sorted.ofTransactions r.classifier (tx :: found)).commit times' none := by
  unfold sortedAt
  cases h : r.classifier.classify tx with
  | ok row =>
    rw [Sorted.ofTransactions_cons_ok h]
    exact ⟨times, htimes, rfl⟩
  | error rejection =>
    obtain ⟨times', htimes', hdated⟩ := Sorted.exists_datedAt_cons now hnow times htimes
      (tx, rejection) (Sorted.ofTransactions r.classifier found).rejected
    rw [Sorted.ofTransactions_cons_error h]
    exact ⟨times', htimes',
      congrArg (fun quarantined => (⟨_, quarantined, none⟩ : Commit)) hdated⟩

/-- The clock is read for a rejection only. -/
theorem asks_sort (r : Reconciler) (tx : Transaction) :
    (r.sort tx).Asks (· = .clock) fun sorted => ∃ now, sorted = r.sortedAt now tx := by
  unfold Reconciler.sort sortedAt
  cases r.classifier.classify tx with
  | ok row => exact ⟨0, rfl⟩
  | error rejection => exact ⟨rfl, fun now => ⟨now, rfl⟩⟩

end Reconciler

end RouterHistory
