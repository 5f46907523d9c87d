import Mathlib.Data.Nat.Find
import RouterHistory.Proofs.Ingestion.Batches

/-!
Catching up from an empty ledger, alone and over a source that always answers the same. It stores
batch after batch until the checkpoint is at the head, and that takes finitely many steps.
-/
namespace RouterHistory.Ingestion

open Shared

variable {source : Answers} {s : Settings} {k : Nat} {l : Ledger} {p : Pipeline}

/-- Catching up ends so if enough steps are allowed. -/
def CatchesUp (host : Host) (s : Settings) (window : ChainWindow) (report : IngestReport)
    (l : Ledger) : Prop :=
  ∃ n p, ∀ limit, n ≤ limit →
    host.around.run .empty (Pipeline.catchUp limit (.ofSettings s window) .start) =
      ((some (.ok report), p), l)

/-- A step that finds nothing more to fetch says so. -/
theorem Poised.step_last (h : Poised source s k l p) (now : Int) (last : ¬ More source s k) :
    ∃ p' l', (Host.mk source now).around.run l p.step =
      ((.ok (.caughtUp (stand source s k)), p'), l') ∧
      Ingested source s k l' := by
  obtain ⟨p₁, l₁, hload, hloaded⟩ := h.load now
  obtain ⟨p', hstep⟩ := Pipeline.run_step_of_not_ahead hload hloaded.fits last
  exact ⟨p', l₁, hstep, hloaded.ingested⟩

/-- From any batch on, catching up stores the others and ends. -/
theorem Poised.catchUp (h : Poised source s k l p) (now : Int) {n : Nat}
    (more : ∀ j < k + n, More source s j) (last : ¬ More source s (k + n))
    (report : IngestReport) :
    ∃ report' p' l', (∀ limit, n < limit → (Host.mk source now).around.run l
        (Pipeline.catchUp limit p report) = ((some (.ok report'), p'), l')) ∧
      report'.checkpoint = stand source s (k + n) ∧ Ingested source s (k + n) l' := by
  induction n generalizing k l p report with
  | zero =>
    obtain ⟨p', l', hstep, hingested⟩ := h.step_last now last
    refine ⟨{ report with checkpoint := stand source s k }, p', l', fun limit hlimit => ?_, rfl,
      hingested⟩
    obtain ⟨limit, rfl⟩ := Nat.exists_eq_succ_of_ne_zero (Nat.ne_of_gt hlimit)
    unfold Pipeline.catchUp
    rw [Surroundings.run_bind_of_eq _ _ hstep]
    rfl
  | succ n ih =>
    obtain ⟨tally, p', l', hstep, hpoised⟩ := h.step now (more k (by omega))
    have hcount : k + 1 + n = k + (n + 1) := by omega
    obtain ⟨report', p'', l'', hrest, hreport, hingested⟩ := ih hpoised
      (fun j hj => more j (by omega)) (hcount ▸ last) (report.committed _ tally)
    refine ⟨report', p'', l'', fun limit hlimit => ?_, hcount ▸ hreport, hcount ▸ hingested⟩
    obtain ⟨limit, rfl⟩ := Nat.exists_eq_succ_of_ne_zero (Nat.ne_of_gt (Nat.zero_lt_of_lt hlimit))
    unfold Pipeline.catchUp
    rw [Surroundings.run_bind_of_eq _ _ hstep]
    exact hrest limit (by omega)

/-- Each batch goes at least one slot further. -/
theorem le_stand (more : ∀ j < k, More source s j) : k ≤ (stand source s k).toNat := by
  induction k with
  | zero => exact Nat.zero_le _
  | succ k ih =>
    have hbefore := ih fun j hj => more j (by omega)
    have hstep := UInt64.lt_iff_toNat_lt.1 (stand_lt (more k (by omega)))
    omega

theorem exists_last (source : Answers) (s : Settings) :
    ∃ k, (∀ j < k, More source s j) ∧ ¬ More source s k := by
  classical
  have hends : ∃ k, ¬ More source s k := by
    by_contra hall
    push Not at hall
    have hfar := le_stand (k := UInt64.size) fun j _ => hall j
    have hbound := (stand source s UInt64.size).toNat_lt
    exact absurd hfar (Nat.not_le.2 hbound)
  exact ⟨Nat.find hends, fun j hj => not_not.1 (Nat.find_min hends hj), Nat.find_spec hends⟩

/-- The checkpoint ends up at the head, unless it was created further up. -/
theorem stand_last (hsize : s.batchSize ≠ 0) (more : ∀ j < k, More source s j)
    (last : ¬ More source s k) :
    stand source s k = if source .head ≤ s.genesisSlot then s.genesisSlot else source .head := by
  have hreached : source .head ≤ stand source s k := by
    unfold More Settings.Ahead at last
    exact (not_not.1 last).resolve_right hsize
  cases k with
  | zero =>
    have hbelow : source .head ≤ s.genesisSlot := hreached
    rw [if_pos hbelow]
    rfl
  | succ k =>
    have hbounds := Settings.lastOf_bounds (more k (by omega))
    have hgenesis : s.genesisSlot < stand source s (k + 1) :=
      stand_strict more (Nat.succ_pos k)
    have hat : stand source s (k + 1) = source .head := UInt64.le_antisymm hbounds.2 hreached
    rw [if_neg (UInt64.not_le.2 (hat ▸ hgenesis)), hat]

/-- Catching up ends, with all batches stored. -/
theorem exists_catchesUp (source : Answers) (s : Settings) (now : Int) (window : ChainWindow) :
    ∃ report l k, CatchesUp ⟨source, now⟩ s window report l ∧ Ingested source s k l ∧
      (∀ j < k, More source s j) ∧ ¬ More source s k ∧ report.checkpoint = stand source s k := by
  obtain ⟨k, more, last⟩ := exists_last source s
  have hpoised : Poised source s 0 .empty (.ofSettings s window) :=
    ⟨⟨rfl, rfl, rfl⟩, .inl ⟨rfl, rfl, rfl⟩⟩
  rw [← Nat.zero_add k] at more last
  obtain ⟨report, p, l, hrun, hreport, hingested⟩ := hpoised.catchUp now more last .start
  exact ⟨report, l, 0 + k, ⟨k + 1, p, hrun⟩, hingested, more, last, hreport⟩

end RouterHistory.Ingestion
