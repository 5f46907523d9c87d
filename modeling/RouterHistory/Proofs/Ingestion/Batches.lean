import RouterHistory.Proofs.Pipeline.LoneStep
import RouterHistory.Proofs.Shared.StepConduct
import RouterHistory.Proofs.Store.LedgerWrites

/-!
The ledgers that come about from an empty one by creating a checkpoint and storing one batch after
the other, from a source that always answers the same. How many batches were stored decides what
is in the ledger, apart from when it was written. A pipeline that steps alone and is always
answered stores the batch that comes next with each step, as long as there is more to fetch.
-/
namespace RouterHistory.Ingestion

abbrev Answers := (call : SourceCall) → call.Answer

variable {source : Answers} {s : Settings}

/-- Where the checkpoint is after so many batches. -/
def stand (source : Answers) (s : Settings) : Nat → Slot
  | 0 => s.genesisSlot
  | k + 1 => s.lastOf (source .head) (stand source s k)

def More (source : Answers) (s : Settings) (k : Nat) : Prop :=
  s.Ahead (source .head) (stand source s k)

def delivered (source : Answers) (s : Settings) (k : Nat) : List Delivery :=
  source (.slots (stand source s k + 1) (stand source s (k + 1)) s.classifier.programIds)

def batch (source : Answers) (s : Settings) (k : Nat) (times : Nat → Int) : Commit :=
  s.commitOf (stand source s k) (stand source s (k + 1)) (delivered source s k) times

theorem map_undated_batch (k : Nat) (times times' : Nat → Int) :
    (batch source s k times).quarantined.map Quarantined.undated =
      (batch source s k times').quarantined.map Quarantined.undated :=
  Sorted.map_undated_commit _ times times' _

inductive Ingested (source : Answers) (s : Settings) : Nat → Ledger → Prop
  | created (now : Int) :
      Ingested source s 0 (Ledger.empty.answer now (.start s.id s.genesisSlot)).2
  | stored {k : Nat} {l : Ledger} (now : Int) (times : Nat → Int) (before : Ingested source s k l)
      (more : More source s k) :
      Ingested source s (k + 1) (l.commit now (batch source s k times)).2

theorem stand_lt (more : More source s k) : stand source s k < stand source s (k + 1) :=
  (Settings.lastOf_bounds more).1

theorem Ingested.more {k : Nat} {l : Ledger} (h : Ingested source s k l) :
    ∀ j < k, More source s j := by
  induction h with
  | created now => intro j hj; omega
  | @stored k l now times before more ih =>
    intro j hj
    by_cases hlast : j = k
    · rwa [hlast]
    · exact ih j (by omega)

/-- Each batch goes further than all before it. -/
theorem stand_strict {k : Nat} (more : ∀ j < k, More source s j) {i : Nat} (hik : i < k) :
    stand source s i < stand source s k := by
  induction k with
  | zero => omega
  | succ k ih =>
    have hstep := stand_lt (more k (by omega))
    by_cases hlast : i = k
    · rwa [hlast]
    · have hbefore := ih (fun j hj => more j (by omega)) (by omega)
      rw [UInt64.lt_iff_toNat_lt] at hbefore hstep ⊢
      omega

/-- So the slot of the checkpoint tells how many batches were stored. -/
theorem Ingested.count_eq {k k' : Nat} {l l' : Ledger} (h : Ingested source s k l)
    (h' : Ingested source s k' l') (hsame : stand source s k = stand source s k') : k = k' := by
  rcases Nat.lt_trichotomy k k' with hlt | heq | hgt
  · have hstrict := stand_strict h'.more hlt
    rw [hsame] at hstrict
    exact absurd hstrict (UInt64.lt_irrefl _)
  · exact heq
  · have hstrict := stand_strict h.more hgt
    rw [hsame] at hstrict
    exact absurd hstrict (UInt64.lt_irrefl _)

/-- There is one checkpoint, at the slot and with the revision of the batches. -/
theorem Ingested.checkpoint {k : Nat} {l : Ledger} (h : Ingested source s k l) :
    ∃ cp, l.checkpoints[s.id]? = some cp ∧ cp.pipelineId = s.id ∧
      cp.slot = stand source s k ∧ cp.revision = UInt64.ofNat k := by
  induction h with
  | created now =>
    refine ⟨.genesis s.id s.genesisSlot now, ?_, rfl, rfl, rfl⟩
    simp [Ledger.answer, Checkpoints.start, Ledger.empty]
  | @stored k l now times before more ih =>
    obtain ⟨cp, hcp, hid, hslot, hrevision⟩ := ih
    let next : Checkpoint :=
      { cp with slot := stand source s (k + 1), revision := cp.revision + 1, updatedAt := now }
    have hmove : l.checkMove now (batch source s k times).move = .ok (some next) :=
      l.checkMove_eq_ok.2 ⟨cp, hcp, hslot, stand_lt more, rfl⟩
    have hnext : next.pipelineId = s.id := hid
    refine ⟨next, ?_, hid, rfl, ?_⟩
    · rw [l.checkpoints_commit hmove, hnext, Std.ExtTreeMap.getElem?_insert_self]
    · change cp.revision + 1 = UInt64.ofNat (k + 1)
      rw [hrevision]
      simp

/-- Storing the next batch takes effect. -/
theorem Ingested.checkMove {k : Nat} {l : Ledger} (h : Ingested source s k l)
    (more : More source s k) (now : Int) (times : Nat → Int) :
    ∃ next, next.slot = stand source s (k + 1) ∧
      l.checkMove now (batch source s k times).move = .ok (some next) := by
  obtain ⟨cp, hcp, hid, hslot, hrevision⟩ := h.checkpoint
  let next : Checkpoint :=
    { cp with slot := stand source s (k + 1), revision := cp.revision + 1, updatedAt := now }
  refine ⟨next, rfl, ?_⟩
  exact l.checkMove_eq_ok.2 ⟨cp, hcp, hslot, stand_lt more, rfl⟩

/-- The number of batches decides what is stored. -/
theorem Ingested.same {k : Nat} {l l' : Ledger} (h : Ingested source s k l)
    (h' : Ingested source s k l') : l.Same l' := by
  induction h generalizing l' with
  | created now =>
    cases h' with
    | created now' => exact ⟨rfl, rfl, fun S => rfl⟩
  | @stored k l now times before more ih =>
    cases h' with
    | @stored _ l₀ now' times' before' more' =>
      obtain ⟨hrows, hmarks, hquarantine⟩ := ih before'
      obtain ⟨next, -, hmove⟩ := before.checkMove more now times
      obtain ⟨next', -, hmove'⟩ := before'.checkMove more now' times'
      obtain ⟨hrows', hmarks'⟩ :=
        Ledger.written_congr hrows hmarks (batch source s k times).entries
      refine ⟨?_, ?_, fun S => ?_⟩
      · rw [l.rows_commit hmove, l₀.rows_commit hmove']
        exact hrows'
      · rw [l.marks_commit hmove, l₀.marks_commit hmove']
        exact hmarks'
      · rw [l.quarantine_commit hmove, l₀.quarantine_commit hmove']
        exact Ledger.quarantineAll_congr (map_undated_batch k times times') hquarantine S

open Shared

variable {source : Answers} {s : Settings} (now : Int) {k : Nat} {l : Ledger} {p : Pipeline}

/-- A pipeline that has stored so many batches and is ready for its next step. -/
structure Poised (source : Answers) (s : Settings) (k : Nat) (l : Ledger) (p : Pipeline) :
    Prop where
  fits : p.Fits s
  view : k = 0 ∧ l = .empty ∧ p.cursor.current = none ∨
    Ingested source s k l ∧ p.cursor.current = some (stand source s k)

structure Loaded (source : Answers) (s : Settings) (k : Nat) (l : Ledger) (p : Pipeline) :
    Prop where
  fits : p.Fits s
  ingested : Ingested source s k l
  current : p.cursor.current = some (stand source s k)

theorem Poised.load (h : Poised source s k l p) :
    ∃ p' l', (Host.mk source now).around.run l p.load = ((.ok (stand source s k), p'), l') ∧
      Loaded source s k l' p' := by
  obtain ⟨hfits, ⟨rfl, rfl, hcurrent⟩ | ⟨hingested, hcurrent⟩⟩ := h
  · have hposition : Ledger.empty.position s = stand source s 0 := by
      unfold Ledger.position Ledger.empty
      rw [Std.ExtTreeMap.getElem?_empty]
      rfl
    obtain ⟨p', hload, hfits', hcurrent'⟩ := Pipeline.run_load ⟨source, now⟩ .empty hfits hcurrent
    rw [hposition] at hload hcurrent'
    exact ⟨p', _, hload, hfits', .created now, hcurrent'⟩
  · exact ⟨p, l, Pipeline.run_load_of_view hcurrent, hfits, hingested, hcurrent⟩

/-- A step stores the batch that comes next. -/
theorem Poised.step (h : Poised source s k l p) (more : More source s k) :
    ∃ tally p' l', (Host.mk source now).around.run l p.step =
        ((.ok (.committed (stand source s k) (stand source s (k + 1)) tally), p'), l') ∧
      Poised source s (k + 1) l' p' := by
  obtain ⟨p₁, l₁, hload, hloaded⟩ := h.load now
  obtain ⟨next, hslot, hmove⟩ := hloaded.ingested.checkMove more now fun _ => now
  obtain ⟨tally, hstored⟩ := l₁.exists_receipt hmove
  obtain ⟨p', hstep, hfits, hcurrent⟩ :=
    Pipeline.run_step_of_ahead hload hloaded.fits more rfl hstored
  exact ⟨tally, p', _, hstep, hfits, .inr ⟨.stored now _ hloaded.ingested more,
    hcurrent.trans (congrArg some hslot)⟩⟩

/-- A pipeline alone gets through as many batches as there are. -/
theorem exists_poised {site : Site} (suits : (Host.mk source now).Suits site.calm)
    (more : ∀ j < k, More source s j) (window : ChainWindow) :
    ∃ l p, Undisturbed site s window (l, .resting p) ∧ Poised source s k l p := by
  induction k with
  | zero => exact ⟨.empty, .ofSettings s window, .refl, ⟨rfl, rfl, rfl⟩, .inl ⟨rfl, rfl, rfl⟩⟩
  | succ k ih =>
    obtain ⟨l, p, hreached, hpoised⟩ := ih fun j hj => more j (by omega)
    obtain ⟨tally, p', l', hrun, hpoised'⟩ := hpoised.step now (more k (by omega))
    have hmoves := Host.moves_run suits l [] p.step
    rw [hrun] at hmoves
    exact ⟨l', p', (hreached.tail (.begins l p)).trans hmoves, hpoised'⟩

end RouterHistory.Ingestion
