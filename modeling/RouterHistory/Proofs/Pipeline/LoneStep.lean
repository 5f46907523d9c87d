import RouterHistory.Proofs.Pipeline.StepEnds
import RouterHistory.Proofs.Shared.Play

/-!
A batch step that runs alone and is always answered. It loads the checkpoint of its pipeline,
which it creates if there is none; below the head it fetches the slots that come next and stores
them at the first try, and at the head it says so and writes nothing.
-/
namespace RouterHistory

open Shared

def Ledger.position (l : Ledger) (s : Settings) : Slot :=
  (l.checkpoints[s.id]?.map Checkpoint.slot).getD s.genesisSlot

theorem Ledger.position_of_getElem? {l : Ledger} {s : Settings} {c : Checkpoint}
    (h : l.checkpoints[s.id]? = some c) : l.position s = c.slot := by
  unfold position
  rw [h]
  rfl

def Shared.Host.between (host : Host) (s : Settings) (first last : Slot) : List Delivery :=
  host.source (.slots (first + 1) last s.classifier.programIds)

def Shared.Host.batch (host : Host) (s : Settings) (first last : Slot) : Commit :=
  s.commitOf first last (host.between s first last) fun _ => host.now

namespace Pipeline

variable {host : Host} {s : Settings} {l l₁ : Ledger} {p p₁ : Pipeline} {position : Slot}

/-- The checkpoint is read if there is no view of it, and created if there is none. -/
theorem run_load (host : Host) (l : Ledger) (fits : p.Fits s) (view : p.cursor.current = none) :
    ∃ p₁, host.around.run l p.load =
        ((.ok (l.position s), p₁), (l.answer host.now (.start s.id s.genesisSlot)).2) ∧
      p₁.Fits s ∧ p₁.cursor.current = some (l.position s) := by
  obtain ⟨hs, hid, hgenesis⟩ := fits
  have hstart : (l.checkpoints.start s.id s.genesisSlot host.now).1.slot = l.position s := by
    unfold Checkpoints.start Ledger.position
    cases l.checkpoints[s.id]? <;> rfl
  refine ⟨{ p with cursor := p.cursor.placedAt (l.position s) }, ?_, ⟨hs, hid, hgenesis⟩, rfl⟩
  unfold Pipeline.load Cursor.load
  rw [view]
  unfold Cursor.reload
  rw [hid, hgenesis, ← hstart]
  rfl

/-- A view is kept. -/
theorem run_load_of_view (view : p.cursor.current = some position) :
    host.around.run l p.load = ((.ok position, p), l) := by
  unfold Pipeline.load Cursor.load
  rw [view]
  rfl

theorem run_fetch_of_ahead (ahead : s.Ahead (host.source .head) position) (w : ChainWindow) :
    ∃ b w', host.around.run l (Batch.fetch s.classifier.programIds w position s.batchSize) =
        (.ok (b, w'), l) ∧
      b.isCaughtUp = false ∧ b.next = s.lastOf (host.source .head) position ∧
      b.transactions = s.transactionsOf position (s.lastOf (host.source .head) position)
        (host.between s position (s.lastOf (host.source .head) position)) := by
  have hbounds := Settings.lastOf_bounds ahead
  have hsome : Gapless.slots (position + 1) (s.lastOf (host.source .head) position)
      (host.between s position (s.lastOf (host.source .head) position)) ≠ [] :=
    Gapless.slots_ne_nil _ _ _
      ⟨(Settings.succ_position_le ahead).2 hbounds.1, UInt64.le_refl _⟩
  let deliveries := Batch.routerSlots (position + 1) (s.lastOf (host.source .head) position)
    s.classifier.programIds (host.between s position (s.lastOf (host.source .head) position))
  refine ⟨⟨deliveries, s.lastOf (host.source .head) position, (w.observeAll deliveries).1⟩,
    (w.observeAll deliveries).2, ?_, ?_, rfl, rfl⟩
  · unfold Batch.fetch
    rw [host.around.run_bind]
    change host.around.run l (if host.source .head ≤ position ∨ s.batchSize = 0 then _ else _) = _
    rw [if_neg ahead]
    rfl
  · simp [Batch.isCaughtUp, deliveries, Batch.routerSlots, hsome]

theorem run_fetch_of_not_ahead (last : ¬ s.Ahead (host.source .head) position) (w : ChainWindow) :
    host.around.run l (Batch.fetch s.classifier.programIds w position s.batchSize) =
      (.ok (.caughtUp position, w), l) := by
  unfold Batch.fetch
  rw [host.around.run_bind]
  change host.around.run l (if host.source .head ≤ position ∨ s.batchSize = 0 then _ else _) = _
  rw [if_pos (not_not.1 last)]
  rfl

theorem run_announceForks (forks : List Fork) :
    host.around.run l (announceForks forks) = ((), l) := by
  unfold announceForks
  rw [host.around.run_bind_of_eq _ (host.run_emitAll ..)]
  cases forks.isEmpty <;> rfl

/-- A commit that goes through is not tried again. -/
theorem run_commit (fits : p.Fits s) {b : Batch} {last : Slot}
    (hnext : b.next = last)
    (htransactions :
      b.transactions = s.transactionsOf position last (host.between s position last))
    {tally : Tally} {next : Checkpoint} {l' : Ledger}
    (stored : l.commit host.now (host.batch s position last) = (.ok ⟨tally, some next⟩, l')) :
    ∃ p', host.around.run l (p.commit position b) =
        ((.ok (.committed position last tally), p'), l') ∧
      p'.Fits s ∧ p'.cursor.current = some next.slot := by
  obtain ⟨rfl, hfits⟩ := fits
  subst hnext
  unfold Host.batch Settings.commitOf at stored
  unfold Pipeline.commit
  rw [htransactions]
  generalize Sorted.ofTransactions p.settings.classifier _ = sorted at stored ⊢
  have hstored : host.around.run l (Program.store (.commit ⟨sorted.entries,
      Sorted.datedAt (fun _ => host.now) sorted.rejected,
      some ⟨p.settings.id, position, b.next⟩⟩)) = (.ok ⟨tally, some next⟩, l') := stored
  have hcounted : tally.quarantined =
      .ofNat (Sorted.datedAt (fun _ => host.now) sorted.rejected).length := by
    obtain ⟨-, -, htally⟩ := Ledger.of_commit_eq_ok stored
    exact congrArg Tally.quarantined htally
  simp only
  rw [host.around.run_bind_of_eq _ (run_announceRejected host l _),
    host.around.run_bind_of_eq _ (host.around.run_retry _ hstored nofun)]
  simp only
  rw [← hcounted]
  exact ⟨_, rfl, ⟨rfl, hfits⟩, rfl⟩

section Step

variable (loads : host.around.run l p.load = ((.ok position, p₁), l₁)) (fits : p₁.Fits s)

include loads fits

/-- Below the head, the slots that come next are stored. -/
theorem run_step_of_ahead (ahead : s.Ahead (host.source .head) position) {last : Slot}
    (hlast : s.lastOf (host.source .head) position = last)
    {tally : Tally} {next : Checkpoint} {l' : Ledger}
    (stored : l₁.commit host.now (host.batch s position last) = (.ok ⟨tally, some next⟩, l')) :
    ∃ p', host.around.run l p.step = ((.ok (.committed position last tally), p'), l') ∧
      p'.Fits s ∧ p'.cursor.current = some next.slot := by
  subst hlast
  obtain ⟨b, w, hfetch, hmore, hnext, htransactions⟩ :=
    run_fetch_of_ahead (l := l₁) ahead p₁.window
  obtain ⟨p', hcommit, hfits'⟩ :=
    run_commit (p := { p₁ with window := w }) fits hnext htransactions stored
  refine ⟨p', ?_, hfits'⟩
  unfold Pipeline.step
  rw [Surroundings.run_bind_of_eq _ _ loads]
  simp only [fits.1]
  rw [host.around.run_bind_of_eq _ (host.around.run_retry _ hfetch nofun)]
  simp only
  rw [host.around.run_bind_of_eq _ (run_announceForks _), hmore]
  simpa [fits.1] using hcommit

/-- At the head, the step says so. -/
theorem run_step_of_not_ahead (last : ¬ s.Ahead (host.source .head) position) :
    ∃ p', host.around.run l p.step = ((.ok (.caughtUp position), p'), l₁) := by
  refine ⟨{ p₁ with settings := s }, ?_⟩
  unfold Pipeline.step
  rw [Surroundings.run_bind_of_eq _ _ loads]
  simp only [fits.1]
  rw [host.around.run_bind_of_eq _ (host.around.run_retry _
    (run_fetch_of_not_ahead last p₁.window) nofun)]
  rfl

end Step

end Pipeline

end RouterHistory
