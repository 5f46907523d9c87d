import RouterHistory.Proofs.Ingestion.Batches
import RouterHistory.Proofs.Pipeline.LoneStep
import RouterHistory.Proofs.Shared.Surroundings
import RouterHistory.Proofs.Store.LedgerTables
import RouterHistory.Proofs.Store.TableCommits

/-!
Catching up over a database. A column reads the high half of the slots as negative numbers, so a
batch that goes from the low half into the high half looks like one that goes back, and is
refused. The pipeline then goes on from where it was and is refused again. All other batches are
stored. So catching up ends unless the head and the slot it starts from are in different halves.
-/
namespace RouterHistory

theorem Slot.toInt_toInt64_of_not {slot : Slot} (h : ¬ slot.FitsColumn) :
    slot.toInt64.toInt < 0 ∧ slot.toInt64.toInt = slot.toNat - 18446744073709551616 := by
  have hhigh : ¬ slot.toNat < 9223372036854775808 := fun hlow => h (UInt64.lt_iff_toNat_lt.2 hlow)
  have hbound := slot.toNat_lt
  have hsign : slot.toInt64.toInt = slot.toBitVec.toInt := rfl
  rw [hsign, BitVec.toInt_eq_toNat_cond, UInt64.toNat_toBitVec]
  omega

/-- A column goes up with the slot, but not from the low half into the high half. -/
theorem Slot.toInt64_lt_iff_of_lt {a b : Slot} (h : a < b) :
    a.toInt64 < b.toInt64 ↔ (a.FitsColumn → b.FitsColumn) := by
  have hlt := UInt64.lt_iff_toNat_lt.1 h
  by_cases ha : a.FitsColumn
  · by_cases hb : b.FitsColumn
    · exact iff_of_true ((toInt64_lt_iff ha hb).2 h) fun _ => hb
    · refine iff_of_false ?_ fun hall => hb (hall ha)
      have hlow := toInt_toInt64 ha
      have hhigh := toInt_toInt64_of_not hb
      rw [Int64.lt_iff_toInt_lt]
      omega
  · refine iff_of_true ?_ fun ha' => absurd ha' ha
    have hb : ¬ b.FitsColumn := fun hb => ha (UInt64.lt_trans h hb)
    have hfirst := toInt_toInt64_of_not ha
    have hsecond := toInt_toInt64_of_not hb
    rw [Int64.lt_iff_toInt_lt]
    omega

def Settings.Crosses (s : Settings) (head : Slot) : Prop :=
  s.Ahead head s.genesisSlot ∧ s.genesisSlot.FitsColumn ∧ ¬ head.FitsColumn

def Tables.StandsAt (t : Tables) (s : Settings) (position : Slot) : Prop :=
  t.Legible ∧ ∃ row, t.checkpoints[s.id]? = some row ∧ row.slot = position.toInt64

def Tables.position? (t : Tables) (s : Settings) : Option Slot :=
  (t.checkpoint? s.id).map Checkpoint.slot

theorem Tables.StandsAt.position? {t : Tables} {s : Settings} {position : Slot}
    (h : t.StandsAt s position) : t.position? s = some position := by
  obtain ⟨-, row, hrow, hslot⟩ := h
  unfold Tables.position? Tables.checkpoint?
  rw [hrow, Option.map_some, Option.map_some]
  exact congrArg some ((congrArg Int64.toUInt64 hslot).trans position.toUInt64_toInt64)

namespace Ingestion

open Shared

/-- Tables that nobody else works on, beside a source that never fails. Each look at the clock is
counted, and may show any time. -/
def database (source : Answers) (time : Nat → Int) : Surroundings (Nat × Tables) where
  reply w
    | .source call => (.ok (source call), w)
    | .store call =>
        ((w.2.answer .seconds (time w.1) call).1,
          (w.1 + 1, (w.2.answer .seconds (time w.1) call).2))
    | .clock => (time w.1, (w.1 + 1, w.2))
    | .emit _ => ((), w)
    | .signalFork => ((), w)
    | .shutdownFlag => (false, w)
    | .wait _ => (false, w)

def Aside : Request → Prop
  | .store _ => False
  | .clock => False
  | _ => True

variable {source : Answers} {time : Nat → Int} {w : Nat × Tables}

/-- What leaves the store and the clock alone runs as under any host. -/
theorem run_of_asks {α : Type} {p : Program α} (h : p.Asks Aside fun _ => True) :
    (database source time).run w p = (((Host.mk source 0).around.run .empty p).1, w) := by
  induction p with
  | done a => rfl
  | ask r next ih =>
    obtain ⟨haside, hnext⟩ := h
    cases r with
    | store call => exact haside.elim
    | clock => exact haside.elim
    | _ => exact ih _ (hnext _)

theorem asks_announceForks (forks : List Fork) :
    (Pipeline.announceForks forks).Asks Aside fun _ => True := by
  unfold Pipeline.announceForks
  refine Program.Asks.bind ((Program.asks_emitAll fun _ _ => trivial).imp fun _ _ => ?_)
  cases forks.isEmpty with
  | true => trivial
  | false => exact ⟨trivial, fun _ => trivial⟩

theorem asks_fetch (programIds : List String) (window : ChainWindow) (position : Slot)
    (size : UInt64) :
    (Batch.fetch programIds window position size).Asks Aside fun _ => True := by
  refine ⟨trivial, fun reply => ?_⟩
  cases reply with
  | error f => trivial
  | ok head =>
    change Program.Asks Aside _ (if head ≤ position ∨ size = 0 then _ else _)
    split
    · trivial
    · refine ⟨trivial, fun reply => ?_⟩
      cases reply <;> trivial

/-- Each rejection gets the time that the clock shows next. -/
theorem run_announceRejected (n : Nat) (t : Tables) (rejected : List (Transaction × Rejection)) :
    (database source time).run (n, t) (Pipeline.announceRejected rejected) =
      (Sorted.datedAt (fun i => time (n + i)) rejected, (n + rejected.length, t)) := by
  induction rejected generalizing n with
  | nil => rfl
  | cons x rest ih =>
    change (database source time).run (n + 1, t) (Pipeline.announceRejected rest >>= _) = _
    rw [Surroundings.run_bind_of_eq _ _ (ih (n + 1)), Sorted.datedAt_cons, List.length_cons]
    simp only [Nat.add_zero, ← Nat.add_assoc, Nat.add_right_comm n 1]
    rfl

variable {s : Settings} {position last : Slot} {p : Pipeline} {n : Nat} {t : Tables}

/-- A pipeline that is ready for its next step: its view of the checkpoint is right, or there is
neither a view nor a checkpoint yet. -/
structure Afoot (s : Settings) (position : Slot) (t : Tables) (p : Pipeline) : Prop where
  fits : p.Fits s
  view : t.StandsAt s position ∧ p.cursor.current = some position ∨
    t = .empty ∧ position = s.genesisSlot ∧ p.cursor.current = none

/-- The stored checkpoint is read, and created if the tables are still empty. -/
theorem run_reload (source : Answers) (time : Nat → Int) (n : Nat) {c : Cursor} (fits : c.Fits s)
    (h : t.StandsAt s position ∨ t = .empty ∧ position = s.genesisSlot) :
    ∃ t₁, (database source time).run (n, t) c.reload =
        ((.ok position, c.placedAt position), (n + 1, t₁)) ∧ t₁.StandsAt s position := by
  have hstart : ∃ checkpoint t₁, t.start s.id s.genesisSlot (time n) = (checkpoint, t₁) ∧
      checkpoint.slot = position ∧ t₁.StandsAt s position := by
    rcases h with ⟨hlegible, row, hrow, hslot⟩ | ⟨rfl, rfl⟩
    · refine ⟨row.checkpoint s.id, t, ?_, ?_, hlegible, row, hrow, hslot⟩
      · unfold Tables.start
        rw [hrow]
      · exact (congrArg Int64.toUInt64 hslot).trans position.toUInt64_toInt64
    · exact ⟨_, _, rfl, s.genesisSlot.toUInt64_toInt64, Tables.legible_empty, _,
        Std.ExtTreeMap.getElem?_insert_self, rfl⟩
  obtain ⟨checkpoint, t₁, hstart, hslot, hstands⟩ := hstart
  refine ⟨t₁, ?_, hstands⟩
  have hanswer : (database source time).run (n, t) (Program.store (.start s.id s.genesisSlot)) =
      (.ok checkpoint, (n + 1, t₁)) :=
    congrArg (fun started => (Except.ok started.1, (n + 1, started.2))) hstart
  unfold Cursor.reload
  rw [fits.1, fits.2, Surroundings.run_bind_of_eq _ _ hanswer, ← hslot]
  rfl

theorem Afoot.load (h : Afoot s position t p) (source : Answers) (time : Nat → Int) (n : Nat) :
    ∃ p₁ n₁ t₁, (database source time).run (n, t) p.load = ((.ok position, p₁), (n₁, t₁)) ∧
      p₁.Fits s ∧ t₁.StandsAt s position := by
  obtain ⟨hfits, ⟨hstands, hview⟩ | ⟨hempty, hgenesis, hview⟩⟩ := h
  · refine ⟨p, n, t, ?_, hfits, hstands⟩
    unfold Pipeline.load Cursor.load
    rw [hview]
    rfl
  · obtain ⟨t₁, hreload, hstands⟩ := run_reload source time n hfits.2 (.inr ⟨hempty, hgenesis⟩)
    refine ⟨{ p with cursor := p.cursor.placedAt position }, n + 1, t₁, ?_, hfits, hstands⟩
    unfold Pipeline.load Cursor.load
    rw [hview, Surroundings.run_bind_of_eq _ _ hreload]
    rfl

theorem run_fetch_of_ahead (time : Nat → Int) (w : Nat × Tables)
    (ahead : s.Ahead (source .head) position) (window : ChainWindow) :
    ∃ b window', (database source time).run w (s.backoff.retry "fetch_batch"
        (Batch.fetch s.classifier.programIds window position s.batchSize)) =
          (.ok (b, window'), w) ∧
      b.isCaughtUp = false ∧ b.next = s.lastOf (source .head) position := by
  have hahead : s.Ahead ((Host.mk source 0).source .head) position := ahead
  obtain ⟨b, window', hfetch, hmore, hnext, -⟩ :=
    Pipeline.run_fetch_of_ahead (l := .empty) hahead window
  refine ⟨b, window', Surroundings.run_retry _ _ ?_ nofun, hmore, hnext⟩
  rw [run_of_asks (asks_fetch ..), hfetch]

theorem run_fetch_of_not_ahead (last : ¬ s.Ahead (source .head) position) (window : ChainWindow) :
    (database source time).run w (s.backoff.retry "fetch_batch"
        (Batch.fetch s.classifier.programIds window position s.batchSize)) =
      (.ok (.caughtUp position, window), w) := by
  have hlast : ¬ s.Ahead ((Host.mk source 0).source .head) position := last
  refine Surroundings.run_retry _ _ ?_ nofun
  rw [run_of_asks (asks_fetch ..), Pipeline.run_fetch_of_not_ahead (l := .empty) hlast window]

section Commit

variable {b : Batch} (h : t.StandsAt s position) (fits : p.Fits s)

include h fits

/-- A batch whose column goes up is stored. -/
theorem run_commit_of_forward (forward : position.toInt64 < b.next.toInt64) :
    ∃ tally p' n' t', (database source time).run (n, t) (p.commit position b) =
        ((.ok (.committed position b.next tally), p'), (n', t')) ∧ Afoot s b.next t' p' := by
  obtain ⟨hlegible, row, hrow, hslot⟩ := h
  obtain ⟨rfl, hcursor⟩ := fits
  let sorted := Sorted.ofTransactions p.settings.classifier b.transactions
  let batch : Commit := ⟨sorted.entries, Sorted.datedAt (fun i => time (n + i)) sorted.rejected,
    some ⟨p.settings.id, position, b.next⟩⟩
  let n₁ := n + sorted.rejected.length
  obtain ⟨tally, next, t', hcommit, hnext, hlegible', hmoved⟩ :=
    hlegible.commit (c := batch) (time n₁) rfl hrow hslot forward
  have hstored : (database source time).run (n₁, t) (Program.store (.commit batch)) =
      (.ok ⟨tally, some next⟩, (n₁ + 1, t')) :=
    congrArg (fun stored => ((t.settle stored).1, (n₁ + 1, (t.settle stored).2))) hcommit
  refine ⟨{ tally with quarantined := .ofNat batch.quarantined.length },
    { p with cursor := p.cursor.placedAt next.slot }, n₁ + 1, t', ?_, ⟨rfl, hcursor⟩,
    .inl ⟨⟨hlegible', hmoved⟩, congrArg some hnext⟩⟩
  unfold Pipeline.commit
  simp only
  rw [Surroundings.run_bind_of_eq _ _ (run_announceRejected n t _),
    Surroundings.run_bind_of_eq _ _ (Surroundings.run_retry _ _ hstored nofun)]
  rfl

/-- Any other batch is refused, and the pipeline is back where it was. -/
theorem run_commit_of_backward (backward : ¬ position.toInt64 < b.next.toInt64) :
    ∃ p' n' t', (database source time).run (n, t) (p.commit position b) =
        ((.ok (.stale position), p'), (n', t')) ∧ Afoot s position t' p' := by
  have ⟨_, row, hrow, hslot⟩ := h
  obtain ⟨rfl, hcursor⟩ := fits
  let sorted := Sorted.ofTransactions p.settings.classifier b.transactions
  let batch : Commit := ⟨sorted.entries, Sorted.datedAt (fun i => time (n + i)) sorted.rejected,
    some ⟨p.settings.id, position, b.next⟩⟩
  let n₁ := n + sorted.rejected.length
  have hrefused := Tables.commit_of_backward (c := batch) (time n₁) .seconds rfl hrow
    (hslot ▸ backward)
  have hstored : (database source time).run (n₁, t) (Program.store (.commit batch)) =
      (.error (.staleCheckpoint row.slot.toUInt64 b.next), (n₁ + 1, t)) :=
    congrArg (fun stored => ((t.settle stored).1, (n₁ + 1, (t.settle stored).2))) hrefused
  have lasting : ∀ f, (.error (.staleCheckpoint row.slot.toUInt64 b.next) :
      Except Failure Receipt) = .error f → ¬ f.isTransient := by
    intro f hf
    cases hf
    exact nofun
  obtain ⟨t', hreload, hstands⟩ :=
    run_reload source time (n₁ + 1) (c := p.cursor.forget) hcursor (.inl h)
  refine ⟨{ p with cursor := p.cursor.forget.placedAt position }, n₁ + 2, t', ?_, ⟨rfl, hcursor⟩,
    .inl ⟨hstands, rfl⟩⟩
  unfold Pipeline.commit
  simp only
  rw [Surroundings.run_bind_of_eq _ _ (run_announceRejected n t _),
    Surroundings.run_bind_of_eq _ _ (Surroundings.run_retry _ _ hstored lasting)]
  change (database source time).run (n₁ + 1, t) p.resume = _
  unfold Pipeline.resume
  rw [Surroundings.run_bind_of_eq _ _ hreload]
  rfl

end Commit

/-- Whether a batch is stored is a matter of the halves. -/
theorem Afoot.step_of_ahead (h : Afoot s position t p) (time : Nat → Int) (n : Nat)
    (ahead : s.Ahead (source .head) position) (hlast : s.lastOf (source .head) position = last) :
    ((position.FitsColumn → last.FitsColumn) →
      ∃ tally p' n' t', (database source time).run (n, t) p.step =
        ((.ok (.committed position last tally), p'), (n', t')) ∧ Afoot s last t' p') ∧
    (position.FitsColumn → ¬ last.FitsColumn →
      ∃ p' n' t', (database source time).run (n, t) p.step =
        ((.ok (.stale position), p'), (n', t')) ∧ Afoot s position t' p') := by
  obtain ⟨p₁, n₁, t₁, hload, hfits, hstands⟩ := h.load source time n
  obtain ⟨b, window, hfetch, hmore, hnext⟩ := run_fetch_of_ahead time (n₁, t₁) ahead p₁.window
  have hstep : (database source time).run (n, t) p.step =
      (database source time).run (n₁, t₁) (Pipeline.commit { p₁ with window } position b) := by
    unfold Pipeline.step
    rw [Surroundings.run_bind_of_eq _ _ hload]
    simp only [hfits.1]
    rw [Surroundings.run_bind_of_eq _ _ hfetch]
    simp only
    rw [Surroundings.run_bind_of_eq _ _ (run_of_asks (asks_announceForks _)), hmore]
    rfl
  have hforward := Slot.toInt64_lt_iff_of_lt (Settings.lastOf_bounds ahead).1
  have hfits' : Pipeline.Fits { p₁ with window } s := hfits
  rw [hstep]
  rw [hlast] at hforward hnext
  subst hnext
  constructor
  · intro hhalves
    exact run_commit_of_forward hstands hfits' (hforward.2 hhalves)
  · intro hlow hhigh
    exact run_commit_of_backward hstands hfits' fun hup => hhigh (hforward.1 hup hlow)

/-- At the head, nothing is stored but the checkpoint that was missing. -/
theorem Afoot.step_of_not_ahead (h : Afoot s position t p) (time : Nat → Int) (n : Nat)
    (last : ¬ s.Ahead (source .head) position) :
    ∃ p' n' t', (database source time).run (n, t) p.step =
        ((.ok (.caughtUp position), p'), (n', t')) ∧ t'.StandsAt s position := by
  obtain ⟨p₁, n₁, t₁, hload, hfits, hstands⟩ := h.load source time n
  refine ⟨{ p₁ with settings := s }, n₁, t₁, ?_, hstands⟩
  unfold Pipeline.step
  rw [Surroundings.run_bind_of_eq _ _ hload]
  simp only [hfits.1]
  rw [Surroundings.run_bind_of_eq _ _ (run_fetch_of_not_ahead last p₁.window)]
  rfl

def goal (source : Answers) (s : Settings) (position : Slot) : Slot :=
  if source .head ≤ position ∨ s.batchSize = 0 then position else source .head

theorem goal_lastOf (ahead : s.Ahead (source .head) position) :
    goal source s (s.lastOf (source .head) position) = source .head := by
  unfold goal
  split
  · next hdone =>
    have hreached := hdone.resolve_right (not_or.1 ahead).2
    exact UInt64.le_antisymm (Settings.lastOf_bounds ahead).2 hreached
  · rfl

/-- A batch brings the pipeline closer to the head. -/
theorem distance_lastOf (ahead : s.Ahead (source .head) position) :
    (source .head : Slot).toNat - (s.lastOf (source .head) position).toNat <
      (source .head : Slot).toNat - position.toNat := by
  have hforward := UInt64.lt_iff_toNat_lt.1 (Settings.lastOf_bounds ahead).1
  have hbelow := UInt64.lt_iff_toNat_lt.1 (UInt64.not_le.1 (not_or.1 ahead).1)
  omega

/-- Where the pipeline need not cross from the low half into the high half, it ends. -/
theorem Afoot.catchUp (h : Afoot s position t p) (time : Nat → Int) (n : Nat)
    (report : IngestReport)
    (fitting : s.Ahead (source .head) position → position.FitsColumn →
      (source .head : Slot).FitsColumn) :
    ∃ steps report' p' n' t', (∀ limit, steps < limit →
        (database source time).run (n, t) (p.catchUp limit report) =
          ((some (.ok report'), p'), (n', t'))) ∧
      report'.checkpoint = goal source s position ∧
      t'.StandsAt s (goal source s position) := by
  -- each batch comes closer to the head, and stays in the half of the head once it is there
  induction hdistance : (source .head : Slot).toNat - position.toNat using
    Nat.strongRecOn generalizing position t p n report with
  | ind distance ih =>
    by_cases ahead : s.Ahead (source .head) position
    · obtain ⟨hforward, hhead⟩ := Settings.lastOf_bounds ahead
      have hlow : position.FitsColumn → (s.lastOf (source .head) position).FitsColumn :=
        fun hposition => UInt64.lt_of_le_of_lt hhead (fitting ahead hposition)
      obtain ⟨tally, p₁, n₁, t₁, hstep, hafoot⟩ := (h.step_of_ahead time n ahead rfl).1 hlow
      have hnext : (s.lastOf (source .head) position).FitsColumn →
          (source .head : Slot).FitsColumn :=
        fun hlast => fitting ahead (UInt64.lt_trans hforward hlast)
      obtain ⟨steps, report', p', n', t', hrest, hreport, hstands⟩ :=
        ih _ (hdistance ▸ distance_lastOf ahead) hafoot n₁ (report.committed _ tally)
          (fun _ => hnext) rfl
      have hgoal : goal source s (s.lastOf (source .head) position) = goal source s position :=
        (goal_lastOf ahead).trans (if_neg ahead).symm
      refine ⟨steps + 1, report', p', n', t', fun limit hlimit => ?_, hgoal ▸ hreport,
        hgoal ▸ hstands⟩
      obtain ⟨limit, rfl⟩ :=
        Nat.exists_eq_succ_of_ne_zero (Nat.ne_of_gt (Nat.zero_lt_of_lt hlimit))
      unfold Pipeline.catchUp
      rw [Surroundings.run_bind_of_eq _ _ hstep]
      exact hrest limit (by omega)
    · obtain ⟨p', n', t', hstep, hstands⟩ := h.step_of_not_ahead time n ahead
      have hgoal : goal source s position = position := if_pos (not_not.1 ahead)
      refine ⟨0, { report with checkpoint := position }, p', n', t', fun limit hlimit => ?_,
        hgoal.symm, hgoal.symm ▸ hstands⟩
      obtain ⟨limit, rfl⟩ := Nat.exists_eq_succ_of_ne_zero (Nat.ne_of_gt hlimit)
      unfold Pipeline.catchUp
      rw [Surroundings.run_bind_of_eq _ _ hstep]
      rfl

/-- A batch that was refused is tried again for ever. -/
theorem Afoot.catchUp_of_refused (h : Afoot s position t p) (time : Nat → Int) (n : Nat)
    (report : IngestReport) (ahead : s.Ahead (source .head) position)
    (low : position.FitsColumn) (high : ¬ (s.lastOf (source .head) position).FitsColumn)
    (limit : Nat) :
    ∃ p' n' t', (database source time).run (n, t) (p.catchUp limit report) =
      ((none, p'), (n', t')) ∧ Afoot s position t' p' := by
  induction limit generalizing t p n report with
  | zero => exact ⟨p, n, t, rfl, h⟩
  | succ limit ih =>
    obtain ⟨p₁, n₁, t₁, hstep, hafoot⟩ := (h.step_of_ahead time n ahead rfl).2 low high
    obtain ⟨p', n', t', hrest, hafoot'⟩ := ih hafoot n₁ { report with checkpoint := position }
    refine ⟨p', n', t', ?_, hafoot'⟩
    unfold Pipeline.catchUp
    rw [Surroundings.run_bind_of_eq _ _ hstep]
    exact hrest

/-- Where the pipeline has to cross, some batch is the last one that is stored, and there is no
end. -/
theorem Afoot.catchUp_of_crossing (h : Afoot s position t p) (time : Nat → Int) (n : Nat)
    (report : IngestReport) (ahead : s.Ahead (source .head) position)
    (low : position.FitsColumn) (high : ¬ (source .head : Slot).FitsColumn) :
    ∃ stuck steps, position ≤ stuck ∧ stuck.FitsColumn ∧
      ¬ (s.lastOf (source .head) stuck).FitsColumn ∧
      ∀ limit, ∃ p' n' t', (database source time).run (n, t) (p.catchUp limit report) =
        ((none, p'), (n', t')) ∧ (steps ≤ limit → Afoot s stuck t' p') := by
  induction hdistance : (source .head : Slot).toNat - position.toNat using
    Nat.strongRecOn generalizing position t p n report with
  | ind distance ih =>
    obtain ⟨hforward, hhead⟩ := Settings.lastOf_bounds ahead
    by_cases hlow : (s.lastOf (source .head) position).FitsColumn
    · obtain ⟨tally, p₁, n₁, t₁, hstep, hafoot⟩ :=
        (h.step_of_ahead time n ahead rfl).1 fun _ => hlow
      have hmore : s.Ahead (source .head) (s.lastOf (source .head) position) :=
        not_or.2 ⟨fun hle => high (UInt64.lt_of_le_of_lt hle hlow), (not_or.1 ahead).2⟩
      obtain ⟨stuck, steps, hstuck, hstuckLow, hstuckHigh, hrest⟩ :=
        ih _ (hdistance ▸ distance_lastOf ahead) hafoot n₁ (report.committed _ tally)
        hmore hlow rfl
      refine ⟨stuck, steps + 1, UInt64.le_trans (UInt64.le_of_lt hforward) hstuck, hstuckLow,
        hstuckHigh, fun limit => ?_⟩
      cases limit with
      | zero => exact ⟨p, n, t, rfl, fun hsteps => absurd hsteps (Nat.not_succ_le_zero steps)⟩
      | succ limit =>
        obtain ⟨p', n', t', hrun, hend⟩ := hrest limit
        refine ⟨p', n', t', ?_, fun hsteps => hend (Nat.le_of_succ_le_succ hsteps)⟩
        unfold Pipeline.catchUp
        rw [Surroundings.run_bind_of_eq _ _ hstep]
        exact hrun
    · refine ⟨position, 0, UInt64.le_refl _, low, hlow, fun limit => ?_⟩
      obtain ⟨p', n', t', hrun, hafoot⟩ :=
        h.catchUp_of_refused time n report ahead low hlow limit
      exact ⟨p', n', t', hrun, fun _ => hafoot⟩

theorem Afoot.position? (h : Afoot s position t p) :
    (t.position? s).getD s.genesisSlot = position := by
  obtain ⟨-, ⟨hstands, -⟩ | ⟨rfl, rfl, -⟩⟩ := h
  · rw [hstands.position?, Option.getD_some]
  · unfold Tables.position? Tables.checkpoint? Tables.empty
    rw [Std.ExtTreeMap.getElem?_empty]
    rfl

theorem afoot_start (s : Settings) (window : ChainWindow) :
    Afoot s s.genesisSlot .empty (.ofSettings s window) :=
  ⟨⟨rfl, rfl, rfl⟩, .inr ⟨rfl, rfl, rfl⟩⟩

/-- From empty tables, a new pipeline that is alone and always answered catches up with the head,
unless it has to cross from the low half of the slots into the high half. If it has to, no number
of steps is enough, and the checkpoint stays in the low half for good. -/
theorem catchUp_ends_iff_no_crossing (source : Answers) (s : Settings) (window : ChainWindow)
    (time : Nat → Int) :
    (¬ s.Crosses (source .head) →
      ∃ steps report p n t, (∀ limit, steps < limit →
          (database source time).run (0, .empty)
            (Pipeline.catchUp limit (.ofSettings s window) .start) =
              ((some (.ok report), p), (n, t))) ∧
        report.checkpoint = goal source s s.genesisSlot ∧
        t.position? s = some (goal source s s.genesisSlot)) ∧
    (s.Crosses (source .head) →
      ∃ stuck steps, s.genesisSlot ≤ stuck ∧ stuck.FitsColumn ∧
        ¬ (s.lastOf (source .head) stuck).FitsColumn ∧
        ∀ limit, ∃ p n t, (database source time).run (0, .empty)
            (Pipeline.catchUp limit (.ofSettings s window) .start) = ((none, p), (n, t)) ∧
          (steps ≤ limit → (t.position? s).getD s.genesisSlot = stuck)) := by
  constructor
  · intro hfitting
    obtain ⟨steps, report, p, n, t, hrun, hreport, hstands⟩ :=
      (afoot_start s window).catchUp time 0 .start fun ahead low =>
        by_contra fun high => hfitting ⟨ahead, low, high⟩
    exact ⟨steps, report, p, n, t, hrun, hreport, hstands.position?⟩
  · rintro ⟨ahead, low, high⟩
    obtain ⟨stuck, steps, hstuck, hlow, hhigh, hrun⟩ :=
      (afoot_start s window).catchUp_of_crossing time 0 .start ahead low high
    refine ⟨stuck, steps, hstuck, hlow, hhigh, fun limit => ?_⟩
    obtain ⟨p, n, t, hnone, hafoot⟩ := hrun limit
    exact ⟨p, n, t, hnone, fun hsteps => (hafoot hsteps).position?⟩

def onTheEdge : Settings :=
  { Settings.default with
    genesisSlot := 9223372036854775807
    batchSize := 1
    classifier := ⟨["11111111111111111111111111111111"], 0, [1]⟩ }

/-- A source whose head is the first slot of the high half, and which has no blocks. -/
def overTheEdge : Answers
  | .head => (9223372036854775808 : Slot)
  | .slots _ _ _ => []
  | .resolve _ => .absent

/-- One slot is left, and it is never reached. -/
theorem one_slot_never_reached :
    onTheEdge.flaw? = none ∧ onTheEdge.genesisSlot < overTheEdge .head ∧
      ∀ (window : ChainWindow) (time : Nat → Int) (limit : Nat),
        ((database overTheEdge time).run (0, .empty)
          (Pipeline.catchUp limit (.ofSettings onTheEdge window) .start)).1.1 = none := by
  refine ⟨by decide +kernel, by decide, fun window time limit => ?_⟩
  have ahead : onTheEdge.Ahead (overTheEdge .head) onTheEdge.genesisSlot := by
    unfold Settings.Ahead
    decide
  obtain ⟨p, n, t, hrun, -⟩ :=
    (afoot_start onTheEdge window).catchUp_of_refused time 0 .start ahead
    (by decide) (by decide) limit
  rw [hrun]

end Ingestion

end RouterHistory
