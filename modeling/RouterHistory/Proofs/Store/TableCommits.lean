import RouterHistory.Store.Tables

/-!
Batches in tables with whole seconds. Rows that were written can be read again, so writing a batch
fails for one reason only: the move of its checkpoint is refused. The conditional update compares
columns, and columns have a sign.
-/
namespace RouterHistory

/-- A time that an instant has is read. -/
theorem HistoryRow.record_of_inRange {row : HistoryRow} (h : Instant.InRange row.time)
    (S : Signature) : ∃ r, row.record .seconds S = .ok r := by
  unfold record
  cases hread : TimePrecision.seconds.decode? row.time with
  | none => exact absurd h (Instant.ofSeconds?_eq_none_iff.1 hread)
  | some timestamp => exact ⟨_, rfl⟩

namespace Tables

def Legible (t : Tables) : Prop :=
  ∀ (S : Signature) (row : HistoryRow), t.history[S]? = some row → Instant.InRange row.time

variable {t : Tables}

theorem legible_empty : empty.Legible := by
  intro S row hrow
  unfold empty at hrow
  rw [Std.ExtTreeMap.getElem?_empty] at hrow
  cases hrow

theorem Legible.record? (h : t.Legible) (S : Signature) :
    ∃ stored, t.record? .seconds S = .ok stored := by
  unfold Tables.record?
  cases hrow : t.history[S]? with
  | none => exact ⟨none, rfl⟩
  | some row =>
    obtain ⟨r, hr⟩ := HistoryRow.record_of_inRange (h S row hrow) S
    simp only [hr]
    exact ⟨some r, rfl⟩

theorem Legible.put (h : t.Legible) (e : Entry) : (t.put .seconds e).Legible := by
  intro S row hrow
  unfold Tables.put at hrow
  rw [Std.ExtTreeMap.getElem?_insert] at hrow
  split at hrow
  · cases hrow
    exact e.record.timestamp.inRange
  · exact h S row hrow

theorem history_moveMark (S : Signature) (slot : Slot) :
    (t.moveMark S slot).history = t.history := by
  unfold moveMark
  split <;> rfl

theorem checkpoints_moveMark (S : Signature) (slot : Slot) :
    (t.moveMark S slot).checkpoints = t.checkpoints := by
  unfold moveMark
  split <;> rfl

/-- A row is always written, and nothing happens to the checkpoints. -/
theorem Legible.upsert (h : t.Legible) (e : Entry) :
    ∃ outcome t', t.upsert .seconds e = .ok (outcome, t') ∧ t'.Legible ∧
      t'.checkpoints = t.checkpoints := by
  obtain ⟨stored, hstored⟩ := h.record? e.signature
  unfold Tables.upsert
  rw [hstored]
  simp only
  cases WriteOutcome.decide stored e.record with
  | unchanged =>
    refine ⟨_, _, rfl, ?_, checkpoints_moveMark e.signature e.slot⟩
    intro S row hrow
    rw [history_moveMark] at hrow
    exact h S row hrow
  | inserted => exact ⟨_, _, rfl, h.put e, rfl⟩
  | overwritten => exact ⟨_, _, rfl, h.put e, rfl⟩

theorem Legible.upsertFrom (h : t.Legible) (tally : Tally) (entries : List Entry) :
    ∃ tally' t', t.upsertFrom .seconds tally entries = .ok (tally', t') ∧ t'.Legible ∧
      t'.checkpoints = t.checkpoints := by
  induction entries generalizing t tally with
  | nil => exact ⟨tally, t, rfl, h, rfl⟩
  | cons e rest ih =>
    obtain ⟨outcome, t₁, hfirst, hlegible, hcheckpoints⟩ := h.upsert e
    obtain ⟨tally', t', hrest, hlegible', hcheckpoints'⟩ := ih hlegible (tally.count outcome)
    refine ⟨tally', t', ?_, hlegible', hcheckpoints'.trans hcheckpoints⟩
    unfold Tables.upsertFrom
    rw [hfirst]
    exact hrest

variable {c : Commit} {m : Move} {row : CheckpointRow} (now : Int)

theorem update?_eq_some (hslot : row.slot = m.expected.toInt64)
    (forward : m.expected.toInt64 < m.target.toInt64) :
    CheckpointRow.update? row m now = some ⟨m.target.toInt64, row.revision + 1, now⟩ :=
  if_pos ⟨hslot, hslot ▸ forward⟩

theorem update?_eq_none (backward : ¬ row.slot < m.target.toInt64) :
    CheckpointRow.update? row m now = none :=
  if_neg fun h => backward h.2

/-- Where the column goes up, the batch is stored. -/
theorem Legible.commit (h : t.Legible) (hmove : c.move = some m)
    (hrow : t.checkpoints[m.pipelineId]? = some row) (hslot : row.slot = m.expected.toInt64)
    (forward : m.expected.toInt64 < m.target.toInt64) :
    ∃ tally next t', t.commit .seconds now c = .ok (⟨tally, some next⟩, t') ∧
      next.slot = m.target ∧ t'.Legible ∧
      ∃ moved, t'.checkpoints[m.pipelineId]? = some moved ∧ moved.slot = m.target.toInt64 := by
  let moved : CheckpointRow := ⟨m.target.toInt64, row.revision + 1, now⟩
  let t₁ : Tables := { t with checkpoints := t.checkpoints.insert m.pipelineId moved }
  have hadvance : t.advanceBy now c.move = .ok (some (moved.checkpoint m.pipelineId), t₁) := by
    unfold advanceBy advance
    rw [hmove]
    simp only [hrow, update?_eq_some now hslot forward]
    rfl
  have hlegible : t₁.Legible := h
  obtain ⟨tally, t₂, hrows, hlegible', hcheckpoints⟩ := hlegible.upsertFrom .zero c.entries
  refine ⟨{ tally with quarantined := .ofNat c.quarantined.length },
    moved.checkpoint m.pipelineId, t₂.quarantineAll c.quarantined, ?_,
    UInt64.toUInt64_toInt64 m.target, hlegible', moved, ?_, rfl⟩
  · unfold Tables.commit
    simp only [hadvance, hrows]
  · have hkept : (t₂.quarantineAll c.quarantined).checkpoints = t₁.checkpoints := hcheckpoints
    rw [hkept]
    exact Std.ExtTreeMap.getElem?_insert_self

/-- Where it does not, the batch is refused as a whole, for a stale checkpoint. -/
theorem commit_of_backward (p : TimePrecision) (hmove : c.move = some m)
    (hrow : t.checkpoints[m.pipelineId]? = some row) (backward : ¬ row.slot < m.target.toInt64) :
    t.commit p now c = .error (.staleCheckpoint row.slot.toUInt64 m.target) := by
  have hadvance : t.advanceBy now c.move =
      .error (.staleCheckpoint row.slot.toUInt64 m.target) := by
    unfold advanceBy advance
    rw [hmove]
    simp only [hrow, update?_eq_none now backward]
    rfl
  unfold Tables.commit
  rw [hadvance]

end Tables

end RouterHistory
