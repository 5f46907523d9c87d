import RouterHistory.Proofs.Store.LedgerWrites
import RouterHistory.Proofs.Store.TableCommits

/-!
Rows that are written a second time, in tables with whole seconds. The row that was written is
read back with its time cut to the second, and it is that row with which the second writing is
compared. So a row is found to be there already if its time has no fraction, and otherwise it is
overwritten each time and is provisional again.
-/
namespace RouterHistory

def Instant.cut (i : Instant) : Instant := ⟨i.seconds, 0, i.inRange, .inl (by decide)⟩

theorem Instant.cut_eq_self {i : Instant} : i.cut = i ↔ i.IsWhole := by
  constructor
  · intro h
    exact (congrArg Instant.nanos h).symm
  · intro h
    obtain ⟨seconds, nanos, hrange, hfit⟩ := i
    cases (h : nanos = 0)
    rfl

def Record.cut (r : Record) : Record := { r with timestamp := r.timestamp.cut }

theorem Record.cut_eq_self {r : Record} : r.cut = r ↔ r.timestamp.IsWhole := by
  refine ⟨fun h => Instant.cut_eq_self.1 (congrArg Record.timestamp h), fun h => ?_⟩
  unfold cut
  rw [Instant.cut_eq_self.2 h]

/-- Only the fraction of a second is lost in the columns. -/
theorem HistoryRow.record_ofRecord_eq_cut (r : Record) :
    (ofRecord .seconds r).record .seconds r.signature = .ok r.cut := by
  have htime : TimePrecision.seconds.decode? r.timestamp.seconds = some r.timestamp.cut :=
    Instant.ofParts?_eq_some_iff.2 ⟨rfl, rfl⟩
  have hversion : UInt16.ofNat (Int.toNat r.routerVersion.toNat) = r.routerVersion := by simp
  unfold record ofRecord
  simp only [TimePrecision.encode, htime, hversion]
  rfl

/-- A record that was read has no fraction of a second. -/
theorem HistoryRow.isWhole_of_record {row : HistoryRow} {S : Signature} {r : Record}
    (h : row.record .seconds S = .ok r) : r.timestamp.IsWhole := by
  unfold record at h
  cases hread : TimePrecision.seconds.decode? row.time with
  | none =>
    rw [hread] at h
    cases h
  | some timestamp =>
    rw [hread] at h
    cases h
    exact (Instant.ofParts?_eq_some_iff.1 hread).2

namespace Tables

variable {t t₁ : Tables} {e : Entry}

/-- The entry was written: its row is read back without the fraction, and if it is provisional,
then at the slot of the entry. -/
structure Bears (t : Tables) (e : Entry) : Prop where
  row : t.record? .seconds e.signature = .ok (some e.record.cut)
  mark : ∀ column, t.provisional[e.signature]? = some column → column = e.slot.toInt64

theorem bears_put (t : Tables) (e : Entry) : (t.put .seconds e).Bears e where
  row := by
    have hrow : (t.put .seconds e).history[e.signature]? = some (.ofRecord .seconds e.record) :=
      Std.ExtTreeMap.getElem?_insert_self
    unfold record?
    rw [hrow]
    exact congrArg (Except.map some) (HistoryRow.record_ofRecord_eq_cut e.record)
  mark := by
    intro column hcolumn
    have hmark : (t.put .seconds e).provisional[e.signature]? = some e.slot.toInt64 :=
      Std.ExtTreeMap.getElem?_insert_self
    exact Option.some.inj (hcolumn.symm.trans hmark)

theorem record?_moveMark (p : TimePrecision) (S S' : Signature) (slot : Slot) :
    (t.moveMark S slot).record? p S' = t.record? p S' := by
  unfold record?
  rw [history_moveMark]

theorem bears_moveMark (h : t.record? .seconds e.signature = .ok (some e.record.cut)) :
    (t.moveMark e.signature e.slot).Bears e where
  row := (record?_moveMark ..).trans h
  mark := by
    intro column hcolumn
    unfold moveMark at hcolumn
    split at hcolumn
    · rw [Std.ExtTreeMap.getElem?_insert_self] at hcolumn
      exact (Option.some.inj hcolumn).symm
    · next hmissing =>
      rw [Std.ExtTreeMap.getElem?_eq_none hmissing] at hcolumn
      cases hcolumn

/-- A row that is there already is there with a whole second. -/
theorem cut_of_record? (h : t.record? .seconds e.signature = .ok (some e.record)) :
    e.record.cut = e.record := by
  unfold record? at h
  cases hrow : t.history[e.signature]? with
  | none =>
    rw [hrow] at h
    cases h
  | some row =>
    rw [hrow] at h
    cases hread : row.record .seconds e.signature with
    | error f =>
      simp only [hread] at h
      cases h
    | ok r =>
      simp only [hread] at h
      cases h
      exact Record.cut_eq_self.2 (HistoryRow.isWhole_of_record hread)

/-- Writing an entry leaves it written. -/
theorem bears_upsert {outcome : WriteOutcome} (h : t.upsert .seconds e = .ok (outcome, t₁)) :
    t₁.Bears e := by
  unfold upsert at h
  cases hstored : t.record? .seconds e.signature with
  | error f =>
    rw [hstored] at h
    cases h
  | ok stored =>
    rw [hstored] at h
    cases hdecide : WriteOutcome.decide stored e.record with
    | unchanged =>
      simp only [hdecide] at h
      cases h
      obtain rfl := WriteOutcome.decide_eq_unchanged.1 hdecide
      refine bears_moveMark ?_
      rw [cut_of_record? hstored]
      exact hstored
    | inserted =>
      simp only [hdecide] at h
      cases h
      exact bears_put t e
    | overwritten =>
      simp only [hdecide] at h
      cases h
      exact bears_put t e

theorem unreadable_of_upsert {f : Failure} (h : t.upsert .seconds e = .error f) :
    ∃ row, t.history[e.signature]? = some row ∧ ¬ Instant.InRange row.time ∧
      f = HistoryRow.invalidTime row.time := by
  unfold upsert at h
  cases hstored : t.record? .seconds e.signature with
  | ok stored =>
    rw [hstored] at h
    simp only at h
    split at h <;> cases h
  | error failure =>
    rw [hstored] at h
    cases h
    unfold record? at hstored
    cases hrow : t.history[e.signature]? with
    | none =>
      rw [hrow] at hstored
      cases hstored
    | some row =>
      simp only [hrow] at hstored
      unfold HistoryRow.record at hstored
      cases hread : TimePrecision.seconds.decode? row.time with
      | none =>
        rw [hread] at hstored
        cases hstored
        exact ⟨row, rfl, Instant.ofSeconds?_eq_none_iff.1 hread, rfl⟩
      | some timestamp =>
        rw [hread] at hstored
        cases hstored

theorem Bears.finalizeThrough (h : t.Bears e) (boundary : Slot) :
    (t.finalizeThrough boundary).2.Bears e where
  row := h.row
  mark := by
    intro column hcolumn
    unfold Tables.finalizeThrough at hcolumn
    rw [Std.ExtTreeMap.getElem?_filter'] at hcolumn
    exact h.mark column (Option.filter_eq_some_iff.1 hcolumn).1

def finalizedThrough (t : Tables) (boundaries : List Slot) : Tables :=
  boundaries.foldl (fun t boundary => (t.finalizeThrough boundary).2) t

theorem Bears.finalizedThrough (h : t.Bears e) (boundaries : List Slot) :
    (t.finalizedThrough boundaries).Bears e := by
  induction boundaries generalizing t with
  | nil => exact h
  | cons boundary rest ih => exact ih (h.finalizeThrough boundary)

/-- A mark that is there is at the slot of the entry already. -/
theorem Bears.moveMark_eq_self (h : t.Bears e) : t.moveMark e.signature e.slot = t := by
  unfold moveMark
  split
  · next hmarked =>
    obtain ⟨column, hcolumn⟩ :=
      Option.isSome_iff_exists.1 (Std.ExtTreeMap.mem_iff_isSome_getElem?.1 hmarked)
    have hsame : t.provisional.insert e.signature e.slot.toInt64 = t.provisional := by
      refine Std.ExtTreeMap.ext_getElem? fun S => ?_
      rw [Std.ExtTreeMap.getElem?_insert]
      split
      · next hS =>
        rw [← Std.LawfulEqOrd.eq_of_compare hS, hcolumn, h.mark column hcolumn]
      · rfl
    rw [hsame]
  · rfl

/-- With a whole second, nothing is written. -/
theorem Bears.upsert_of_isWhole (h : t.Bears e) (whole : e.record.timestamp.IsWhole) :
    t.upsert .seconds e = .ok (.unchanged, t) := by
  have hsame : WriteOutcome.decide (some e.record.cut) e.record = .unchanged :=
    WriteOutcome.decide_eq_unchanged.2 (congrArg some (Record.cut_eq_self.2 whole))
  unfold upsert
  rw [h.row]
  simp only [hsame, h.moveMark_eq_self]

/-- With a fraction, the row is written as it was and its mark anew. -/
theorem Bears.upsert_of_not_isWhole (h : t.Bears e) (fraction : ¬ e.record.timestamp.IsWhole) :
    t.upsert .seconds e = .ok (.overwritten, t.put .seconds e) := by
  have hother : WriteOutcome.decide (some e.record.cut) e.record = .overwritten :=
    if_neg (mt Record.cut_eq_self.1 fraction)
  unfold upsert
  rw [h.row]
  simp only [hother]

theorem lifecycle_put (t : Tables) (e : Entry) :
    (t.put .seconds e).lifecycle e.signature = .provisional :=
  if_pos Std.ExtTreeMap.mem_insert_self

/-- The first writing of an entry fails only where a row is stored that cannot be read. However
the tables are finalised after it, the second one leaves them exactly as they are if the time of
the record has no fraction of a second. If it has one, the second writing overwrites the row with
what can be read from it already, and makes it provisional. -/
theorem upsert_idempotent_iff_whole (t : Tables) (e : Entry) :
    (∃ row, t.history[e.signature]? = some row ∧ ¬ Instant.InRange row.time ∧
      t.upsert .seconds e = .error (HistoryRow.invalidTime row.time)) ∨
    ∃ outcome t₁, t.upsert .seconds e = .ok (outcome, t₁) ∧ ∀ boundaries,
      (e.record.timestamp.IsWhole → (t₁.finalizedThrough boundaries).upsert .seconds e =
        .ok (.unchanged, t₁.finalizedThrough boundaries)) ∧
      (¬ e.record.timestamp.IsWhole →
        ∃ t₂, (t₁.finalizedThrough boundaries).upsert .seconds e = .ok (.overwritten, t₂) ∧
          t₂.record? .seconds e.signature =
            (t₁.finalizedThrough boundaries).record? .seconds e.signature ∧
          t₂.lifecycle e.signature = .provisional) := by
  cases hfirst : t.upsert .seconds e with
  | ok written =>
    obtain ⟨outcome, t₁⟩ := written
    refine .inr ⟨outcome, t₁, rfl, fun boundaries => ?_⟩
    have hbears := (bears_upsert hfirst).finalizedThrough boundaries
    refine ⟨hbears.upsert_of_isWhole, fun fraction => ?_⟩
    exact ⟨_, hbears.upsert_of_not_isWhole fraction, (bears_put _ e).row.trans hbears.row.symm,
      lifecycle_put _ e⟩
  | error f =>
    obtain ⟨row, hrow, hrange, rfl⟩ := unreadable_of_upsert hfirst
    exact .inl ⟨row, hrow, hrange, rfl⟩

def halfPast : Entry where
  record := ⟨⟨String.ofList (List.replicate 64 '1')⟩,
    ⟨1700000000, 500000000, by decide, by decide⟩, true, 1⟩
  slot := 5

/-- A row that was final is overwritten with itself and is provisional again. -/
theorem half_second_is_rewritten :
    ∃ t₁ t₂, empty.upsert .seconds halfPast = .ok (.inserted, t₁) ∧
      (t₁.finalizeThrough 10).2.lifecycle halfPast.signature = .final ∧
      (t₁.finalizeThrough 10).2.upsert .seconds halfPast = .ok (.overwritten, t₂) ∧
      t₂.lifecycle halfPast.signature = .provisional := by
  have hfirst : empty.upsert .seconds halfPast =
      .ok (.inserted, empty.put .seconds halfPast) := by
    unfold upsert record? empty
    rw [Std.ExtTreeMap.getElem?_empty]
    rfl
  have hsecond := ((bears_put empty halfPast).finalizeThrough 10).upsert_of_not_isWhole
      (by decide)
  exact ⟨_, _, hfirst, by decide +kernel, hsecond, lifecycle_put _ halfPast⟩

end Tables

end RouterHistory
