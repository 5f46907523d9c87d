import RouterHistory.Proofs.Store.Attained
import RouterHistory.Store.Tables

/-!
The tables that hold a ledger in a database with whole seconds. A column is read back as it was
written, and columns are in the order of what they hold as long as slots leave the sign bit free.
So every call is answered alike from the ledger and from its tables, and leaves the tables of the
ledger that it leads to.
-/
namespace RouterHistory

/-- Below 2^63, so that a column keeps the order. -/
def Slot.FitsColumn (slot : Slot) : Prop := slot < 9223372036854775808

instance (slot : Slot) : Decidable slot.FitsColumn := inferInstanceAs (Decidable (_ < _))

theorem Slot.toInt_toInt64 {slot : Slot} (h : slot.FitsColumn) :
    slot.toInt64.toInt = slot.toNat := by
  have hlow : slot.toNat < 9223372036854775808 := UInt64.lt_iff_toNat_lt.1 h
  have htwice : 2 * slot.toBitVec.toNat < 18446744073709551616 := by
    rw [UInt64.toNat_toBitVec]
    omega
  exact BitVec.toInt_eq_toNat_of_lt htwice

theorem Slot.toInt64_lt_iff {a b : Slot} (ha : a.FitsColumn) (hb : b.FitsColumn) :
    a.toInt64 < b.toInt64 ↔ a < b := by
  rw [Int64.lt_iff_toInt_lt, toInt_toInt64 ha, toInt_toInt64 hb, UInt64.lt_iff_toNat_lt]
  omega

theorem Slot.toInt64_inj {a b : Slot} : a.toInt64 = b.toInt64 ↔ a = b := by
  constructor
  · intro h
    rw [← a.toUInt64_toInt64, h, b.toUInt64_toInt64]
  · intro h
    rw [h]

section Map

variable {κ β γ : Type} [Ord κ] [Std.TransOrd κ] [Std.LawfulEqOrd κ]
  (table : Std.ExtTreeMap κ β) (f : κ → β → γ)

theorem map_insert (k : κ) (b : β) :
    (table.insert k b).map f = (table.map f).insert k (f k b) := by
  refine Std.ExtTreeMap.ext_getElem? fun k' => ?_
  rw [Std.ExtTreeMap.getElem?_map, Std.ExtTreeMap.getElem?_insert, Std.ExtTreeMap.getElem?_insert,
    Std.ExtTreeMap.getElem?_map]
  by_cases h : k = k'
  · subst h
    simp
  · simp [h]

theorem map_erase (k : κ) : (table.erase k).map f = (table.map f).erase k := by
  refine Std.ExtTreeMap.ext_getElem? fun k' => ?_
  rw [Std.ExtTreeMap.getElem?_map, Std.ExtTreeMap.getElem?_erase, Std.ExtTreeMap.getElem?_erase,
    Std.ExtTreeMap.getElem?_map]
  split <;> rfl

theorem map_filter {p : κ → β → Bool} {q : κ → γ → Bool}
    (h : ∀ k b, table[k]? = some b → p k b = q k (f k b)) :
    (table.filter p).map f = (table.map f).filter q := by
  refine Std.ExtTreeMap.ext_getElem? fun k => ?_
  rw [Std.ExtTreeMap.getElem?_map, Std.ExtTreeMap.getElem?_filter',
    Std.ExtTreeMap.getElem?_filter', Std.ExtTreeMap.getElem?_map]
  cases hk : table[k]? with
  | none => rfl
  | some b =>
    simp only [Option.map_some, Option.filter_some, h k b hk]
    split <;> rfl

end Map

def CheckpointRow.ofCheckpoint (c : Checkpoint) : CheckpointRow :=
  ⟨c.slot.toInt64, c.revision.toInt64, c.updatedAt⟩

/-- A checkpoint is read back as it was written. -/
theorem CheckpointRow.checkpoint_ofCheckpoint (c : Checkpoint) :
    (ofCheckpoint c).checkpoint c.pipelineId = c := by
  simp [ofCheckpoint, checkpoint]

theorem QuarantineRow.quarantined_ofQuarantined (q : Quarantined) :
    (ofQuarantined q).quarantined q.signature = q := by
  simp [ofQuarantined, quarantined]

/-- A record is read back if its time has no fraction of a second. -/
theorem HistoryRow.record_ofRecord {row : Record} (h : row.timestamp.IsWhole) :
    (ofRecord .seconds row).record .seconds row.signature = .ok row := by
  simp [ofRecord, record, TimePrecision.encode, TimePrecision.decode?,
    Instant.ofSeconds?_seconds h]

namespace Ledger

def tables (l : Ledger) : Tables where
  history := l.rows.map fun _ row => .ofRecord .seconds row
  provisional := l.marks.map fun _ slot => slot.toInt64
  quarantine := l.quarantine.map fun _ q => .ofQuarantined q
  checkpoints := l.checkpoints.map fun _ c => .ofCheckpoint c

/-- Whole seconds and slots that fit, so that nothing is lost in the tables. -/
abbrev Plain (l : Ledger) : Prop := l.Holds (fun row => row.timestamp.IsWhole) Slot.FitsColumn

variable {l : Ledger}

theorem tables_empty : empty.tables = .empty := rfl

theorem getElem?_checkpoints_tables (id : String) :
    l.tables.checkpoints[id]? = l.checkpoints[id]?.map .ofCheckpoint :=
  Std.ExtTreeMap.getElem?_map

theorem getElem?_history_tables (S : Signature) :
    l.tables.history[S]? = l.rows[S]?.map (.ofRecord .seconds) :=
  Std.ExtTreeMap.getElem?_map

theorem getElem?_provisional_tables (S : Signature) :
    l.tables.provisional[S]? = l.marks[S]?.map UInt64.toInt64 :=
  Std.ExtTreeMap.getElem?_map

theorem tables_storeCheckpoint (c : Checkpoint) : (l.storeCheckpoint (some c)).tables =
    { l.tables with
      checkpoints := l.tables.checkpoints.insert c.pipelineId (.ofCheckpoint c) } := by
  unfold storeCheckpoint tables
  rw [map_insert]

theorem Plain.checkpoint?_tables (h : l.Plain) (id : String) :
    l.tables.checkpoint? id = l.checkpoints[id]? := by
  unfold Tables.checkpoint?
  rw [getElem?_checkpoints_tables]
  cases hc : l.checkpoints[id]? with
  | none => rfl
  | some c =>
    have hid : c.pipelineId = id := (h.checkpoint id c hc).1
    rw [Option.map_some, Option.map_some, ← hid, CheckpointRow.checkpoint_ofCheckpoint]

theorem Plain.start_tables (h : l.Plain) (id : String) (genesis : Slot) (now : Int) :
    l.tables.start id genesis now =
      ((l.checkpoints.start id genesis now).1,
        tables { l with checkpoints := (l.checkpoints.start id genesis now).2 }) := by
  unfold Tables.start Checkpoints.start
  rw [getElem?_checkpoints_tables]
  cases hc : l.checkpoints[id]? with
  | none =>
    exact Prod.ext (CheckpointRow.checkpoint_ofCheckpoint (.genesis id genesis now))
      (l.tables_storeCheckpoint (.genesis id genesis now)).symm
  | some c =>
    have hid : c.pipelineId = id := (h.checkpoint id c hc).1
    simp only [Option.map_some]
    rw [← hid, CheckpointRow.checkpoint_ofCheckpoint]

theorem Plain.advance_tables (h : l.Plain) {m : Move} (htarget : m.target.FitsColumn)
    (now : Int) :
    l.tables.advance m now = (l.checkpoints.after m now).map fun c =>
      (c, (l.storeCheckpoint (some c)).tables) := by
  unfold Tables.advance Checkpoints.after
  rw [getElem?_checkpoints_tables]
  cases hc : l.checkpoints[m.pipelineId]? with
  | none => rfl
  | some c =>
    obtain ⟨hid, hslot⟩ := h.checkpoint _ c hc
    have hmoves : (CheckpointRow.ofCheckpoint c).slot = m.expected.toInt64 ∧
        (CheckpointRow.ofCheckpoint c).slot < m.target.toInt64 ↔
        c.slot = m.expected ∧ c.slot < m.target :=
      and_congr Slot.toInt64_inj (Slot.toInt64_lt_iff hslot htarget)
    simp only [Option.map_some, Tables.CheckpointRow.update?, Checkpoint.moved]
    by_cases hmove : c.slot = m.expected ∧ c.slot < m.target
    · let next : Checkpoint :=
        { c with slot := m.target, revision := c.revision + 1, updatedAt := now }
      have hnext : CheckpointRow.mk m.target.toInt64 ((CheckpointRow.ofCheckpoint c).revision + 1)
          now = .ofCheckpoint next := by
        simp [CheckpointRow.ofCheckpoint, next]
      rw [if_pos hmove, if_pos (hmoves.2 hmove), hnext, ← hid]
      exact congrArg Except.ok (Prod.ext (CheckpointRow.checkpoint_ofCheckpoint next)
        (l.tables_storeCheckpoint next).symm)
    · rw [if_neg hmove, if_neg (mt hmoves.1 hmove)]
      simp [CheckpointRow.ofCheckpoint, Except.map]

theorem Plain.advanceBy_tables (h : l.Plain) {move : Option Move}
    (htarget : ∀ m ∈ move, m.target.FitsColumn) (now : Int) :
    l.tables.advanceBy now move = (l.checkMove now move).map fun next =>
      (next, (l.storeCheckpoint next).tables) := by
  cases move with
  | none => rfl
  | some m =>
    change Except.map _ (l.tables.advance m now) =
      Except.map _ (Except.map some (l.checkpoints.after m now))
    rw [h.advance_tables (htarget m rfl)]
    cases l.checkpoints.after m now <;> rfl

theorem Plain.record?_tables (h : l.Plain) (S : Signature) :
    l.tables.record? .seconds S = .ok l.rows[S]? := by
  unfold Tables.record?
  rw [getElem?_history_tables]
  cases hrow : l.rows[S]? with
  | none => rfl
  | some row =>
    obtain ⟨hsame, hwhole⟩ := h.row S row hrow
    simp only [Option.map_some]
    rw [← hsame, HistoryRow.record_ofRecord hwhole]
    rfl

theorem tables_moveMark (S : Signature) (slot : Slot) :
    (l.moveMark S slot).tables = l.tables.moveMark S slot := by
  have hmem : S ∈ l.tables.provisional ↔ S ∈ l.marks := Std.ExtTreeMap.mem_map
  unfold moveMark Tables.moveMark
  simp only [hmem]
  split
  · unfold tables
    rw [map_insert]
  · rfl

theorem tables_put (e : Entry) : (l.put e).tables = l.tables.put .seconds e := by
  unfold put Tables.put tables
  rw [map_insert, map_insert]

theorem Plain.upsert_tables (h : l.Plain) (e : Entry) :
    l.tables.upsert .seconds e = .ok ((l.upsert e).1, (l.upsert e).2.tables) := by
  unfold Tables.upsert Ledger.upsert
  rw [h.record?_tables]
  simp only
  cases WriteOutcome.decide l.rows[e.signature]? e.record with
  | unchanged => rw [tables_moveMark]
  | inserted => simp only [tables_put]
  | overwritten => simp only [tables_put]

theorem Plain.upsertFrom_tables (h : l.Plain) {entries : List Entry}
    (hwhole : ∀ e ∈ entries, e.record.timestamp.IsWhole)
    (hfits : ∀ e ∈ entries, e.slot.FitsColumn) (tally : Tally) :
    l.tables.upsertFrom .seconds tally entries =
      .ok ((upsertFrom tally l entries).1, (upsertFrom tally l entries).2.tables) := by
  induction entries generalizing l tally with
  | nil => rfl
  | cons e rest ih =>
    have hfirst : (l.upsert e).2.Plain :=
      h.upsert (hwhole e (List.mem_cons_self ..)) (hfits e (List.mem_cons_self ..))
    unfold Tables.upsertFrom upsertFrom
    rw [h.upsert_tables]
    exact ih hfirst (fun e' he' => hwhole e' (List.mem_cons_of_mem e he'))
      (fun e' he' => hfits e' (List.mem_cons_of_mem e he')) _

theorem tables_quarantineAll (entries : List Quarantined) :
    (l.quarantineAll entries).tables = l.tables.quarantineAll entries := by
  induction entries generalizing l with
  | nil => rfl
  | cons q rest ih =>
    have hfirst : (l.quarantineAll [q]).tables = l.tables.quarantineAll [q] := by
      simp [quarantineAll, Tables.quarantineAll, tables, map_insert]
    have hrest := ih (l := l.quarantineAll [q])
    rw [hfirst] at hrest
    exact hrest

def onto (l : Ledger) (checkpoints : Checkpoints) : Ledger := { l with checkpoints }

theorem moveMark_onto (cs : Checkpoints) (S : Signature) (slot : Slot) :
    (l.onto cs).moveMark S slot = (l.moveMark S slot).onto cs := by
  unfold moveMark
  by_cases hmark : S ∈ l.marks
  · rw [if_pos hmark]
    exact if_pos hmark
  · rw [if_neg hmark]
    exact if_neg hmark

/-- Writing a row has nothing to do with checkpoints. -/
theorem upsert_onto (cs : Checkpoints) (e : Entry) :
    (l.onto cs).upsert e = ((l.upsert e).1, (l.upsert e).2.onto cs) := by
  have hrows : (l.onto cs).rows = l.rows := rfl
  unfold upsert
  rw [hrows]
  cases WriteOutcome.decide l.rows[e.signature]? e.record with
  | unchanged => exact congrArg (WriteOutcome.unchanged, ·) (moveMark_onto cs e.signature e.slot)
  | inserted => rfl
  | overwritten => rfl

theorem upsertFrom_onto (cs : Checkpoints) (entries : List Entry) (tally : Tally) :
    upsertFrom tally (l.onto cs) entries =
      ((upsertFrom tally l entries).1, (upsertFrom tally l entries).2.onto cs) := by
  induction entries generalizing l tally with
  | nil => rfl
  | cons e rest ih =>
    unfold upsertFrom
    rw [upsert_onto]
    exact ih _

theorem storeCheckpoint_eq_onto {l' : Ledger} (h : l'.checkpoints = l.checkpoints)
    (next : Option Checkpoint) :
    l'.storeCheckpoint next = l'.onto (l.storeCheckpoint next).checkpoints := by
  cases next with
  | none =>
    have hsame : (l.storeCheckpoint none).checkpoints = l'.checkpoints := h.symm
    rw [hsame]
    rfl
  | some c =>
    unfold storeCheckpoint onto
    rw [h]

/-- A checkpoint may be stored before the rows or after them. -/
theorem storeCheckpoint_upsertAll (next : Option Checkpoint) (entries : List Entry) :
    (l.storeCheckpoint next).upsertAll entries =
      ((l.upsertAll entries).1, (l.upsertAll entries).2.storeCheckpoint next) := by
  have hkept : (l.upsertAll entries).2.checkpoints = l.checkpoints := by
    rw [upsertAll_snd, checkpoints_written]
  rw [storeCheckpoint_eq_onto hkept, storeCheckpoint_eq_onto rfl]
  exact upsertFrom_onto _ entries .zero

theorem quarantineAll_storeCheckpoint (next : Option Checkpoint) (entries : List Quarantined) :
    (l.storeCheckpoint next).quarantineAll entries =
      (l.quarantineAll entries).storeCheckpoint next := by
  cases next <;> rfl

theorem Plain.commit_tables (h : l.Plain) {c : Commit} (now : Int)
    (hwhole : ∀ row ∈ (StoreCall.commit c).records, row.timestamp.IsWhole)
    (hfits : ∀ slot ∈ (StoreCall.commit c).slots, slot.FitsColumn) :
    l.tables.commit .seconds now c =
      (l.commit now c).1.map fun receipt => (receipt, (l.commit now c).2.tables) := by
  simp only [StoreCall.slots, List.mem_append, List.mem_map, List.mem_flatMap,
    Option.mem_toList] at hfits
  have htarget : ∀ m ∈ c.move, m.target.FitsColumn := fun m hm =>
    hfits _ (.inr ⟨m, hm, by simp⟩)
  have hentries : ∀ e ∈ c.entries, e.slot.FitsColumn := fun e he =>
    hfits _ (.inl (.inl ⟨e, he, rfl⟩))
  unfold Tables.commit Ledger.commit
  rw [h.advanceBy_tables htarget]
  cases hmove : l.checkMove now c.move with
  | error f => rfl
  | ok next =>
    have hstored : (l.storeCheckpoint next).Plain :=
      h.storeCheckpoint (slot_of_checkMove hmove htarget)
    simp only [Except.map]
    -- The tables move the checkpoint before they write rows, the ledger does it last.
    have hupsert := l.storeCheckpoint_upsertAll next c.entries
    unfold upsertAll at hupsert
    rw [hstored.upsertFrom_tables (fun e he => hwhole _ (List.mem_map_of_mem he))
      hentries, hupsert]
    simp only
    rw [← tables_quarantineAll, quarantineAll_storeCheckpoint]
    rfl

theorem Plain.tables_filter (h : l.Plain) {boundary : Slot} (hboundary : boundary.FitsColumn) :
    (l.marks.filter fun _ slot => boundary < slot).map (fun _ slot => slot.toInt64) =
      l.tables.provisional.filter fun _ column => boundary.toInt64 < column := by
  refine map_filter _ _ fun S slot hslot => ?_
  rw [decide_eq_decide, Slot.toInt64_lt_iff hboundary (h.mark S slot hslot)]

theorem Plain.finalizeThrough_tables (h : l.Plain) {boundary : Slot}
    (hboundary : boundary.FitsColumn) :
    l.tables.finalizeThrough boundary =
      ((l.finalizeThrough boundary).1, (l.finalizeThrough boundary).2.tables) := by
  have hsize : l.tables.provisional.size = l.marks.size := Std.ExtTreeMap.size_map
  unfold Tables.finalizeThrough Ledger.finalizeThrough
  simp only [← h.tables_filter hboundary, Std.ExtTreeMap.size_map, hsize]
  rfl

theorem orphan_tables (S : Signature) (slot : Slot) :
    l.tables.orphan S slot = ((l.orphan S slot).1, (l.orphan S slot).2.tables) := by
  have hmarked : l.tables.isMarkedAt S slot = true ↔ l.marks[S]? = some slot := by
    unfold Tables.isMarkedAt
    rw [getElem?_provisional_tables, decide_eq_true_eq]
    cases l.marks[S]? with
    | none => simp
    | some old => simp [Slot.toInt64_inj]
  have hrow : S ∈ l.tables.history ↔ S ∈ l.rows := Std.ExtTreeMap.mem_map
  unfold Tables.orphan Ledger.orphan
  by_cases hmark : l.marks[S]? = some slot
  · rw [if_pos hmark, if_pos (hmarked.2 hmark)]
    simp only [hrow]
    simp only [tables, map_erase]
  · rw [if_neg hmark, if_neg (mt hmarked.1 hmark)]

theorem lifecycle_tables (S : Signature) : l.tables.lifecycle S = l.lifecycle S := by
  have hmark : S ∈ l.tables.provisional ↔ S ∈ l.marks := Std.ExtTreeMap.mem_map
  have hrow : S ∈ l.tables.history ↔ S ∈ l.rows := Std.ExtTreeMap.mem_map
  unfold Tables.lifecycle Ledger.lifecycle
  simp only [hmark, hrow]

theorem size_history_tables : l.tables.history.size = l.rows.size := Std.ExtTreeMap.size_map

theorem markLe_toInt64 {a b : Mark} (ha : a.slot.FitsColumn) (hb : b.slot.FitsColumn) :
    Tables.markLe (a.signature, a.slot.toInt64) (b.signature, b.slot.toInt64) = a.le b := by
  unfold Tables.markLe Mark.le
  simp only [Slot.toInt64_lt_iff ha hb, Slot.toInt64_inj]

/-- Marks are in the same order as their columns. -/
theorem Plain.provisionalAfter_tables (h : l.Plain) {boundary : Slot}
    (hboundary : boundary.FitsColumn) :
    l.tables.provisionalAfter boundary = l.provisionalAfter boundary := by
  have hcolumns : l.tables.provisional.toList =
      l.marks.toList.map fun p => (p.1, p.2.toInt64) := Std.ExtTreeMap.toList_map
  have hlow : ∀ p ∈ l.marks.toList, p.2.FitsColumn := fun p hp =>
    h.mark p.1 p.2 (Std.ExtTreeMap.mem_toList_iff_getElem?_eq_some.1 hp)
  unfold Tables.provisionalAfter provisionalAfter
  rw [hcolumns, List.filter_map, List.filter_map, List.map_mergeSort (s := Mark.le), List.map_map]
  · congr 2
    refine List.filter_congr fun p hp => ?_
    simp only [Function.comp_apply, Slot.toInt64_lt_iff hboundary (hlow p hp)]
  · intro a ha b hb
    obtain ⟨p, hp, rfl⟩ := List.mem_map.1 ha
    obtain ⟨q, hq, rfl⟩ := List.mem_map.1 hb
    simp only [UInt64.toUInt64_toInt64]
    exact markLe_toInt64 (a := ⟨p.1, p.2⟩) (b := ⟨q.1, q.2⟩) (hlow p (List.mem_of_mem_filter hp))
      (hlow q (List.mem_of_mem_filter hq))

theorem compare_toInt64 {a b : Slot} (ha : a.FitsColumn) (hb : b.FitsColumn) :
    compare a.toInt64 b.toInt64 = compare a b := by
  have hsigned : compare a.toInt64 b.toInt64 =
      if a.toInt64 < b.toInt64 then .lt else if a.toInt64 = b.toInt64 then .eq else .gt := rfl
  have hplain : compare a b = if a < b then .lt else if a = b then .eq else .gt := rfl
  rw [hsigned, hplain]
  simp only [Slot.toInt64_lt_iff ha hb, Slot.toInt64_inj]

theorem sortQuarantine_toInt64 {entries : List Quarantined}
    (h : ∀ q ∈ entries, q.slot.FitsColumn) :
    sortQuarantine UInt64.toInt64 entries = sortQuarantine (fun slot => slot) entries := by
  unfold sortQuarantine
  refine (List.map_id _).symm.trans ((List.map_mergeSort fun a ha b hb => ?_).trans
    (congrArg (List.mergeSort · _) (List.map_id _)))
  simp only [id, compare_toInt64 (h a ha) (h b hb)]

/-- Ties keep the order of their signatures in both. -/
theorem Plain.quarantined_tables (h : l.Plain) : l.tables.quarantined = l.quarantined := by
  have hrows : l.tables.quarantine.toList =
      l.quarantine.toList.map fun p => (p.1, .ofQuarantined p.2) := Std.ExtTreeMap.toList_map
  have hentry : ∀ p ∈ l.quarantine.toList, p.2.signature = p.1 ∧ p.2.slot.FitsColumn :=
    fun p hp => h.entry p.1 p.2 (Std.ExtTreeMap.mem_toList_iff_getElem?_eq_some.1 hp)
  unfold Tables.quarantined quarantined
  rw [hrows, List.map_map, values_eq_map_toList]
  have hvalues : ∀ p ∈ l.quarantine.toList,
      (QuarantineRow.ofQuarantined p.2).quarantined p.1 = p.2 := by
    intro p hp
    rw [← (hentry p hp).1, QuarantineRow.quarantined_ofQuarantined]
  refine (congrArg (sortQuarantine UInt64.toInt64) (List.map_congr_left hvalues)).trans ?_
  refine sortQuarantine_toInt64 fun q hq => ?_
  obtain ⟨p, hp, rfl⟩ := List.mem_map.1 hq
  exact (hentry p hp).2

/-- A call is answered alike from a ledger and from its tables, and leads to ledger and tables
that again hold the same. -/
theorem Plain.answer_tables (h : l.Plain) {call : StoreCall} (now : Int)
    (hwhole : ∀ row ∈ call.records, row.timestamp.IsWhole)
    (hfits : ∀ slot ∈ call.slots, slot.FitsColumn) :
    l.tables.answer .seconds now call =
      ((l.answer now call).1, (l.answer now call).2.tables) := by
  cases call with
  | checkpoint id => exact congrArg (Except.ok ·, l.tables) (h.checkpoint?_tables id)
  | start id genesis =>
    exact congrArg (fun started => (Except.ok started.1, started.2))
      (h.start_tables id genesis now)
  | advance m =>
    have htarget : m.target.FitsColumn := hfits _ (by simp [StoreCall.slots])
    change l.tables.settle (l.tables.advance m now) = ((l.checkpoints.advance m now).1,
      tables { l with checkpoints := (l.checkpoints.advance m now).2 })
    rw [h.advance_tables htarget]
    unfold Checkpoints.advance
    cases hafter : l.checkpoints.after m now with
    | error f => rfl
    | ok c =>
      simp only
      rw [← (h.of_after hafter).1]
      rfl
  | upsert e => exact congrArg l.tables.settle (h.upsert_tables e)
  | upsertAll entries =>
    exact congrArg l.tables.settle (h.upsertFrom_tables
      (fun e he => hwhole _ (List.mem_map_of_mem he))
      (fun e he => hfits _ (List.mem_map_of_mem he)) .zero)
  | commit c =>
    change l.tables.settle (l.tables.commit .seconds now c) =
      ((l.commit now c).1, (l.commit now c).2.tables)
    rw [h.commit_tables now hwhole hfits]
    unfold Ledger.commit
    cases l.checkMove now c.move <;> rfl
  | record S => exact congrArg (·, l.tables) (h.record?_tables S)
  | lifecycle S => exact congrArg (Except.ok ·, l.tables) (lifecycle_tables S)
  | count => exact congrArg (Except.ok ·, l.tables) size_history_tables
  | provisionalAfter boundary =>
    exact congrArg (Except.ok ·, l.tables)
      (h.provisionalAfter_tables (hfits _ (List.mem_cons_self ..)))
  | finalizeThrough boundary =>
    exact congrArg (fun dropped => (Except.ok dropped.1, dropped.2))
      (h.finalizeThrough_tables (hfits _ (List.mem_cons_self ..)))
  | moveMark S slot => exact congrArg (Except.ok (), ·) (tables_moveMark S slot).symm
  | orphan S slot =>
    exact congrArg (fun removed => (Except.ok removed.1, removed.2)) (orphan_tables S slot)
  | quarantined => exact congrArg (Except.ok ·, l.tables) h.quarantined_tables

end Ledger

end RouterHistory
