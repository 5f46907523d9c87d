import Mathlib.Algebra.Order.Floor.Div
import RouterHistory.Proofs.Pipeline.BatchAccount
import RouterHistory.Proofs.Pipeline.LoneStep
import RouterHistory.Proofs.Store.TableSizes

/-!
What catching up covers. From whatever ledger it starts, a pipeline that is alone stores the slots
between its checkpoint and the head in batches that follow one another, each as long as it may be,
and stops after the last one. So the number of batches is known beforehand, and none is stale.
-/
namespace RouterHistory

open Shared

namespace Pipeline

/-- Catching up, which also tells the outcomes of its steps after those before. -/
def catchUpTelling (outcomes : List (Except Failure StepOutcome)) : (limit : Nat) → Pipeline →
    IngestReport → Program ((Option (Except Failure IngestReport) × Pipeline) ×
      List (Except Failure StepOutcome))
  | 0, p, _ => return ((none, p), outcomes)
  | limit + 1, p, report => do
      let (outcome, p) ← p.step
      let outcomes := outcomes ++ [outcome]
      match outcome with
      | .error f => return ((some (.error f), p), outcomes)
      | .ok (.committed _ last tally) =>
          catchUpTelling outcomes limit p (report.committed last tally)
      | .ok (.stale slot) => catchUpTelling outcomes limit p { report with checkpoint := slot }
      | .ok (.caughtUp slot) =>
          return ((some (.ok { report with checkpoint := slot }), p), outcomes)

/-- Telling changes nothing. -/
theorem catchUp_eq_catchUpTelling (outcomes : List (Except Failure StepOutcome)) (limit : Nat)
    (p : Pipeline) (report : IngestReport) :
    p.catchUp limit report = Prod.fst <$> p.catchUpTelling outcomes limit report := by
  induction limit generalizing outcomes p report with
  | zero => rfl
  | succ limit ih =>
    unfold catchUp catchUpTelling
    rw [map_bind]
    refine bind_congr fun x => ?_
    obtain ⟨outcome, p'⟩ := x
    rcases outcome with f | first | slot | slot
    · rfl
    · exact ih _ p' _
    · rfl
    · exact ih _ p' _

end Pipeline

theorem Slot.max_eq_left {a b : Slot} (h : b ≤ a) : max a b = a := by
  have hmax : max a b = if a ≤ b then b else a := rfl
  rw [hmax]
  split
  · next hle => exact UInt64.le_antisymm h hle
  · rfl

theorem Slot.max_eq_right {a b : Slot} (h : a ≤ b) : max a b = b := if_pos h

namespace Ingestion

variable {host : Host} {s : Settings} {l : Ledger} {p : Pipeline}

/-- A pipeline that is ready for its next step: its view of the checkpoint, if it has one, is
right. -/
structure Ready (s : Settings) (l : Ledger) (p : Pipeline) : Prop where
  fits : p.Fits s
  attained : l.Attained
  view : p.cursor.current = none ∨
    p.cursor.current = some (l.position s) ∧ ∃ c, l.checkpoints[s.id]? = some c

theorem Ready.load (h : Ready s l p) (host : Host) :
    ∃ p₁ l₁ c, host.around.run l p.load = ((.ok (l.position s), p₁), l₁) ∧ p₁.Fits s ∧
      l.Opened s l₁ ∧ l₁.checkpoints[s.id]? = some c ∧ c.slot = l.position s := by
  rcases h.view with hnone | ⟨hview, c, hc⟩
  · obtain ⟨p₁, hload, hfits, -⟩ := Pipeline.run_load host l h.fits hnone
    refine ⟨p₁, _, l.checkpoints[s.id]?.getD (.genesis s.id s.genesisSlot host.now), hload, hfits,
      Ledger.Opened.same.start host.now, ?_, ?_⟩
    · exact (Ledger.getElem?_start ..).trans (if_pos rfl)
    · unfold Ledger.position
      cases l.checkpoints[s.id]? <;> rfl
  · exact ⟨p, l, c, Pipeline.run_load_of_view hview, h.fits, .same, hc,
      (Ledger.position_of_getElem? hc).symm⟩

def transactionsBetween (host : Host) (s : Settings) (first last : Slot) : List Transaction :=
  s.transactionsOf first last (host.between s first last)

/-- A step below the head stores the next batch, which the pipeline is then right about. -/
theorem Ready.step_of_ahead (h : Ready s l p) (ahead : s.Ahead (host.source .head) (l.position s))
    {last : Slot} (hlast : s.lastOf (host.source .head) (l.position s) = last) :
    ∃ p' l', host.around.run l p.step = ((.ok (.committed (l.position s) last
        (l.tallyOf s.classifier (transactionsBetween host s (l.position s) last))), p'), l') ∧
      Ready s l' p' ∧ l'.position s = last ∧ l'.rows.size = l.rows.size +
        (transactionsBetween host s (l.position s) last).countP
          (l.fate s.classifier · = some .inserted) := by
  obtain ⟨p₁, l₁, c, hload, hfits, opens, hc, hslot⟩ := h.load host
  subst hlast
  let haul : Haul := ⟨l.position s, host.source .head,
    host.between s (l.position s) (s.lastOf (host.source .head) (l.position s))⟩
  let times : Nat → Int := fun _ => host.now
  have hforward : l.position s < haul.last s := (Settings.lastOf_bounds ahead).1
  let next : Checkpoint :=
    { c with slot := haul.last s, revision := c.revision + 1, updatedAt := host.now }
  have hmove : l₁.checkMove host.now (haul.commit s times).move = .ok (some next) :=
    l₁.checkMove_eq_ok.2 ⟨c, hc, hslot, hforward, rfl⟩
  have hstored : l₁.commit host.now (haul.commit s times) =
      (.ok ⟨l.tallyOf s.classifier (haul.transactions s), some next⟩,
        (l₁.commit host.now (haul.commit s times)).2) := by
    rw [← Pipeline.tally_commit opens times]
    unfold Ledger.commit
    rw [hmove]
  obtain ⟨p', hstep, hfits', hcurrent⟩ := Pipeline.run_step_of_ahead hload hfits ahead rfl hstored
  have hid : c.pipelineId = s.id :=
    ((opens.attained h.attained).regular.checkpoint s.id c hc).1
  have hcheckpoint : (l₁.commit host.now (haul.commit s times)).2.checkpoints[s.id]? =
      some next := by
    rw [l₁.checkpoints_commit hmove, Ledger.getElem?_insert_checkpoint]
    exact if_pos hid
  refine ⟨p', _, hstep, ⟨hfits', ?_, .inr ⟨?_, next, hcheckpoint⟩⟩,
    Ledger.position_of_getElem? hcheckpoint, ?_⟩
  · exact (opens.attained h.attained).answer host.now (.commit (haul.commit s times))
  · rw [hcurrent, Ledger.position_of_getElem? hcheckpoint]
  · have hnew : (haul.commit s times).entries.countP (·.signature ∉ l₁.rows) =
        (haul.commit s times).entries.countP (l.outcome · = .inserted) := by
      simp only [opens.rows, Ledger.outcome_eq_inserted]
    rw [l₁.rows_commit hmove, l₁.size_rows_written (Haul.nodup_entries times), hnew, opens.rows,
      Haul.entries_commit, Ledger.countP_entries]
    rfl

/-- A step at the head writes nothing, apart from creating the checkpoint. -/
theorem Ready.step_of_not_ahead (h : Ready s l p)
    (last : ¬ s.Ahead (host.source .head) (l.position s)) :
    ∃ p' l' c, host.around.run l p.step = ((.ok (.caughtUp (l.position s)), p'), l') ∧
      l'.rows = l.rows ∧ l'.checkpoints[s.id]? = some c ∧ c.slot = l.position s := by
  obtain ⟨p₁, l₁, c, hload, hfits, opens, hc, hslot⟩ := h.load host
  obtain ⟨p', hstep⟩ := Pipeline.run_step_of_not_ahead hload hfits last
  exact ⟨p', l₁, c, hstep, opens.rows, hc, hslot⟩

def outcome (b : Move × Tally) : Except Failure StepOutcome :=
  .ok (.committed b.1.expected b.1.target b.2)

def total : List (Move × Tally) → Tally
  | [] => .zero
  | b :: rest => b.2.add (total rest)

def reported (report : IngestReport) (batches : List (Move × Tally)) : IngestReport :=
  batches.foldl (fun report b => report.committed b.1.target b.2) report

theorem batches_reported (report : IngestReport) (batches : List (Move × Tally)) :
    (reported report batches).batches = report.batches + .ofNat batches.length := by
  induction batches generalizing report with
  | nil => exact (UInt64.add_zero _).symm
  | cons b rest ih =>
    refine (ih _).trans ?_
    rw [List.length_cons, Nat.add_comm, UInt64.ofNat_add, ← UInt64.add_assoc]
    rfl

theorem totals_reported (report : IngestReport) (batches : List (Move × Tally)) :
    (reported report batches).totals = report.totals.add (total batches) := by
  induction batches generalizing report with
  | nil => simp [reported, total, Tally.add, Tally.zero]
  | cons b rest ih =>
    refine (ih _).trans ?_
    simp [IngestReport.committed, total, Tally.add, UInt64.add_assoc]

theorem totals_reported_start (batches : List (Move × Tally)) :
    (reported .start batches).totals = total batches := by
  rw [totals_reported]
  simp [IngestReport.start, Tally.add, Tally.zero]

structure Covered (host : Host) (s : Settings) (l l' : Ledger) (batches : List (Move × Tally)) :
    Prop where
  count : batches.length =
    ((host.source .head : Slot).toNat - (l.position s).toNat) ⌈/⌉ s.batchSize.toNat
  /-- They go from the checkpoint to the head, without a gap and without an overlap. -/
  tiles : Consecutive (l.position s) (batches.map Prod.fst)
    (max (l.position s) (host.source .head))
  /-- Where a batch begins and ends is what it is in whole numbers. -/
  bounds : ∀ b ∈ batches, (b.1.expected + 1).toNat = b.1.expected.toNat + 1 ∧
    b.1.target.toNat =
      min (b.1.expected.toNat + s.batchSize.toNat) (host.source .head : Slot).toNat
  checkpoint : ∃ c, l'.checkpoints[s.id]? = some c ∧
    c.slot = max (l.position s) (host.source .head)
  /-- Each transaction is counted once, as what became of it, and those that are inserted are the
  new rows. The totals are words. -/
  counted : ∃ inserted unchanged overwritten quarantined : Nat,
    total batches =
      ⟨.ofNat inserted, .ofNat unchanged, .ofNat overwritten, .ofNat quarantined⟩ ∧
    l'.rows.size = l.rows.size + inserted ∧
    inserted + unchanged + overwritten + quarantined =
      (batches.flatMap fun b => transactionsBetween host s b.1.expected b.1.target).length

/-- A batch brings the number of those to come down by one. -/
theorem ceilDiv_eq_succ {position head target size : Nat} (hsize : 0 < size)
    (hlt : position < head) (htarget : target = min (position + size) head) :
    (head - position) ⌈/⌉ size = (head - target) ⌈/⌉ size + 1 := by
  rw [Nat.ceilDiv_eq_add_pred_div, Nat.ceilDiv_eq_add_pred_div, ← Nat.add_div_right _ hsize]
  by_cases hfits : position + size ≤ head
  · exact congrArg (· / size) (by omega)
  · rw [Nat.div_eq_of_lt_le (k := 1) (by omega) (by omega),
      Nat.div_eq_of_lt_le (k := 1) (by omega) (by omega)]

/-- At the head, there is nothing to store. -/
theorem Covered.of_le {l' : Ledger} (hle : host.source .head ≤ l.position s)
    (hrows : l'.rows = l.rows) {c : Checkpoint} (hc : l'.checkpoints[s.id]? = some c)
    (hslot : c.slot = l.position s) : Covered host s l l' [] where
  count := by
    rw [Nat.sub_eq_zero_of_le (UInt64.le_iff_toNat_le.1 hle), zero_ceilDiv]
    rfl
  tiles := (Slot.max_eq_left hle).symm ▸ .nil _
  bounds := nofun
  checkpoint := ⟨c, hc, hslot.trans (Slot.max_eq_left hle).symm⟩
  counted := ⟨0, 0, 0, 0, rfl, by rw [hrows]; rfl, rfl⟩

/-- One batch more, before the others. -/
theorem Covered.cons {l₁ l' : Ledger} {batches : List (Move × Tally)}
    (ahead : s.Ahead (host.source .head) (l.position s))
    (hposition : l₁.position s = s.lastOf (host.source .head) (l.position s))
    (hrows : l₁.rows.size = l.rows.size +
      (transactionsBetween host s (l.position s) (l₁.position s)).countP
        (l.fate s.classifier · = some .inserted))
    (h : Covered host s l₁ l' batches) :
    Covered host s l l' ((⟨s.id, l.position s, l₁.position s⟩,
      l.tallyOf s.classifier (transactionsBetween host s (l.position s) (l₁.position s))) ::
        batches) := by
  have hbounds : l.position s < l₁.position s ∧ l₁.position s ≤ host.source .head :=
    hposition ▸ Settings.lastOf_bounds ahead
  have hlast : (l₁.position s).toNat = min ((l.position s).toNat + s.batchSize.toNat) _ :=
    (congrArg UInt64.toNat hposition).trans
      (Haul.toNat_last (h := ⟨l.position s, host.source .head, []⟩) ahead)
  have hbelow : l.position s < host.source .head := UInt64.not_le.1 (not_or.1 ahead).1
  have hsize : 0 < s.batchSize.toNat :=
    Nat.pos_of_ne_zero fun h0 => (not_or.1 ahead).2 (UInt64.toNat_inj.1 h0)
  have hmax : max (l.position s) (host.source .head) =
      max (l₁.position s) (host.source .head) := by
    rw [Slot.max_eq_right (UInt64.le_of_lt hbelow), Slot.max_eq_right hbounds.2]
  constructor
  case count =>
    rw [List.length_cons, h.count, ceilDiv_eq_succ hsize (UInt64.lt_iff_toNat_lt.1 hbelow) hlast]
  case tiles => exact hmax ▸ .cons (m := ⟨s.id, _, _⟩) hbounds.1 h.tiles
  case bounds =>
    intro b hb
    rcases List.mem_cons.1 hb with rfl | hrest
    · have hlt := UInt64.lt_iff_toNat_lt.1 hbelow
      have hhead := (host.source .head : Slot).toNat_lt
      refine ⟨?_, hlast⟩
      change (l.position s + 1).toNat = (l.position s).toNat + 1
      rw [UInt64.toNat_add, UInt64.toNat_one, Nat.mod_eq_of_lt (by omega)]
    · exact h.bounds b hrest
  case checkpoint => exact hmax ▸ h.checkpoint
  case counted =>
    obtain ⟨inserted, unchanged, overwritten, quarantined, htotal, hgrown, hsum⟩ := h.counted
    let count (o : Option WriteOutcome) : Nat :=
      (transactionsBetween host s (l.position s) (l₁.position s)).countP
        (l.fate s.classifier · = o)
    have hfates : count (some .inserted) + count (some .unchanged) + count (some .overwritten) +
        count none = _ := Ledger.countP_fate
    refine ⟨count (some .inserted) + inserted, count (some .unchanged) + unchanged,
      count (some .overwritten) + overwritten, count none + quarantined, ?_, ?_, ?_⟩
    · rw [UInt64.ofNat_add, UInt64.ofNat_add, UInt64.ofNat_add, UInt64.ofNat_add, total, htotal]
      rfl
    · rw [hgrown, hrows, Nat.add_assoc]
    · rw [List.flatMap_cons, List.length_append, ← hsum, ← hfates]
      omega

/-- Catching up stores all batches that there are and stops. -/
theorem Ready.catchUp (h : Ready s l p) (host : Host) (hsize : s.batchSize ≠ 0) :
    ∃ batches p' l', Covered host s l l' batches ∧
      ∀ outcomes report limit, batches.length < limit →
        host.around.run l (p.catchUpTelling outcomes limit report) =
          (((some (.ok { reported report batches with
              checkpoint := max (l.position s) (host.source .head) }), p'),
            outcomes ++ (batches.map outcome ++
              [.ok (.caughtUp (max (l.position s) (host.source .head)))])), l') := by
  induction hdistance : (host.source .head : Slot).toNat - (l.position s).toNat using
    Nat.strong_induction_on generalizing l p with
  | _ distance ih =>
    by_cases ahead : s.Ahead (host.source .head) (l.position s)
    · obtain ⟨p₁, l₁, hstep, hready, hposition, hrows⟩ := h.step_of_ahead ahead rfl
      have hbelow : l.position s < host.source .head := UInt64.not_le.1 (not_or.1 ahead).1
      have hbounds : l.position s < l₁.position s ∧ l₁.position s ≤ host.source .head :=
        hposition ▸ Settings.lastOf_bounds ahead
      have hcloser : (host.source .head : Slot).toNat - (l₁.position s).toNat < distance := by
        have hforward := UInt64.lt_iff_toNat_lt.1 hbounds.1
        have hhead := UInt64.lt_iff_toNat_lt.1 hbelow
        omega
      obtain ⟨batches, p', l', covered, hrun⟩ := ih _ hcloser hready rfl
      rw [← hposition] at hstep hrows
      refine ⟨_, p', l', covered.cons ahead hposition hrows,
        fun outcomes report limit hlimit => ?_⟩
      obtain ⟨limit, rfl⟩ :=
        Nat.exists_eq_succ_of_ne_zero (Nat.ne_of_gt (Nat.zero_lt_of_lt hlimit))
      rw [List.length_cons] at hlimit
      unfold Pipeline.catchUpTelling
      rw [Surroundings.run_bind_of_eq _ _ hstep]
      simp only
      rw [hrun _ _ limit (by omega), Slot.max_eq_right (UInt64.le_of_lt hbelow),
        Slot.max_eq_right hbounds.2, List.append_assoc]
      rfl
    · have hle : host.source .head ≤ l.position s := (not_not.1 ahead).resolve_right hsize
      obtain ⟨p', l', c, hstep, hrows, hc, hslot⟩ := h.step_of_not_ahead ahead
      refine ⟨[], p', l', .of_le hle hrows hc hslot, fun outcomes report limit hlimit => ?_⟩
      obtain ⟨limit, rfl⟩ := Nat.exists_eq_succ_of_ne_zero (Nat.ne_of_gt hlimit)
      unfold Pipeline.catchUpTelling
      rw [Surroundings.run_bind_of_eq _ _ hstep, Slot.max_eq_left hle]
      rfl

structure Reported (host : Host) (s : Settings) (l l' : Ledger) (batches : List (Move × Tally))
    (report : IngestReport) : Prop where
  covered : Covered host s l l' batches
  number : report.batches.toNat = batches.length
  checkpoint : report.checkpoint = max (l.position s) (host.source .head)
  totals : report.totals = total batches
  /-- If their words are wide enough, the totals are what was counted. -/
  sums : (batches.flatMap fun b =>
      transactionsBetween host s b.1.expected b.1.target).length < UInt64.size →
    l'.rows.size = l.rows.size + report.totals.inserted.toNat ∧
    report.totals.inserted.toNat + report.totals.unchanged.toNat +
        report.totals.overwritten.toNat + report.totals.quarantined.toNat =
      (batches.flatMap fun b => transactionsBetween host s b.1.expected b.1.target).length

theorem Covered.reported {l' : Ledger} {batches : List (Move × Tally)}
    (h : Covered host s l l' batches) :
    Reported host s l l' batches { reported .start batches with
      checkpoint := max (l.position s) (host.source .head) } where
  covered := h
  number := by
    have hlength := h.tiles.length_le
    have hbound := (max (l.position s) (host.source .head)).toNat_lt
    rw [List.length_map] at hlength
    rw [batches_reported, IngestReport.start, UInt64.zero_add]
    exact UInt64.toNat_ofNat_of_lt' (by simp only [UInt64.size]; omega)
  checkpoint := rfl
  totals := totals_reported_start batches
  sums := by
    intro hroom
    obtain ⟨inserted, unchanged, overwritten, quarantined, htotal, hgrown, hsum⟩ := h.counted
    have hword : ∀ n ≤ inserted + unchanged + overwritten + quarantined,
        (UInt64.ofNat n).toNat = n := fun n hn => UInt64.toNat_ofNat_of_lt' (by omega)
    simp only [totals_reported_start, htotal]
    rw [hword inserted (by omega), hword unchanged (by omega), hword overwritten (by omega),
      hword quarantined (by omega)]
    exact ⟨hgrown, hsum⟩

/-- From any ledger that calls lead to, a new pipeline that is alone and always answered catches
up after as many steps as it takes to go from its checkpoint to the head. Each step stores a
batch, none is stale, and the last one says that the head is reached. -/
theorem catchUp_covers_slots (host : Host) (s : Settings) (hsize : s.batchSize ≠ 0) {l : Ledger}
    (attained : l.Attained) (window : ChainWindow) :
    ∃ report p' l' batches, Reported host s l l' batches report ∧
      ∀ limit, batches.length < limit →
        host.around.run l (Pipeline.catchUp limit (.ofSettings s window) .start) =
          ((some (.ok report), p'), l') ∧
        host.around.run l (Pipeline.catchUpTelling [] limit (.ofSettings s window) .start) =
          (((some (.ok report), p'),
            batches.map outcome ++ [.ok (.caughtUp report.checkpoint)]), l') := by
  have hready : Ready s l (.ofSettings s window) := ⟨⟨rfl, rfl, rfl⟩, attained, .inl rfl⟩
  obtain ⟨batches, p', l', covered, hrun⟩ := hready.catchUp host hsize
  refine ⟨_, p', l', batches, covered.reported, fun limit hlimit => ?_⟩
  have htold := hrun [] .start limit hlimit
  refine ⟨?_, htold⟩
  rw [Pipeline.catchUp_eq_catchUpTelling [], host.around.run_map, htold]

def atTop : Host where
  source
    | .head => Slot.top
    | .slots _ _ _ => [⟨Slot.top, some "b", none, some 1700000000,
        [⟨⟨String.ofList (List.replicate 64 '1')⟩, Slot.top, none, none, [⟨"router", "2"⟩], []⟩]⟩]
    | .resolve _ => .absent
  now := 0

/-- The last three slots come in two batches. -/
theorem atTop_is_covered :
    ∃ report p' l' batches, ∀ limit, 2 < limit →
      atTop.around.run (Ledger.empty.afterCalls 0 [.start slotwise.id (Slot.top - 3)])
          (Pipeline.catchUp limit (.ofSettings { slotwise with batchSize := 2 } ⟨1, []⟩) .start) =
        ((some (.ok report), p'), l') ∧
      report.batches.toNat = 2 ∧ report.checkpoint = Slot.top ∧
      Reported atTop { slotwise with batchSize := 2 }
        (Ledger.empty.afterCalls 0 [.start slotwise.id (Slot.top - 3)]) l' batches report := by
  obtain ⟨report, p', l', batches, reported, hrun⟩ := catchUp_covers_slots atTop
    { slotwise with batchSize := 2 } (by decide)
    (Ledger.Attained.empty.afterCalls 0 [.start slotwise.id (Slot.top - 3)]) ⟨1, []⟩
  have hposition : (Ledger.empty.afterCalls 0 [.start slotwise.id (Slot.top - 3)]).position
      { slotwise with batchSize := 2 } = Slot.top - 3 := by decide +kernel
  have hcount : batches.length = 2 := by
    rw [reported.covered.count, hposition, Nat.ceilDiv_eq_add_pred_div]
    decide +kernel
  have hcheckpoint : report.checkpoint = Slot.top := by
    rw [reported.checkpoint, hposition]
    decide +kernel
  exact ⟨report, p', l', batches, fun limit hlimit => ⟨(hrun limit (hcount ▸ hlimit)).1,
    reported.number.trans hcount, hcheckpoint, reported⟩⟩

end Ingestion

end RouterHistory
