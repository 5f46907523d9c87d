import RouterHistory.Proofs.Ingestion.ExactlyOnce
import RouterHistory.Proofs.Pipeline.SortedTransactions
import RouterHistory.Proofs.Pipeline.StepEnds
import RouterHistory.Proofs.Pipeline.StepFetch
import RouterHistory.Proofs.Store.CheckpointMoves

/-!
The account of a batch step. A batch that is stored leaves no router transaction of its slots out:
each has its row or its entry in quarantine and is counted once, the checkpoint moves on by one
revision, and nothing else changes. A step that ends in any other way stores nothing.
-/
namespace RouterHistory

open Shared

namespace Haul

variable {s : Settings} {h : Haul} {past : List Call}

def transactions (s : Settings) (h : Haul) : List Transaction :=
  s.transactionsOf h.position (h.last s) h.raw

def commit (s : Settings) (h : Haul) (times : Nat → Int) : Commit :=
  s.commitOf h.position (h.last s) h.raw times

theorem entries_commit (times : Nat → Int) : (h.commit s times).entries =
    (Sorted.ofTransactions s.classifier (h.transactions s)).entries := by
  unfold commit Settings.commitOf
  rfl

theorem quarantined_commit (times : Nat → Int) : (h.commit s times).quarantined =
    (Sorted.ofTransactions s.classifier (h.transactions s)).quarantined times := by
  unfold commit Settings.commitOf
  rfl

theorem nodup_transactions : ((h.transactions s).map Transaction.signature).Nodup :=
  Settings.nodup_transactionsOf

theorem nodup_entries (times : Nat → Int) :
    ((h.commit s times).entries.map Entry.signature).Nodup := by
  rw [entries_commit]
  exact Sorted.nodup_entries nodup_transactions

theorem nodup_quarantined (times : Nat → Int) :
    ((h.commit s times).quarantined.map Quarantined.signature).Nodup := by
  rw [quarantined_commit]
  exact nodup_transactions.sublist (Sorted.signatures_quarantined times)

/-- A batch goes as far as its size allows, but not past the head. -/
theorem toNat_last (ahead : s.Ahead h.head h.position) :
    (h.last s).toNat = min (h.position.toNat + s.batchSize.toNat) h.head.toNat := by
  have hlast : h.last s = if Slot.up h.position s.batchSize ≤ h.head
      then Slot.up h.position s.batchSize else h.head := rfl
  have hup := Slot.toNat_up h.position s.batchSize
  have hbound := h.head.toNat_lt
  have hwords : UInt64.size = 18446744073709551616 := rfl
  rw [hlast]
  by_cases hle : Slot.up h.position s.batchSize ≤ h.head
  · rw [if_pos hle]
    rw [UInt64.le_iff_toNat_le] at hle
    have hhead := UInt64.lt_iff_toNat_lt.1 (UInt64.not_le.1 (not_or.1 ahead).1)
    omega
  · rw [if_neg hle]
    rw [UInt64.le_iff_toNat_le] at hle
    omega

end Haul

namespace Ledger

variable {l : Ledger}

def outcome (l : Ledger) (e : Entry) : WriteOutcome :=
  .decide l.rows[e.signature]? e.record

/-- What storing a transaction comes to: a write, or nothing if it is rejected. -/
def fate (c : Classifier) (l : Ledger) (tx : Transaction) : Option WriteOutcome :=
  match c.classify tx with
  | .ok row => some (l.outcome ⟨row, tx.slot⟩)
  | .error _ => none

theorem upsert_fst (e : Entry) : (l.upsert e).1 = l.outcome e := by
  unfold upsert outcome
  cases WriteOutcome.decide l.rows[e.signature]? e.record <;> rfl

/-- A row is new exactly if the signature had none. -/
theorem outcome_eq_inserted {e : Entry} : l.outcome e = .inserted ↔ e.signature ∉ l.rows := by
  unfold outcome WriteOutcome.decide
  rw [Std.ExtTreeMap.mem_iff_isSome_getElem?]
  cases l.rows[e.signature]? with
  | none => simp
  | some row => simp [apply_ite (· = WriteOutcome.inserted)]

/-- Writing one entry does not change what writing another comes to. -/
theorem outcome_upsert {e e' : Entry} (h : e.signature ≠ e'.signature) :
    (l.upsert e).2.outcome e' = l.outcome e' := by
  unfold outcome
  rw [rows_upsert, if_neg h]

/-- If no signature is written twice, the tally counts what each write comes to. -/
theorem tally_upsertFrom {entries : List Entry} (hnodup : (entries.map Entry.signature).Nodup)
    (t : Tally) : (upsertFrom t l entries).1 =
      ⟨t.inserted + .ofNat (entries.countP (l.outcome · = .inserted)),
        t.unchanged + .ofNat (entries.countP (l.outcome · = .unchanged)),
        t.overwritten + .ofNat (entries.countP (l.outcome · = .overwritten)), t.quarantined⟩ := by
  induction entries generalizing l t with
  | nil => simp [upsertFrom]
  | cons e rest ih =>
    rw [List.map_cons, List.nodup_cons] at hnodup
    have hother : ∀ o : WriteOutcome, rest.countP ((l.upsert e).2.outcome · = o) =
        rest.countP (l.outcome · = o) := by
      intro o
      refine List.countP_congr fun e' he' => ?_
      have hne : e.signature ≠ e'.signature := fun hsame =>
        hnodup.1 (hsame ▸ List.mem_map_of_mem he')
      rw [outcome_upsert hne]
    unfold upsertFrom
    rw [ih hnodup.2, hother, hother, hother, upsert_fst]
    simp only [List.countP_cons]
    cases l.outcome e <;>
      simp [Tally.count, UInt64.ofNat_add, UInt64.add_assoc, UInt64.add_comm 1]

variable {c : Classifier} {txs : List Transaction}

theorem countP_entries (o : WriteOutcome) :
    (Sorted.ofTransactions c txs).entries.countP (l.outcome · = o) =
      txs.countP (l.fate c · = some o) := by
  induction txs with
  | nil => rfl
  | cons tx rest ih =>
    rw [List.countP_cons]
    cases h : c.classify tx with
    | ok row => rw [Sorted.ofTransactions_cons_ok h, List.countP_cons, ih]; simp [fate, h]
    | error r => rw [Sorted.ofTransactions_cons_error h, ih]; simp [fate, h]

theorem length_rejected :
    (Sorted.ofTransactions c txs).rejected.length = txs.countP (l.fate c · = none) := by
  induction txs with
  | nil => rfl
  | cons tx rest ih =>
    rw [List.countP_cons]
    cases h : c.classify tx with
    | ok row => rw [Sorted.ofTransactions_cons_ok h, ih]; simp [fate, h]
    | error r => rw [Sorted.ofTransactions_cons_error h, List.length_cons, ih]; simp [fate, h]

def tallyOf (c : Classifier) (l : Ledger) (txs : List Transaction) : Tally :=
  ⟨.ofNat (txs.countP (l.fate c · = some .inserted)),
    .ofNat (txs.countP (l.fate c · = some .unchanged)),
    .ofNat (txs.countP (l.fate c · = some .overwritten)), .ofNat (txs.countP (l.fate c · = none))⟩

/-- Each transaction has one fate. -/
theorem countP_fate : txs.countP (l.fate c · = some .inserted) +
    txs.countP (l.fate c · = some .unchanged) + txs.countP (l.fate c · = some .overwritten) +
    txs.countP (l.fate c · = none) = txs.length := by
  induction txs with
  | nil => rfl
  | cons tx rest ih =>
    simp only [List.countP_cons, List.length_cons, ← ih]
    rcases l.fate c tx with - | o
    · simp; omega
    · cases o <;> simp <;> omega

/-- The counts of a tally that has room for them add up. -/
theorem total_tallyOf (hsize : txs.length < UInt64.size) :
    (tallyOf c l txs).inserted.toNat + (tallyOf c l txs).unchanged.toNat +
      (tallyOf c l txs).overwritten.toNat + (tallyOf c l txs).quarantined.toNat =
        txs.length := by
  have hcount : ∀ o : Option WriteOutcome,
      (UInt64.ofNat (txs.countP (l.fate c · = o))).toNat = txs.countP (l.fate c · = o) := by
    intro o
    have hle : txs.countP (l.fate c · = o) ≤ txs.length := List.countP_le_length
    exact UInt64.toNat_ofNat_of_lt' (by omega)
  unfold tallyOf
  rw [hcount, hcount, hcount, hcount, countP_fate]

theorem Attained.exists_after (h : l.Attained) : ∃ calls, l = Ledger.empty.after calls := by
  induction h with
  | empty => exact ⟨[], rfl⟩
  | answer before now call ih =>
    obtain ⟨calls, rfl⟩ := ih
    exact ⟨calls ++ [⟨now, call⟩], (after_append .empty calls ⟨now, call⟩).symm⟩

/-- One more move of a checkpoint can be counted. -/
theorem Attained.room (h : l.Attained) {id : String} {cp : Checkpoint}
    (hcp : l.checkpoints[id]? = some cp) {target : Slot} (forward : cp.slot < target) :
    (cp.revision + 1).toNat = cp.revision.toNat + 1 := by
  obtain ⟨calls, rfl⟩ := h.exists_after
  have hnone : Ledger.empty.checkpoints[id]? = none := Std.ExtTreeMap.getElem?_empty ..
  have hmoves := moves_of_getElem?_eq_none holds_empty hnone calls
  cases hcreated : created? id calls with
  | none =>
    rw [hcreated] at hmoves
    cases hcp.symm.trans hmoves.1
  | some first =>
    rw [hcreated] at hmoves
    obtain ⟨c, hc, hfollow, hrevision⟩ := hmoves
    cases hcp.symm.trans hc
    exact (hfollow.tiled hrevision).room target forward

variable {s : Settings} {l' : Ledger}

theorem Opened.attained (h : l.Opened s l') (attained : l.Attained) : l'.Attained := by
  cases h with
  | same => exact attained
  | created now absent =>
    have hstart : (l.answer now (.start s.id s.genesisSlot)).2 = { l with
        checkpoints := l.checkpoints.insert s.id (.genesis s.id s.genesisSlot now) } := by
      simp [answer, Checkpoints.start, absent]
    exact hstart ▸ attained.answer now (.start s.id s.genesisSlot)

theorem Opened.rows (h : l.Opened s l') : l'.rows = l.rows := by
  cases h <;> rfl

theorem Opened.marks (h : l.Opened s l') : l'.marks = l.marks := by
  cases h <;> rfl

/-- The checkpoint was there before, or it stands at genesis. -/
theorem Opened.checkpoint (h : l.Opened s l') {cp : Checkpoint}
    (hcp : l'.checkpoints[s.id]? = some cp) : l.checkpoints[s.id]? = some cp ∨
      l.checkpoints[s.id]? = none ∧ ∃ now, cp = .genesis s.id s.genesisSlot now := by
  cases h with
  | same => exact .inl hcp
  | created now absent =>
    rw [getElem?_insert_checkpoint, if_pos rfl] at hcp
    cases hcp
    exact .inr ⟨absent, now, rfl⟩

theorem Opened.checkpoint_of_ne (h : l.Opened s l') {id : String} (hid : id ≠ s.id) :
    l'.checkpoints[id]? = l.checkpoints[id]? := by
  cases h with
  | same => rfl
  | created now absent => rw [getElem?_insert_checkpoint, if_neg (Ne.symm hid)]

end Ledger

namespace Pipeline

/-- The account of a batch that is stored: `l` before, `l'` after it. -/
structure Accounted (s : Settings) (l l' : Ledger) (h : Haul) (tally : Tally) : Prop where
  /-- A transaction that classifies has its row and is provisional in its slot, unless it was
  final with that row. -/
  recorded : ∀ tx ∈ h.transactions s, ∀ row, s.classifier.classify tx = .ok row →
    l'.rows[tx.signature]? = some row ∧ l'.marks[tx.signature]? =
      if l.rows[tx.signature]? = some row ∧ l.marks[tx.signature]? = none then none
      else some tx.slot
  /-- Any other is in quarantine with its reason. -/
  turnedDown : ∀ tx ∈ h.transactions s, ∀ r, s.classifier.classify tx = .error r →
    ∃ now, l'.quarantine[tx.signature]? = some (Sorted.dated now (tx, r))
  otherRows : ∀ S, (∀ tx ∈ h.transactions s, tx.signature = S →
    ∃ r, s.classifier.classify tx = .error r) → l'.standing S = l.standing S
  otherEntries : ∀ S : Signature, (∀ tx ∈ h.transactions s, tx.signature = S →
    ∃ row, s.classifier.classify tx = .ok row) → l'.quarantine[S]? = l.quarantine[S]?
  /-- The checkpoint, or a new one at genesis, makes one move. -/
  moved : ∃ cp now, (l.checkpoints[s.id]? = some cp ∨
      l.checkpoints[s.id]? = none ∧ ∃ created, cp = .genesis s.id s.genesisSlot created) ∧
    cp.slot = h.position ∧ (cp.revision + 1).toNat = cp.revision.toNat + 1 ∧
    l'.checkpoints[s.id]? =
      some { cp with slot := h.last s, revision := cp.revision + 1, updatedAt := now }
  otherCheckpoints : ∀ id, id ≠ s.id → l'.checkpoints[id]? = l.checkpoints[id]?
  tallied : tally = l.tallyOf s.classifier (h.transactions s)
  /-- The counts, which fit into their words, add up. -/
  total : (h.transactions s).length < UInt64.size →
    tally.inserted.toNat + tally.unchanged.toNat + tally.overwritten.toNat +
      tally.quarantined.toNat = (h.transactions s).length

/-- A step that runs alone has stored its whole batch, or nothing. -/
inductive Settled (s : Settings) (l : Ledger) (past : List Call) (l' : Ledger) :
    Except Failure StepOutcome → Prop
  | committed {h : Haul} {tally : Tally} (told : h.ToldIn s past)
      (far : (h.last s).toNat = min (h.position.toNat + s.batchSize.toNat) h.head.toNat)
      (accounted : Accounted s l l' h tally) :
      Settled s l past l' (.ok (.committed h.position (h.last s) tally))
  | otherwise {result : Except Failure StepOutcome}
      (uncommitted : ∀ first last tally, result ≠ .ok (.committed first last tally))
      (opens : l.Opened s l') : Settled s l past l' result

variable {s : Settings} {l opened : Ledger} {h : Haul}

/-- The writes of a batch count as what they come to. -/
theorem tally_commit (opens : l.Opened s opened) (times : Nat → Int) :
    { (opened.upsertAll (h.commit s times).entries).1 with
      quarantined := UInt64.ofNat (h.commit s times).quarantined.length } =
        l.tallyOf s.classifier (h.transactions s) := by
  have houtcome : opened.outcome = l.outcome := by
    unfold Ledger.outcome
    rw [opens.rows]
  have hrejected : (h.commit s times).quarantined.length =
      (h.transactions s).countP (l.fate s.classifier · = none) := by
    rw [Haul.quarantined_commit, ← Ledger.length_rejected]
    exact Sorted.length_quarantined _ times
  have hentries : ∀ o : WriteOutcome, (h.commit s times).entries.countP (opened.outcome · = o) =
      (h.transactions s).countP (l.fate s.classifier · = some o) := by
    intro o
    rw [houtcome, Haul.entries_commit, Ledger.countP_entries]
  unfold Ledger.upsertAll Ledger.tallyOf
  rw [Ledger.tally_upsertFrom (Haul.nodup_entries times), hentries, hentries, hentries, hrejected]
  simp [Tally.zero]

section Commit

variable {now : Int} {times : Nat → Int} {next : Option Checkpoint}
variable (moves : opened.checkMove now (h.commit s times).move = .ok next)

include moves

theorem recorded_commit (opens : l.Opened s opened) {tx : Transaction}
    (htx : tx ∈ h.transactions s) {row : Record} (hrow : s.classifier.classify tx = .ok row) :
    (opened.commit now (h.commit s times)).2.rows[tx.signature]? = some row ∧
      (opened.commit now (h.commit s times)).2.marks[tx.signature]? =
        if l.rows[tx.signature]? = some row ∧ l.marks[tx.signature]? = none then none
        else some tx.slot := by
  have hentry : ⟨row, tx.slot⟩ ∈ (h.commit s times).entries := by
    rw [Haul.entries_commit]
    exact Sorted.mem_entries.2 ⟨tx, htx, row, hrow, rfl⟩
  have hsame : (Entry.mk row tx.slot).signature = tx.signature :=
    Classifier.signature_of_classify hrow
  rw [opened.rows_commit moves, opened.marks_commit moves, ← opens.rows, ← opens.marks, ← hsame]
  exact ⟨opened.rows_written_of_mem (Haul.nodup_entries times) hentry,
    opened.marks_written_of_mem (Haul.nodup_entries times) hentry⟩

theorem standing_commit_of_other (opens : l.Opened s opened) {S : Signature}
    (hS : ∀ tx ∈ h.transactions s, tx.signature = S →
      ∃ r, s.classifier.classify tx = .error r) :
    (opened.commit now (h.commit s times)).2.standing S = l.standing S := by
  rw [Ledger.standing_commit moves, ← opens.standing S]
  refine Ledger.standing_written_of_forall_ne fun e he hsame => ?_
  rw [Haul.entries_commit] at he
  obtain ⟨tx, htx, row, hrow, rfl⟩ := Sorted.mem_entries.1 he
  obtain ⟨r, hr⟩ := hS tx htx ((Classifier.signature_of_classify hrow).symm.trans hsame)
  cases hrow.symm.trans hr

theorem quarantine_commit_of_mem {tx : Transaction} (htx : tx ∈ h.transactions s) {r : Rejection}
    (hr : s.classifier.classify tx = .error r) :
    ∃ detected, (opened.commit now (h.commit s times)).2.quarantine[tx.signature]? =
      some (Sorted.dated detected (tx, r)) := by
  obtain ⟨detected, hentry⟩ : ∃ detected,
      Sorted.dated detected (tx, r) ∈ (h.commit s times).quarantined := by
    rw [Haul.quarantined_commit]
    obtain ⟨i, hentry⟩ := Sorted.exists_mem_quarantined htx hr times
    exact ⟨times i, hentry⟩
  have hsame : (Sorted.dated detected (tx, r)).signature = tx.signature := rfl
  refine ⟨detected, ?_⟩
  rw [opened.quarantine_commit moves, ← hsame]
  exact opened.getElem?_quarantineAll_of_mem (Haul.nodup_quarantined times) hentry

theorem quarantine_commit_of_other (opens : l.Opened s opened) {S : Signature}
    (hS : ∀ tx ∈ h.transactions s, tx.signature = S →
      ∃ row, s.classifier.classify tx = .ok row) :
    (opened.commit now (h.commit s times)).2.quarantine[S]? = l.quarantine[S]? := by
  rw [opened.quarantine_commit moves, ← opens.quarantine]
  refine opened.getElem?_quarantineAll_of_forall_ne fun q hq hsame => ?_
  rw [Haul.quarantined_commit] at hq
  obtain ⟨tx, htx, r, hr, _, rfl⟩ := Sorted.mem_quarantined hq
  obtain ⟨row, hrow⟩ := hS tx htx hsame
  cases hrow.symm.trans hr

/-- The checkpoint moves, and no other does. -/
theorem checkpoint_commit (attained : l.Attained) (opens : l.Opened s opened) :
    ∃ cp, opened.checkpoints[s.id]? = some cp ∧ cp.slot = h.position ∧
      (cp.revision + 1).toNat = cp.revision.toNat + 1 ∧
      (opened.commit now (h.commit s times)).2.checkpoints = opened.checkpoints.insert s.id
        { cp with slot := h.last s, revision := cp.revision + 1, updatedAt := now } := by
  obtain ⟨cp, hcp, hslot, hforward, rfl⟩ := opened.checkMove_eq_ok.1 moves
  have hopened := opens.attained attained
  have hid : cp.pipelineId = s.id := (hopened.regular.checkpoint s.id cp hcp).1
  refine ⟨cp, hcp, hslot, hopened.room hcp (hslot ▸ hforward), ?_⟩
  rw [opened.checkpoints_commit moves, ← hid]

/-- A commit that goes through accounts for its batch. -/
theorem accounted_commit (attained : l.Attained) (opens : l.Opened s opened) :
    Accounted s l (opened.commit now (h.commit s times)).2 h
      { (opened.upsertAll (h.commit s times).entries).1 with
        quarantined := UInt64.ofNat (h.commit s times).quarantined.length } := by
  obtain ⟨cp, hcp, hslot, hroom, hstored⟩ := checkpoint_commit moves attained opens
  rw [tally_commit opens]
  refine ⟨fun tx htx row hrow => recorded_commit moves opens htx hrow,
    fun tx htx r hr => quarantine_commit_of_mem moves htx hr,
    fun S hS => standing_commit_of_other moves opens hS,
    fun S hS => quarantine_commit_of_other moves opens hS,
    ⟨cp, now, opens.checkpoint hcp, hslot, hroom, ?_⟩, fun id hid => ?_,
    rfl, Ledger.total_tallyOf⟩
  · rw [hstored, Ledger.getElem?_insert_checkpoint, if_pos rfl]
  · rw [hstored, Ledger.getElem?_insert_checkpoint, if_neg (Ne.symm hid),
      opens.checkpoint_of_ne hid]

end Commit

/-- The batch that a step has stored is the one that it heard of. -/
theorem Ended.settled {past : List Call} {l' : Ledger} {result : Except Failure StepOutcome}
    {w w' : ChainWindow} (ended : Ended s l past l' result) (attained : l.Attained)
    (fetching : Fetching s w past w') : Settled s l past l' result := by
  cases ended with
  | otherwise uncommitted opens => exact .otherwise uncommitted opens
  | @committed first last raw times now opened next tally opens fetched moves stored counted =>
    obtain ⟨-, l₀, hraw⟩ := fetched
    cases fetching with
    | nothing quiet => exact absurd ⟨_, _, _, _, _, rfl⟩ (quiet _ hraw).2
    | @batch h told announced =>
      obtain ⟨hfirst, rfl, rfl⟩ := told.eq_of_mem hraw
      have hposition : first = h.position := (UInt64.add_left_inj 1).1 hfirst
      subst hposition
      have hcommit : s.commitOf h.position (h.last s) h.raw times = h.commit s times := rfl
      rw [hcommit] at stored counted
      rw [stored, counted]
      exact .committed told (Haul.toNat_last told.1) (accounted_commit moves attained opens)

/-- However it is answered, a step that runs alone accounts for all of its batch or stores
nothing. -/
theorem step_accounts {site : Site} (lossless : ¬ site.lossy) (attained : l.Attained)
    {p : Pipeline} (fits : p.Fits s) :
    p.step.Ends site (fun past l' x => Settled s l past l' x.1) [] l := by
  refine Program.ends_imp ((step_ends lossless fits).and_follows (step_fetches fits.1)) ?_
  intro past l' x h
  obtain ⟨ended, -, fetching⟩ := h
  exact ended.settled attained fetching

def bothSlots : Settings := { Shared.slotwise with batchSize := 5 }

/-- One batch of two slots. The source is down at first, and one transaction is rejected. -/
def shakyStep : (Except Failure StepOutcome × Pipeline) × Ledger :=
  (Host.mk Ingestion.twoSlots 0).runFailing [none, some (.sourceUnavailable "down")] .empty
    (Pipeline.ofSettings bothSlots ⟨256, []⟩).step

theorem shakyStep_accounts : ∃ past,
    Settled bothSlots .empty past shakyStep.2 (.ok (.committed 0 2 ⟨1, 0, 0, 1⟩)) := by
  have fits : (Pipeline.ofSettings bothSlots ⟨256, []⟩).Fits bothSlots := ⟨rfl, rfl, rfl⟩
  obtain ⟨past, settled⟩ := ends_runFailing
    (step_accounts (Host.mk Ingestion.twoSlots 0).lossless_fallible .empty fits)
    [none, some (.sourceUnavailable "down")]
  have result : shakyStep.1.1 = .ok (.committed 0 2 ⟨1, 0, 0, 1⟩) := by decide +kernel
  exact ⟨past, result ▸ settled⟩

end Pipeline

end RouterHistory
