import RouterHistory.Proofs.Reconciliation.ChainSource
import RouterHistory.Proofs.Shared.Law
import RouterHistory.Proofs.Shared.Play

/-!
Pipelines and cycles over a chain that never changes. Whatever comes between what, the rows and
the quarantine are those of the slots that the checkpoints have passed, every mark is at the slot
of its transaction, and the cycles find nothing to correct.
-/
namespace RouterHistory.Reconciliation

open Shared

/-- Pipelines with one classifier, each with the genesis slot of its id, and their reconcilers. -/
def stable (c : Chain) (k : Classifier) (genesis : String → Slot) : Site where
  source := c.Answers
  failing := True
  lossy := True
  settings s := s.classifier = k ∧ s.genesisSlot = genesis s.id
  reconcilers r := ∃ s : Settings,
    (s.classifier = k ∧ s.genesisSlot = genesis s.id) ∧ r = .ofSettings s

def Covered (genesis : String → Slot) (l : Ledger) (s : Slot) : Prop :=
  ∃ (id : String) (cp : Checkpoint),
    l.checkpoints[id]? = some cp ∧ genesis id < s ∧ s ≤ cp.slot

structure Passed (c : Chain) (k : Classifier) (genesis : String → Slot) (l : Ledger)
    (tx : Transaction) : Prop where
  has : c.Has tx
  router : k.isRouterTransaction tx
  covered : Covered genesis l tx.slot

/-- The ledger has exactly what the checkpoints have passed. -/
structure Exact (c : Chain) (k : Classifier) (genesis : String → Slot) (l : Ledger) : Prop where
  rows : ∀ (S : Signature) (row : Record), l.rows[S]? = some row ↔
    ∃ tx, Passed c k genesis l tx ∧ tx.signature = S ∧ k.classify (c.timed tx) = .ok row
  quarantine : ∀ S : Signature, S ∈ l.quarantine ↔
    ∃ tx, Passed c k genesis l tx ∧ tx.signature = S ∧ ∃ r, k.classify (c.timed tx) = .error r
  marks : ∀ (S : Signature) (s : Slot), l.marks[S]? = some s →
    ∃ tx, Passed c k genesis l tx ∧ tx.signature = S ∧ tx.slot = s ∧
      ∃ row, k.classify (c.timed tx) = .ok row
  named : ∀ (S : Signature) (q : Quarantined), l.quarantine[S]? = some q → q.signature = S
  checkpoints : ∀ (id : String) (cp : Checkpoint), l.checkpoints[id]? = some cp →
    cp.pipelineId = id ∧ genesis id ≤ cp.slot

def Advances (l l' : Ledger) : Prop :=
  ∀ (id : String) (cp : Checkpoint), l.checkpoints[id]? = some cp →
    ∃ cp', l'.checkpoints[id]? = some cp' ∧ cp.slot ≤ cp'.slot

def exactness (c : Chain) (k : Classifier) (genesis : String → Slot) : Law where
  holds := Exact c k genesis
  grows := Advances
  refl _ _ cp h := ⟨cp, h, UInt64.le_refl _⟩
  trans h h' id cp hcp := by
    obtain ⟨cp', hcp', hle⟩ := h id cp hcp
    obtain ⟨cp'', hcp'', hle'⟩ := h' id cp' hcp'
    exact ⟨cp'', hcp'', UInt64.le_trans hle hle'⟩

variable {c : Chain} {k : Classifier} {genesis : String → Slot} {l l' : Ledger}

theorem Covered.grow {s : Slot} (h : Covered genesis l s) (hl : Advances l l') :
    Covered genesis l' s := by
  obtain ⟨id, cp, hcp, hgenesis, hle⟩ := h
  obtain ⟨cp', hcp', hle'⟩ := hl id cp hcp
  exact ⟨id, cp', hcp', hgenesis, UInt64.le_trans hle hle'⟩

theorem Passed.grow {tx : Transaction} (h : Passed c k genesis l tx) (hl : Advances l l') :
    Passed c k genesis l' tx := ⟨h.has, h.router, h.covered.grow hl⟩

theorem exact_empty : Exact c k genesis .empty := by
  have hnone : ∀ tx, ¬ Passed c k genesis .empty tx := by
    intro tx h
    obtain ⟨-, -, id, cp, hcp, -⟩ := h
    simp [Ledger.empty] at hcp
  have hrows : ∀ S : Signature, Ledger.empty.rows[S]? = none := by simp [Ledger.empty]
  have hquarantine : ∀ S : Signature, S ∉ Ledger.empty.quarantine := by simp [Ledger.empty]
  refine ⟨fun S row => ?_, fun S => ?_, fun S s h => ?_, fun S q h => ?_, fun id cp h => ?_⟩
  · simp [hrows, hnone]
  · simp [hquarantine, hnone]
  · simp [Ledger.empty] at h
  · simp [Ledger.empty] at h
  · simp [Ledger.empty] at h

/-- Only rows, marks, quarantine and checkpoints matter, and of the checkpoints only the slots. -/
theorem Exact.of_same_slots (h : Exact c k genesis l) (hrows : l'.rows = l.rows)
    (hquarantine : l'.quarantine = l.quarantine)
    (hmarks : ∀ (S : Signature) (s : Slot), l'.marks[S]? = some s → l.marks[S]? = some s)
    (hcovered : ∀ s, Covered genesis l' s ↔ Covered genesis l s)
    (hcheckpoints : ∀ (id : String) (cp : Checkpoint), l'.checkpoints[id]? = some cp →
      cp.pipelineId = id ∧ genesis id ≤ cp.slot) : Exact c k genesis l' := by
  have hpassed : ∀ tx, Passed c k genesis l' tx ↔ Passed c k genesis l tx := fun tx =>
    ⟨fun ht => ⟨ht.has, ht.router, (hcovered _).1 ht.covered⟩,
      fun ht => ⟨ht.has, ht.router, (hcovered _).2 ht.covered⟩⟩
  refine ⟨fun S row => ?_, fun S => ?_, fun S s hs => ?_, ?_, hcheckpoints⟩
  · rw [hrows, h.rows]
    simp only [hpassed]
  · rw [hquarantine, h.quarantine]
    simp only [hpassed]
  · obtain ⟨tx, htx, hrest⟩ := h.marks S s (hmarks S s hs)
    exact ⟨tx, (hpassed tx).2 htx, hrest⟩
  · rw [hquarantine]
    exact h.named

theorem Exact.mem_quarantined (h : Exact c k genesis l) {S : Signature} :
    S ∈ l.quarantined.map Quarantined.signature ↔
      ∃ tx, Passed c k genesis l tx ∧ tx.signature = S ∧
        ∃ r, k.classify (c.timed tx) = .error r := by
  rw [← h.quarantine, List.mem_map]
  constructor
  · intro hmem
    obtain ⟨q, hq, rfl⟩ := hmem
    obtain ⟨T, hT⟩ := (Ledger.mem_quarantined l).1 hq
    rw [h.named T q hT, Std.ExtTreeMap.mem_iff_isSome_getElem?, hT]
    rfl
  · intro hS
    obtain ⟨q, hq⟩ := Option.isSome_iff_exists.1 (Std.ExtTreeMap.mem_iff_isSome_getElem?.1 hS)
    exact ⟨q, (Ledger.mem_quarantined l).2 ⟨S, hq⟩, h.named S q hq⟩

theorem exact_finalizeThrough (h : Exact c k genesis l) (boundary : Slot) :
    Exact c k genesis (l.finalizeThrough boundary).2 := by
  refine h.of_same_slots rfl rfl (fun S s hs => ?_) (fun _ => Iff.rfl) h.checkpoints
  have hfilter : (l.finalizeThrough boundary).2.marks =
      l.marks.filter fun _ slot => boundary < slot := rfl
  rw [hfilter, Std.ExtTreeMap.getElem?_filter'] at hs
  exact (Option.filter_eq_some_iff.1 hs).1

/-- A checkpoint at its genesis slot has passed nothing. -/
theorem exact_start (h : Exact c k genesis l) (id : String) (now : Int) :
    Exact c k genesis (l.answer now (.start id (genesis id))).2 ∧
      Advances l (l.answer now (.start id (genesis id))).2 := by
  have hafter : (l.answer now (.start id (genesis id))).2 =
      { l with checkpoints := (l.checkpoints.start id (genesis id) now).2 } := rfl
  rw [hafter]
  unfold Checkpoints.start
  cases hcp : l.checkpoints[id]? with
  | some cp => exact ⟨h, (exactness c k genesis).refl l⟩
  | none =>
    have hlookup : ∀ (id' : String) (cp' : Checkpoint), (l.checkpoints.insert id
        (Checkpoint.genesis id (genesis id) now))[id']? = some cp' ↔
        (id = id' ∧ Checkpoint.genesis id (genesis id) now = cp') ∨
          (id ≠ id' ∧ l.checkpoints[id']? = some cp') := by
      intro id' cp'
      rw [Std.ExtTreeMap.getElem?_insert]
      by_cases hid : id = id' <;> simp [hid]
    constructor
    · refine h.of_same_slots rfl rfl (fun _ _ hs => hs) (fun s => ⟨?_, ?_⟩) ?_
      · intro h
        obtain ⟨id', cp', hcp', hgenesis, hle⟩ := h
        rcases (hlookup id' cp').1 hcp' with ⟨rfl, rfl⟩ | ⟨-, hold⟩
        · exact absurd hle (UInt64.not_le.2 hgenesis)
        · exact ⟨id', cp', hold, hgenesis, hle⟩
      · intro h
        obtain ⟨id', cp', hcp', hgenesis, hle⟩ := h
        refine ⟨id', cp', (hlookup id' cp').2 (.inr ⟨?_, hcp'⟩), hgenesis, hle⟩
        intro hid
        subst hid
        simp [hcp] at hcp'
      · intro id' cp' hcp'
        rcases (hlookup id' cp').1 hcp' with ⟨rfl, rfl⟩ | ⟨-, hold⟩
        · exact ⟨rfl, UInt64.le_refl _⟩
        · exact h.checkpoints id' cp' hold
    · intro id' cp' hcp'
      refine ⟨cp', (hlookup id' cp').2 (.inr ⟨?_, hcp'⟩), UInt64.le_refl _⟩
      intro hsame
      subst hsame
      simp [hcp] at hcp'

structure Within (c : Chain) (k : Classifier) (position last : Slot) (tx : Transaction) :
    Prop where
  has : c.Has tx
  router : k.isRouterTransaction tx
  after : position < tx.slot
  upTo : tx.slot ≤ last

/-- The transactions are those of a range of slots, each signature once. -/
structure Drawn (c : Chain) (k : Classifier) (position last : Slot) (txs : List Transaction) :
    Prop where
  mem : ∀ tx, tx ∈ txs ↔ ∃ t, Within c k position last t ∧ tx = c.timed t
  nodup : (txs.map Transaction.signature).Nodup

theorem drawn_of_serves {s : Settings} {head position : Slot} {raw : List Delivery}
    (ahead : s.Ahead head position)
    (serves : c.Serves (position + 1) (s.lastOf head position) s.classifier.programIds raw) :
    Drawn c s.classifier position (s.lastOf head position)
      (s.transactionsOf position (s.lastOf head position) raw) := by
  refine ⟨fun tx => ?_, Settings.nodup_transactionsOf⟩
  rw [Settings.mem_transactionsOf]
  constructor
  · intro h
    obtain ⟨htx, hrouter⟩ := h
    obtain ⟨t, has, hfirst, hlast, rfl⟩ := serves.of_mem_transactions htx
    have hafter : position < t.slot := (Settings.succ_position_le ahead).1 hfirst
    exact ⟨t, ⟨has, hrouter, hafter, hlast⟩, rfl⟩
  · intro h
    obtain ⟨t, ht, rfl⟩ := h
    have hfirst : position + 1 ≤ t.slot := (Settings.succ_position_le ahead).2 ht.after
    exact ⟨serves.mem_transactions ht.has hfirst ht.upTo ht.router, ht.router⟩

/-- Moving a checkpoint covers the slots that it passes. -/
theorem covered_moved {id : String} {cp next : Checkpoint} (hcp : l.checkpoints[id]? = some cp)
    (hid : next.pipelineId = id) (hgenesis : genesis id ≤ cp.slot) (hlt : cp.slot < next.slot)
    (hl' : l'.checkpoints = l.checkpoints.insert next.pipelineId next) (slot : Slot) :
    Covered genesis l' slot ↔ Covered genesis l slot ∨ cp.slot < slot ∧ slot ≤ next.slot := by
  unfold Covered
  rw [hl', hid]
  constructor
  · intro h
    obtain ⟨id', cp', hcp', hbelow, hle⟩ := h
    rw [Std.ExtTreeMap.getElem?_insert] at hcp'
    by_cases hsame : id = id'
    · subst hsame
      rw [if_pos (Std.compare_eq_iff_eq.2 rfl)] at hcp'
      cases hcp'
      by_cases hnew : cp.slot < slot
      · exact .inr ⟨hnew, hle⟩
      · exact .inl ⟨id, cp, hcp, hbelow, UInt64.not_lt.1 hnew⟩
    · rw [if_neg (mt Std.compare_eq_iff_eq.1 hsame)] at hcp'
      exact .inl ⟨id', cp', hcp', hbelow, hle⟩
  · have hnext : (l.checkpoints.insert id next)[id]? = some next := by simp
    intro h
    rcases h with ⟨id', cp', hcp', hbelow, hle⟩ | ⟨hnew, hle⟩
    · by_cases hsame : id = id'
      · subst hsame
        cases hcp.symm.trans hcp'
        exact ⟨id, next, hnext, hbelow, UInt64.le_of_lt (UInt64.lt_of_le_of_lt hle hlt)⟩
      · refine ⟨id', cp', ?_, hbelow, hle⟩
        rw [Std.ExtTreeMap.getElem?_insert, if_neg (mt Std.compare_eq_iff_eq.1 hsame)]
        exact hcp'
    · exact ⟨id, next, hnext, UInt64.lt_of_le_of_lt hgenesis hnew, hle⟩

theorem advances_moved {id : String} {cp next : Checkpoint} (hcp : l.checkpoints[id]? = some cp)
    (hid : next.pipelineId = id) (hlt : cp.slot < next.slot)
    (hl' : l'.checkpoints = l.checkpoints.insert next.pipelineId next) : Advances l l' := by
  intro id' cp' hcp'
  rw [hl', hid, Std.ExtTreeMap.getElem?_insert]
  by_cases hsame : id = id'
  · subst hsame
    cases hcp.symm.trans hcp'
    exact ⟨next, if_pos (Std.compare_eq_iff_eq.2 rfl), UInt64.le_of_lt hlt⟩
  · rw [if_neg (mt Std.compare_eq_iff_eq.1 hsame)]
    exact ⟨cp', hcp', UInt64.le_refl _⟩

section Batch

variable {position last : Slot} {txs : List Transaction}

/-- What is passed once the slots of a batch are covered. -/
theorem passed_iff_of_covered
    (hcovered : ∀ slot, Covered genesis l' slot ↔
      Covered genesis l slot ∨ position < slot ∧ slot ≤ last) (tx : Transaction) :
    Passed c k genesis l' tx ↔ Passed c k genesis l tx ∨ Within c k position last tx := by
  constructor
  · intro h
    rcases (hcovered tx.slot).1 h.covered with hold | ⟨hafter, hupTo⟩
    · exact .inl ⟨h.has, h.router, hold⟩
    · exact .inr ⟨h.has, h.router, hafter, hupTo⟩
  · intro h
    rcases h with h | h
    · exact ⟨h.has, h.router, (hcovered tx.slot).2 (.inl h.covered)⟩
    · exact ⟨h.has, h.router, (hcovered tx.slot).2 (.inr ⟨h.after, h.upTo⟩)⟩

/-- A row of a batch is that of its transaction on the chain. -/
theorem Drawn.of_mem_entries (drawn : Drawn c k position last txs) {e : Entry}
    (he : e ∈ (Sorted.ofTransactions k txs).entries) :
    ∃ t, Within c k position last t ∧ k.classify (c.timed t) = .ok e.record ∧
      e.slot = t.slot ∧ e.signature = t.signature := by
  obtain ⟨tx, htx, row, hrow, rfl⟩ := Sorted.mem_entries.1 he
  obtain ⟨t, ht, rfl⟩ := (drawn.mem tx).1 htx
  have hsame : row.signature = (c.timed t).signature := Classifier.signature_of_classify hrow
  exact ⟨t, ht, hrow, rfl, hsame⟩

theorem Drawn.mem_entries (drawn : Drawn c k position last txs) {t : Transaction}
    (ht : Within c k position last t) {row : Record} (hrow : k.classify (c.timed t) = .ok row) :
    ⟨row, t.slot⟩ ∈ (Sorted.ofTransactions k txs).entries :=
  Sorted.mem_entries.2 ⟨c.timed t, (drawn.mem _).2 ⟨t, ht, rfl⟩, row, hrow, rfl⟩

theorem Exact.rows_written (h : Exact c k genesis l) (drawn : Drawn c k position last txs)
    (S : Signature) (row : Record) :
    (l.written (Sorted.ofTransactions k txs).entries).rows[S]? = some row ↔
      ∃ tx, (Passed c k genesis l tx ∨ Within c k position last tx) ∧ tx.signature = S ∧
        k.classify (c.timed tx) = .ok row := by
  have hnodup := Sorted.nodup_entries (c := k) drawn.nodup
  by_cases hS : ∃ e ∈ (Sorted.ofTransactions k txs).entries, e.signature = S
  · obtain ⟨e, he, rfl⟩ := hS
    obtain ⟨t, ht, hrow, -, hsame⟩ := drawn.of_mem_entries he
    rw [l.rows_written_of_mem hnodup he]
    constructor
    · intro heq
      cases heq
      exact ⟨t, .inr ht, hsame.symm, hrow⟩
    · intro h
      obtain ⟨tx, htx, htxs, htxrow⟩ := h
      have has : c.Has tx := htx.elim Passed.has Within.has
      cases has.eq ht.has (htxs.trans hsame)
      exact congrArg some (Except.ok.inj (hrow.symm.trans htxrow))
  · rw [l.rows_written_of_forall_ne fun e he hsame => hS ⟨e, he, hsame⟩, h.rows]
    constructor
    · intro h
      obtain ⟨tx, htx, hrest⟩ := h
      exact ⟨tx, .inl htx, hrest⟩
    · intro h
      obtain ⟨tx, htx | ht, rfl, hrow⟩ := h
      · exact ⟨tx, htx, rfl, hrow⟩
      · have hsame : row.signature = (c.timed tx).signature :=
          Classifier.signature_of_classify hrow
        exact absurd ⟨_, drawn.mem_entries ht hrow, hsame⟩ hS

theorem Exact.mem_quarantine_written (h : Exact c k genesis l)
    (drawn : Drawn c k position last txs) (times : Nat → Int) (S : Signature) :
    S ∈ (l.quarantineAll ((Sorted.ofTransactions k txs).quarantined times)).quarantine ↔
      ∃ tx, (Passed c k genesis l tx ∨ Within c k position last tx) ∧ tx.signature = S ∧
        ∃ r, k.classify (c.timed tx) = .error r := by
  rw [Ledger.mem_quarantineAll, h.quarantine]
  constructor
  · intro h
    rcases h with ⟨tx, htx, hrest⟩ | ⟨q, hq, rfl⟩
    · exact ⟨tx, .inl htx, hrest⟩
    · obtain ⟨tx, htx, r, hr, now, rfl⟩ := Sorted.mem_quarantined hq
      obtain ⟨t, ht, rfl⟩ := (drawn.mem tx).1 htx
      exact ⟨t, .inr ht, rfl, r, hr⟩
  · intro h
    obtain ⟨tx, htx | ht, rfl, r, hr⟩ := h
    · exact .inl ⟨tx, htx, rfl, r, hr⟩
    · have hmem : c.timed tx ∈ txs := (drawn.mem _).2 ⟨tx, ht, rfl⟩
      obtain ⟨now, hq⟩ := Sorted.exists_mem_quarantined hmem hr times
      exact .inr ⟨_, hq, rfl⟩

theorem Exact.marks_written (h : Exact c k genesis l) (drawn : Drawn c k position last txs)
    {S : Signature} {slot : Slot}
    (hslot : (l.written (Sorted.ofTransactions k txs).entries).marks[S]? = some slot) :
    ∃ tx, (Passed c k genesis l tx ∨ Within c k position last tx) ∧ tx.signature = S ∧
      tx.slot = slot ∧ ∃ row, k.classify (c.timed tx) = .ok row := by
  have hnodup := Sorted.nodup_entries (c := k) drawn.nodup
  by_cases hS : ∃ e ∈ (Sorted.ofTransactions k txs).entries, e.signature = S
  · obtain ⟨e, he, rfl⟩ := hS
    obtain ⟨t, ht, hrow, hat, hsame⟩ := drawn.of_mem_entries he
    rw [l.marks_written_of_mem hnodup he] at hslot
    split at hslot
    · cases hslot
    · cases hslot
      exact ⟨t, .inr ht, hsame.symm, hat.symm, _, hrow⟩
  · rw [l.marks_written_of_forall_ne fun e he hsame => hS ⟨e, he, hsame⟩] at hslot
    obtain ⟨tx, htx, hrest⟩ := h.marks S slot hslot
    exact ⟨tx, .inl htx, hrest⟩

/-- Storing the batch after the checkpoint keeps the ledger exact. -/
theorem exact_written (h : Exact c k genesis l) (drawn : Drawn c k position last txs)
    (times : Nat → Int)
    (hl' : l'.rows = (l.written (Sorted.ofTransactions k txs).entries).rows ∧
      l'.marks = (l.written (Sorted.ofTransactions k txs).entries).marks ∧
      l'.quarantine =
        (l.quarantineAll ((Sorted.ofTransactions k txs).quarantined times)).quarantine)
    (hcovered : ∀ slot, Covered genesis l' slot ↔
      Covered genesis l slot ∨ position < slot ∧ slot ≤ last)
    (hcheckpoints : ∀ (id : String) (cp : Checkpoint), l'.checkpoints[id]? = some cp →
      cp.pipelineId = id ∧ genesis id ≤ cp.slot) : Exact c k genesis l' := by
  obtain ⟨hrows, hmarks, hquarantine⟩ := hl'
  have hpassed := passed_iff_of_covered (c := c) (k := k) hcovered
  refine ⟨fun S row => ?_, fun S => ?_, fun S slot hslot => ?_, fun S q hq => ?_, hcheckpoints⟩
  · simp only [hrows, hpassed]
    exact h.rows_written drawn S row
  · simp only [hquarantine, hpassed]
    exact h.mem_quarantine_written drawn times S
  · simp only [hpassed]
    exact h.marks_written drawn (hmarks ▸ hslot)
  · rw [hquarantine] at hq
    rcases l.getElem?_quarantineAll hq with ⟨-, hsame⟩ | hq
    · exact hsame
    · exact h.named S q hq

theorem exact_commit (h : Exact c k genesis l) (drawn : Drawn c k position last txs)
    {batch : Commit} {id : String} (now : Int) (times : Nat → Int)
    (hbatch : batch = (Sorted.ofTransactions k txs).commit times (some ⟨id, position, last⟩)) :
    Exact c k genesis (l.commit now batch).2 ∧ Advances l (l.commit now batch).2 := by
  subst hbatch
  cases hmove : l.checkMove now (some ⟨id, position, last⟩) with
  | error f =>
    rw [l.commit_of_error hmove]
    exact ⟨h, (exactness c k genesis).refl l⟩
  | ok next =>
    obtain ⟨cp, hcp, rfl, hlt, hnext⟩ := l.checkMove_eq_ok.1 hmove
    obtain ⟨hid, hgenesis⟩ := h.checkpoints id cp hcp
    obtain ⟨next, rfl⟩ : ∃ n, next = some n := ⟨_, hnext⟩
    have hmoved : next.pipelineId = id ∧ next.slot = last := by
      cases hnext
      exact ⟨hid, rfl⟩
    obtain ⟨hnextid, rfl⟩ := hmoved
    have hinsert := l.checkpoints_commit (c := (Sorted.ofTransactions k txs).commit times
      (some ⟨id, cp.slot, next.slot⟩)) hmove
    refine ⟨exact_written h drawn times ⟨l.rows_commit hmove, l.marks_commit hmove,
      l.quarantine_commit hmove⟩ (covered_moved hcp hnextid hgenesis hlt hinsert) ?_,
      advances_moved hcp hnextid hlt hinsert⟩
    intro id' cp' hcp'
    rw [hinsert, Std.ExtTreeMap.getElem?_insert] at hcp'
    by_cases hsame : next.pipelineId = id'
    · rw [if_pos (Std.compare_eq_iff_eq.2 hsame)] at hcp'
      cases hcp'
      refine ⟨hsame, UInt64.le_of_lt (UInt64.lt_of_le_of_lt ?_ hlt)⟩
      rwa [← hsame, hnextid]
    · rw [if_neg (mt Std.compare_eq_iff_eq.1 hsame)] at hcp'
      exact h.checkpoints id' cp' hcp'

end Batch

theorem exact_byStep {s : Settings} (allowed : (stable c k genesis).settings s)
    {past : List Call} {q : Request} {a : q.Answer} (h : Exact c k genesis l)
    (recorded : Recorded (exactness c k genesis) (stable c k genesis)
      (Pipeline.StepRule s) past l)
    (inOrder : Pipeline.StepRule s past q) (answered : Answered (stable c k genesis) l q a l') :
    Exact c k genesis l' ∧ Advances l l' := by
  have same : Exact c k genesis l ∧ Advances l l := ⟨h, (exactness c k genesis).refl l⟩
  obtain ⟨rfl, hgenesis⟩ := allowed
  cases inOrder with
  | start =>
    cases answered with
    | store now => exact hgenesis ▸ exact_start h s.id now
    | storeFailed => exact same
  | @commit position last raw times fetched =>
    obtain ⟨⟨head, l₁, -, ahead, rfl⟩, l₂, hraw⟩ := fetched
    have drawn := drawn_of_serves ahead (recorded.told_by_source hraw)
    cases answered with
    | store now => exact exact_commit h drawn now times rfl
    | storeFailed => exact same
    | receiptLost now => exact exact_commit h drawn now times rfl
  | _ => cases answered <;> exact same

/-- No slot in sight is the highest, so a window begins after the genesis slot. -/
theorem genesis_lt_of_rescanStart_le {boundary start slot : Slot}
    (hboundary : boundary < Slot.top)
    (hstart : start < Slot.top) (hle : Reconciler.rescanStart boundary start ≤ slot) :
    start < slot := by
  have hafter := Reconciler.toNat_rescanStart (Reconciler.max_ne_top hboundary hstart)
  have hmax : max boundary start = if boundary ≤ start then start else boundary := rfl
  rw [UInt64.le_iff_toNat_le, hafter, hmax] at hle
  rw [UInt64.lt_iff_toNat_lt]
  by_cases hbelow : boundary ≤ start
  · rw [if_pos hbelow] at hle
    omega
  · rw [if_neg hbelow] at hle
    rw [UInt64.le_iff_toNat_le] at hbelow
    omega

section Cycle

variable {r : Reconciler} {past : List Call}

abbrev Observed (c : Chain) (k : Classifier) (genesis : String → Slot) (r : Reconciler)
    (past : List Call) (l : Ledger) : Prop :=
  Recorded (exactness c k genesis) (stable c k genesis) r.CycleRule past l

/-- A mark that the cycle was told of is that of a transaction that was passed. -/
theorem Observed.pending (h : Observed c k genesis r past l) {mark : Mark}
    (hpending : Reconciler.Pending past mark) :
    ∃ tx row, Passed c k genesis l tx ∧ tx.signature = mark.signature ∧ tx.slot = mark.slot ∧
      k.classify (c.timed tx) = .ok row := by
  obtain ⟨boundary, marks, l₀, hmem, hcall⟩ := hpending
  obtain ⟨older, -, hentry⟩ := h.entry_of_mem hcall
  obtain ⟨now, htold⟩ := hentry.told_by_store
  have hlisted : l₀.provisionalAfter boundary = marks := Except.ok.inj htold
  rw [← hlisted, Ledger.mem_provisionalAfter] at hmem
  have hexact : Exact c k genesis l₀ := hentry.holds
  obtain ⟨tx, hpassed, hsame, hslot, row, hrow⟩ := hexact.marks _ _ hmem.1
  exact ⟨tx, row, hpassed.grow hentry.grows, hsame, hslot, hrow⟩

/-- It is resolved as that transaction. -/
theorem Observed.resolution (h : Observed c k genesis r past l) {mark : Mark} {verdict : Verdict}
    (hresolution : Reconciler.Resolution past mark verdict) :
    ∃ tx row, Passed c k genesis l tx ∧ tx.signature = mark.signature ∧ tx.slot = mark.slot ∧
      k.classify (c.timed tx) = .ok row ∧ verdict = .canonical (c.timed tx) := by
  obtain ⟨newer, l₀, older, hpending, rfl⟩ := hresolution
  have hentry := h.entry
  obtain ⟨tx, row, hpassed, hsame, hslot, hrow⟩ := Observed.pending hentry.before hpending
  have hresolves : c.Resolves mark.signature verdict :=
    h.told_by_source (List.mem_append_right newer (List.mem_cons_self ..))
  refine ⟨tx, row, hpassed.grow hentry.grows, hsame, hslot, hrow, ?_⟩
  cases hresolves with
  | @canonical t has hsame' => rw [hpassed.has.eq has (hsame.trans hsame'.symm)]
  | absent none => exact absurd hsame (none tx hpassed.has)

/-- What the cycle fetches again was passed. -/
theorem Observed.delivered (hgenesis : ∀ id, genesis id < Slot.top)
    (hr : (stable c k genesis).reconcilers r) (h : Observed c k genesis r past l)
    {tx : Transaction} (hdelivered : Reconciler.Delivered r past tx) :
    ∃ t, Passed c k genesis l t ∧ tx = c.timed t := by
  obtain ⟨s, ⟨rfl, hs⟩, rfl⟩ := hr
  obtain ⟨first, last, raw, l₁, ⟨id, start, hrescan, ⟨head, l₂, hhead, hfirst⟩,
    ⟨cp, l₃, hcp, rfl⟩, -⟩, hraw, htx, hrouter⟩ := hdelivered
  cases hrescan
  have serves : c.Serves first cp.slot _ raw := h.told_by_source hraw
  have hbelow : head < Slot.top := h.told_by_source hhead
  obtain ⟨t, has, hafter, hle, rfl⟩ := serves.of_mem_transactions htx
  obtain ⟨older, -, hentry⟩ := h.entry_of_mem hcp
  obtain ⟨now, htold⟩ := hentry.told_by_store
  have hstored : l₃.checkpoints[s.id]? = some cp := Except.ok.inj htold
  refine ⟨t, ⟨has, hrouter, Covered.grow ⟨s.id, cp, hstored, ?_, hle⟩ hentry.grows⟩, rfl⟩
  rw [hs] at hfirst
  subst hfirst
  have hdown : Slot.down head s.finalityDepth < Slot.top := by
    have hle := Slot.toNat_down head s.finalityDepth
    rw [UInt64.lt_iff_toNat_lt] at hbelow ⊢
    omega
  exact genesis_lt_of_rescanStart_le hdown (hgenesis s.id) hafter

/-- The row that is stored is that of the transaction that the cycle resolved. -/
theorem Observed.stored_eq {mark : Mark} {tx : Transaction} {row : Record}
    {stored : Option Record}
    {l₀ : Ledger} {older : List Call}
    (h : Observed c k genesis r
      (⟨.store (.record mark.signature), Except.ok stored, l₀⟩ :: older) l)
    (resolved : Reconciler.Resolution older mark (.canonical tx))
    (classified : k.classify tx = .ok row) : stored = some row := by
  have hentry := h.latest
  have hexact : Exact c k genesis l₀ := hentry.holds
  obtain ⟨t, row', hpassed, hsame, -, hrow, hverdict⟩ :=
    Observed.resolution hentry.before resolved
  cases hverdict
  have hrows : row' = row := Except.ok.inj (hrow.symm.trans classified)
  obtain ⟨now, htold⟩ := hentry.told_by_store
  have hstored : l₀.rows[mark.signature]? = stored := Except.ok.inj htold
  rw [← hstored, ← hrows, hexact.rows]
  exact ⟨t, hpassed, hsame, hrow⟩

/-- Nothing that the cycle fetches again is missing. -/
theorem Observed.not_unrecorded (hgenesis : ∀ id, genesis id < Slot.top)
    (hr : (stable c k genesis).reconcilers r) (h : Observed c k genesis r past l)
    (tx : Transaction) : ¬ Reconciler.Unrecorded r past tx := by
  intro hunrecorded
  obtain ⟨newer, l₃, older, ⟨newer', listed, l₂, older', hdelivered, hunlisted, rfl⟩, -, rfl⟩ :=
    hunrecorded
  have hlooked := h.entry
  have hread := hlooked.before.entry
  obtain ⟨t, hpassed, rfl⟩ := Observed.delivered hgenesis hr hread.before hdelivered
  cases hrow : k.classify (c.timed t) with
  | ok row =>
    obtain ⟨now, htold⟩ := hlooked.told_by_store
    have hunseen : l₃.lifecycle t.signature = .unseen := Except.ok.inj htold
    have hexact : Exact c k genesis l₃ := hlooked.holds
    have hstored : l₃.rows[t.signature]? = some row :=
      (hexact.rows _ _).2 ⟨t, hpassed.grow hread.grows, rfl, hrow⟩
    have hmissing := ((Ledger.lifecycle_eq_unseen l₃).1 hunseen).2
    rw [Std.ExtTreeMap.mem_iff_isSome_getElem?, hstored] at hmissing
    exact hmissing rfl
  | error rejection =>
    obtain ⟨now, htold⟩ := hread.told_by_store
    have hlisted : l₂.quarantined = listed := Except.ok.inj htold
    have hexact : Exact c k genesis l₂ := hread.holds
    rw [← hlisted, hexact.mem_quarantined] at hunlisted
    exact hunlisted ⟨t, hpassed, rfl, rejection, hrow⟩

/-- So a cycle never asks to change anything. -/
theorem Observed.quiet (hgenesis : ∀ id, genesis id < Slot.top)
    (hr : (stable c k genesis).reconcilers r) (h : Observed c k genesis r past l) {q : Request}
    (inOrder : r.CycleRule past q) :
    ¬ Reconciler.Corrects q ∧ ∀ S s, q ≠ .store (.moveMark S s) := by
  have hclassifier : r.classifier = k := by
    obtain ⟨s, ⟨hk, -⟩, rfl⟩ := hr
    exact hk
  cases inOrder with
  | orphan resolved unfetched =>
    obtain ⟨tx, row, -, -, -, -, hverdict⟩ := h.resolution resolved
    cases hverdict
  | moveMark read resolved classified moved =>
    subst read
    obtain ⟨tx, row, -, -, hslot, -, hverdict⟩ := Observed.resolution h.latest.before resolved
    cases hverdict
    exact absurd hslot moved
  | upsert read resolved classified differs =>
    subst read
    exact absurd (Observed.stored_eq h resolved (hclassifier ▸ classified)) differs
  | commit times unrecorded nodup hsome =>
    obtain ⟨tx, rest, rfl⟩ := List.exists_cons_of_ne_nil hsome
    have hmissing := unrecorded tx (List.mem_cons_self ..)
    exact absurd hmissing (Observed.not_unrecorded hgenesis hr h tx)
  | _ => exact ⟨nofun, nofun⟩

theorem exact_byCycle (hgenesis : ∀ id, genesis id < Slot.top)
    (hr : (stable c k genesis).reconcilers r) {q : Request} {a : q.Answer}
    (h : Exact c k genesis l) (recorded : Observed c k genesis r past l)
    (inOrder : r.CycleRule past q) (answered : Answered (stable c k genesis) l q a l') :
    Exact c k genesis l' ∧ Advances l l' := by
  have same : Exact c k genesis l ∧ Advances l l := ⟨h, (exactness c k genesis).refl l⟩
  obtain ⟨hcorrects, hmoves⟩ := recorded.quiet hgenesis hr inOrder
  cases inOrder with
  | orphan => exact absurd (.orphan ..) hcorrects
  | upsert => exact absurd (.upsert _) hcorrects
  | commit => exact absurd (.commit _) hcorrects
  | moveMark => exact absurd rfl (hmoves _ _)
  | finalizeThrough =>
    cases answered with
    | store now => exact ⟨exact_finalizeThrough h _, same.2⟩
    | storeFailed => exact same
  | _ => cases answered <;> exact same

end Cycle

/-- Over a chain that never changes, at every point of every run: the rows are the classified
transactions of the slots that the checkpoints have passed, the quarantine lists those that were
turned down, each mark is at the slot of its transaction, and no cycle corrects anything. -/
theorem stable_chain_is_followed (hgenesis : ∀ id, genesis id < Slot.top) {σ : State}
    (reached : Reachable (stable c k genesis) .empty σ) :
    (∀ (S : Signature) (row : Record), σ.ledger.rows[S]? = some row ↔
      ∃ tx, Passed c k genesis σ.ledger tx ∧ tx.signature = S ∧
        k.classify (c.timed tx) = .ok row) ∧
    (∀ S, S ∈ σ.ledger.quarantined.map Quarantined.signature ↔
      ∃ tx, Passed c k genesis σ.ledger tx ∧ tx.signature = S ∧
        ∃ r, k.classify (c.timed tx) = .error r) ∧
    (∀ (S : Signature) (s : Slot), σ.ledger.marks[S]? = some s →
      ∃ tx, c.Has tx ∧ tx.signature = S ∧ tx.slot = s) ∧
    (∀ i past report, σ.workers i = some (.cycling past (.done (.ok report))) →
      report.Clean) := by
  have kept : (exactness c k genesis).Kept (stable c k genesis) :=
    ⟨fun s allowed past q a l l' holds recorded inOrder answered =>
        exact_byStep allowed holds recorded inOrder answered,
      fun r allowed past q a l l' holds recorded inOrder answered =>
        exact_byCycle hgenesis allowed holds recorded inOrder answered⟩
  have lawful := kept.reachable exact_empty reached
  have hexact : Exact c k genesis σ.ledger := lawful.holds
  refine ⟨hexact.rows, fun S => hexact.mem_quarantined, fun S s hs => ?_, ?_⟩
  · obtain ⟨tx, hpassed, hsame, hslot, -⟩ := hexact.marks S s hs
    exact ⟨tx, hpassed.has, hsame, hslot⟩
  · intro i past report hw
    cases lawful.conducted i _ hw with
    | cycling allowed recorded follows =>
      refine follows report rfl fun call hcall => ?_
      obtain ⟨older, -, hentry⟩ := recorded.entry_of_mem hcall
      exact (Observed.quiet hgenesis allowed hentry.before hentry.inOrder).1

def rejectedSignature : Signature := ⟨String.ofList (List.replicate 63 '1' ++ ['2'])⟩

def twoBlocks : Recording :=
  .ofDeliveries (some 2)
    [⟨1, some "b1", none, some 1700000001,
      [⟨soundSignature, 1, none, none, [⟨"router", "2"⟩], []⟩]⟩,
     ⟨2, some "b2", some "b1", some 1700000002,
        [⟨rejectedSignature, 2, none, none, [⟨"router", "3"⟩], []⟩]⟩]

theorem ofRecording_twoBlocks : Chain.OfRecording twoBlocks :=
  .of_nodup (by decide +kernel) (by decide +kernel)

/-- A pipeline has stored slot one and goes on to slot two when a cycle begins, and from there the
two take turns: slot two is stored after the cycle has listed the open marks and before it fetches
the slots again. -/
def followed : State :=
  let host : Host := ⟨twoBlocks.reply, 0⟩
  (State.idle .empty).playAll ([(0, .join slotwise ⟨1, []⟩)] ++
    List.replicate 9 (0, .goOn host) ++
    [(1, .cycle (.ofSettings slotwise))] ++
    (List.replicate 9 [(0, .goOn host), (1, .goOn host)]).flatten)

theorem interleaved_chain_is_followed :
    (∃ tx row, followed.ledger.rows[soundSignature]? = some row ∧
      Passed (.ofRecording _ ofRecording_twoBlocks) slotwise.classifier (fun _ => 0)
        followed.ledger tx) ∧
    (∃ tx rejection, rejectedSignature ∈ followed.ledger.quarantined.map Quarantined.signature ∧
      Passed (.ofRecording _ ofRecording_twoBlocks) slotwise.classifier (fun _ => 0)
        followed.ledger tx ∧ slotwise.classifier.classify
          ((Chain.ofRecording _ ofRecording_twoBlocks).timed tx) = .error rejection) ∧
    ∃ past report, followed.workers 1 = some (.cycling past (.done (.ok report))) ∧
      report.Clean := by
  let site := stable (.ofRecording _ ofRecording_twoBlocks) slotwise.classifier fun _ => 0
  have suits : (Host.mk twoBlocks.reply 0).Suits site := fun call =>
    Chain.answers_reply ofRecording_twoBlocks (by decide) call
  have settings : site.settings slotwise := ⟨rfl, rfl⟩
  have reconcilers : site.reconcilers (.ofSettings slotwise) := ⟨_, settings, rfl⟩
  have reached : Reachable site .empty followed := by
    refine Reachable.idle.playAll ?_
    simp [or_imp, forall_and, Action.Suits, suits, settings, reconcilers]
  obtain ⟨hrows, hquarantined, -, hclean⟩ := stable_chain_is_followed (fun _ => by decide) reached
  obtain ⟨hrow, hlisted, hdone⟩ : (followed.ledger.rows[soundSignature]?).isSome ∧
      rejectedSignature ∈ followed.ledger.quarantined.map Quarantined.signature ∧
      ((followed.workers 1).bind Worker.report?).isSome := by
    decide +kernel
  refine ⟨?_, ?_, ?_⟩
  · obtain ⟨row, hrow⟩ := Option.isSome_iff_exists.1 hrow
    obtain ⟨tx, hpassed, -⟩ := (hrows _ row).1 hrow
    exact ⟨tx, row, hrow, hpassed⟩
  · obtain ⟨tx, hpassed, -, rejection, hrejection⟩ := (hquarantined _).1 hlisted
    exact ⟨tx, rejection, hlisted, hpassed, hrejection⟩
  · obtain ⟨report, hreport⟩ := Option.isSome_iff_exists.1 hdone
    obtain ⟨w, hw, hwreport⟩ := Option.bind_eq_some_iff.1 hreport
    obtain ⟨past, rfl⟩ := Worker.report?_eq_some.1 hwreport
    exact ⟨past, report, hw, hclean 1 past report hw⟩

end RouterHistory.Reconciliation
