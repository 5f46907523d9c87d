import RouterHistory.Proofs.Batch.FirstCopies
import RouterHistory.Proofs.Ingestion.CatchingUp
import RouterHistory.Proofs.Ingestion.ExactlyOnce
import RouterHistory.Proofs.Pipeline.SortedTransactions
import RouterHistory.Proofs.Reconciliation.Outcome

/-!
What the batch size decides. Within a batch the first copy of a signature counts, and a later
batch writes over an earlier one; so of all copies of a signature those count that are the first
ones of their batch, and where the batches end decides which these are. A signature that is in one
slot only has the same history for every batch size, and the rows and the quarantine agree
wherever all copies come to the same.
-/
namespace RouterHistory.Ingestion

open Shared

/-- The source delivers the same for a slot whatever range it is asked for. -/
def Steady (source : Answers) (programIds : List String) (contents : Slot → List Delivery) :
    Prop :=
  ∀ first last slot, first ≤ slot → slot ≤ last →
    (source (.slots first last programIds) : List Delivery).filter (·.slot = slot) = contents slot

def copyIn (contents : Slot → List Delivery) (S : Signature) (slot : Slot) : Option Transaction :=
  Gapless.copy? (Gapless.joined slot (contents slot)) S

def lead (source : Answers) (s : Settings) (contents : Slot → List Delivery) (S : Signature)
    (k : Nat) : Option Transaction :=
  (Slot.through (stand source s k + 1) (stand source s (k + 1))).findSome? (copyIn contents S)

/-- The copies of a signature that are the first ones of their batch, over so many batches. -/
def leads (source : Answers) (s : Settings) (contents : Slot → List Delivery) (S : Signature) :
    Nat → List Transaction
  | 0 => []
  | k + 1 => leads source s contents S k ++ (lead source s contents S k).toList

inductive Fate where
  | passed
  | turnedDown
  | recorded (row : Record)
  deriving DecidableEq

def fate (c : Classifier) (tx : Transaction) : Fate :=
  if c.isRouterTransaction tx then
    match c.classify tx with
    | .ok row => .recorded row
    | .error _ => .turnedDown
  else .passed

def Fate.row? : Fate → Option Record
  | .recorded row => some row
  | _ => none

def follow (c : Classifier) (before : Option Record × Option Slot) (tx : Transaction) :
    Option Record × Option Slot :=
  match fate c tx with
  | .recorded row => (some row, some tx.slot)
  | _ => before

variable {source : Answers} {s : Settings} {contents : Slot → List Delivery} {S : Signature}
variable {k : Nat} {l : Ledger} {c : Classifier}

instance (s : Settings) (head position : Slot) : Decidable (s.Ahead head position) :=
  inferInstanceAs (Decidable (¬ _))

instance (source : Answers) (s : Settings) (k : Nat) : Decidable (More source s k) :=
  inferInstanceAs (Decidable (s.Ahead _ _))

theorem fate_eq_turnedDown {tx : Transaction} : fate c tx = .turnedDown ↔
    c.isRouterTransaction tx ∧ ∃ rejection, c.classify tx = .error rejection := by
  unfold fate
  by_cases hrouter : c.isRouterTransaction tx
  · cases c.classify tx <;> simp [hrouter]
  · simp [hrouter]

theorem fate_eq_recorded {tx : Transaction} {row : Record} : fate c tx = .recorded row ↔
    c.isRouterTransaction tx ∧ c.classify tx = .ok row := by
  unfold fate
  by_cases hrouter : c.isRouterTransaction tx
  · cases c.classify tx <;> simp [hrouter]
  · simp [hrouter]

/-- Of each signature a batch stores the first copy, if it is a router transaction. -/
theorem mem_transactionsOf_iff (steady : Steady source s.classifier.programIds contents)
    {tx : Transaction} :
    tx ∈ s.transactionsOf (stand source s k) (stand source s (k + 1)) (delivered source s k) ∧
        tx.signature = S ↔
      lead source s contents S k = some tx ∧ s.classifier.isRouterTransaction tx := by
  have hlead : lead source s contents tx.signature k = some tx ↔ tx ∈ Gapless.transactions
      (stand source s k + 1) (stand source s (k + 1)) (delivered source s k) := by
    rw [Gapless.mem_transactions_iff]
    unfold lead
    rw [Gapless.findSome?_congr fun slot hslot => ?_]
    obtain ⟨hfirst, hlast⟩ := Slot.mem_through.1 hslot
    exact congrArg (fun ds => Gapless.copy? (Gapless.joined slot ds) tx.signature)
      (steady _ _ slot hfirst hlast).symm
  rw [Settings.mem_transactionsOf, ← hlead]
  constructor
  · intro h
    obtain ⟨⟨htx, hrouter⟩, rfl⟩ := h
    exact ⟨htx, hrouter⟩
  · intro h
    obtain ⟨htx, hrouter⟩ := h
    obtain ⟨slot, -, hcopy⟩ := List.exists_of_findSome?_eq_some htx
    have hS := (Gapless.signature_of_copy? hcopy).1
    exact ⟨⟨hS ▸ htx, hrouter⟩, hS⟩

theorem mem_entries_iff (steady : Steady source s.classifier.programIds contents)
    {times : Nat → Int}
    {e : Entry} : e ∈ (batch source s k times).entries ∧ e.signature = S ↔
      ∃ tx row, lead source s contents S k = some tx ∧ fate s.classifier tx = .recorded row ∧
        e = ⟨row, tx.slot⟩ := by
  change e ∈ (Sorted.ofTransactions _ _).entries ∧ _ ↔ _
  rw [Sorted.mem_entries]
  constructor
  · intro h
    obtain ⟨⟨tx, htx, row, hrow, rfl⟩, hS⟩ := h
    have hsame : row.signature = tx.signature := Classifier.signature_of_classify hrow
    obtain ⟨hlead, hrouter⟩ := (mem_transactionsOf_iff steady).1 ⟨htx, hsame.symm.trans hS⟩
    exact ⟨tx, row, hlead, fate_eq_recorded.2 ⟨hrouter, hrow⟩, rfl⟩
  · intro h
    obtain ⟨tx, row, hlead, hfate, rfl⟩ := h
    obtain ⟨hrouter, hrow⟩ := fate_eq_recorded.1 hfate
    obtain ⟨htx, hS⟩ := (mem_transactionsOf_iff steady).2 ⟨hlead, hrouter⟩
    exact ⟨⟨tx, htx, row, hrow, rfl⟩, (Classifier.signature_of_classify hrow).trans hS⟩

theorem exists_quarantined_iff (steady : Steady source s.classifier.programIds contents)
    {times : Nat → Int} : (∃ q ∈ (batch source s k times).quarantined, q.signature = S) ↔
      ∃ tx, lead source s contents S k = some tx ∧ fate s.classifier tx = .turnedDown := by
  simp only [fate_eq_turnedDown]
  constructor
  · intro h
    obtain ⟨q, hq, rfl⟩ := h
    obtain ⟨tx, htx, rejection, hrejection, now, rfl⟩ := Sorted.mem_quarantined hq
    obtain ⟨hlead, hrouter⟩ := (mem_transactionsOf_iff steady).1 ⟨htx, rfl⟩
    exact ⟨tx, hlead, hrouter, rejection, hrejection⟩
  · intro h
    obtain ⟨tx, hlead, hrouter, rejection, hrejection⟩ := h
    obtain ⟨htx, rfl⟩ := (mem_transactionsOf_iff steady).2 ⟨hlead, hrouter⟩
    obtain ⟨now, hq⟩ := Sorted.exists_mem_quarantined htx hrejection times
    exact ⟨_, hq, rfl⟩

theorem nodup_entries_batch {times : Nat → Int} :
    ((batch source s k times).entries.map Entry.signature).Nodup :=
  Sorted.nodup_entries Settings.nodup_transactionsOf

def Paired (standing : Option Record × Option Slot) : Prop :=
  standing.1.isSome = standing.2.isSome

theorem paired_follow {before : Option Record × Option Slot} (h : Paired before)
    (tx : Transaction) : Paired (follow c before tx) := by
  unfold follow
  cases fate c tx with
  | recorded row => rfl
  | _ => exact h

/-- Without final rows the entries of a batch are all written. -/
theorem standing_written_of_paired (h : Paired (l.standing S)) {entries : List Entry}
    (hnodup : (entries.map Entry.signature).Nodup) {e : Entry} (he : e ∈ entries)
    (hS : e.signature = S) : (l.written entries).standing S = (some e.record, some e.slot) := by
  subst hS
  cases hmark : l.marks[e.signature]? with
  | some slot => exact Ledger.standing_written_of_provisional hnodup he hmark
  | none =>
    refine Ledger.standing_written_of_notMem_rows hnodup he ?_
    have hrow : l.rows[e.signature]?.isSome = l.marks[e.signature]?.isSome := h
    rw [Std.ExtTreeMap.mem_iff_isSome_getElem?, hrow, hmark]
    simp

/-- A batch puts a signature where its first copy in the batch puts it. -/
theorem standing_stored (steady : Steady source s.classifier.programIds contents)
    (h : Paired (l.standing S)) {now : Int} {times : Nat → Int} {next : Option Checkpoint}
    (moves : l.checkMove now (batch source s k times).move = .ok next) :
    (l.commit now (batch source s k times)).2.standing S =
      (lead source s contents S k).toList.foldl (follow s.classifier) (l.standing S) := by
  rw [Ledger.standing_commit moves]
  by_cases hrecorded : ∃ tx row, lead source s contents S k = some tx ∧
      fate s.classifier tx = .recorded row
  · obtain ⟨tx, row, hlead, hfate⟩ := hrecorded
    have hentry : Entry.mk row tx.slot ∈ (batch source s k times).entries ∧
        (Entry.mk row tx.slot).signature = S :=
      (mem_entries_iff steady).2 ⟨tx, row, hlead, hfate, rfl⟩
    obtain ⟨he, hS⟩ := hentry
    rw [standing_written_of_paired h nodup_entries_batch he hS, hlead]
    simp [follow, hfate]
  · have hnone : ∀ e ∈ (batch source s k times).entries, e.signature ≠ S := by
      intro e he hS
      obtain ⟨tx, row, hlead, hfate, -⟩ := (mem_entries_iff steady).1 ⟨he, hS⟩
      exact hrecorded ⟨tx, row, hlead, hfate⟩
    rw [Ledger.standing_written_of_forall_ne hnone]
    cases hlead : lead source s contents S k with
    | none => rfl
    | some tx =>
      simp only [Option.toList_some, List.foldl_cons, List.foldl_nil, follow]
      cases hfate : fate s.classifier tx with
      | recorded row => exact absurd ⟨tx, row, hlead, hfate⟩ hrecorded
      | _ => rfl

theorem Ingested.standing (steady : Steady source s.classifier.programIds contents)
    (h : Ingested source s k l) (S : Signature) :
    l.standing S = (leads source s contents S k).foldl (follow s.classifier) (none, none) ∧
      Paired (l.standing S) := by
  induction h with
  | created now => exact ⟨rfl, rfl⟩
  | @stored k l now times before more ih =>
    obtain ⟨hstanding, hpaired⟩ := ih
    obtain ⟨next, -, moves⟩ := before.checkMove more now times
    rw [standing_stored steady hpaired moves]
    constructor
    · rw [hstanding, leads, List.foldl_append]
    · cases lead source s contents S k with
      | none => exact hpaired
      | some tx => exact paired_follow hpaired tx

theorem Ingested.mem_quarantine (steady : Steady source s.classifier.programIds contents)
    (h : Ingested source s k l) (S : Signature) :
    S ∈ l.quarantine ↔
      ∃ tx ∈ leads source s contents S k, fate s.classifier tx = .turnedDown := by
  induction h with
  | created now => simp [leads, Ledger.answer, Checkpoints.start, Ledger.empty]
  | @stored k l now times before more ih =>
    obtain ⟨next, -, moves⟩ := before.checkMove more now times
    rw [l.quarantine_commit moves, Ledger.mem_quarantineAll, ih, exists_quarantined_iff steady,
      leads]
    simp only [List.mem_append, Option.mem_toList, or_and_right, exists_or]

def Ingests (source : Answers) (s : Settings) (slot : Slot) : Prop :=
  s.genesisSlot < slot ∧ slot ≤ source .head

theorem genesis_le_stand (more : ∀ j < k, More source s j) :
    s.genesisSlot ≤ stand source s k := by
  cases k with
  | zero => exact UInt64.le_refl _
  | succ k => exact UInt64.le_of_lt (stand_strict (i := 0) more (Nat.succ_pos k))

theorem exists_copyIn_of_mem_leads (more : ∀ j < k, More source s j) {tx : Transaction}
    (h : tx ∈ leads source s contents S k) :
    ∃ slot, Ingests source s slot ∧ copyIn contents S slot = some tx := by
  induction k with
  | zero => cases h
  | succ k ih =>
    rcases List.mem_append.1 h with hbefore | hlast
    · exact ih (fun j hj => more j (by omega)) hbefore
    · obtain ⟨slot, hslot, hcopy⟩ := List.exists_of_findSome?_eq_some (Option.mem_toList.1 hlast)
      obtain ⟨hfirst, hlast⟩ := Slot.mem_through.1 hslot
      have hahead := more k (by omega)
      have hgenesis := genesis_le_stand fun j hj => more j (Nat.lt_succ_of_lt hj)
      refine ⟨slot, ⟨?_, UInt64.le_trans hlast (Settings.lastOf_bounds hahead).2⟩, hcopy⟩
      exact UInt64.lt_of_le_of_lt hgenesis ((Settings.succ_position_le hahead).1 hfirst)

/-- The batches cover the slots, so a signature that is in one of them leads some batch. -/
theorem leads_ne_nil (more : ∀ j < k, More source s j) {slot : Slot}
    (hgenesis : s.genesisSlot < slot) (hslot : slot ≤ stand source s k)
    (hcopy : copyIn contents S slot ≠ none) : leads source s contents S k ≠ [] := by
  induction k with
  | zero => exact absurd hslot (UInt64.not_le.2 hgenesis)
  | succ k ih =>
    by_cases hbefore : slot ≤ stand source s k
    · exact List.append_ne_nil_of_left_ne_nil (ih (fun j hj => more j (by omega)) hbefore) _
    · have hfirst := (Settings.succ_position_le (more k (by omega))).2 (UInt64.not_le.1 hbefore)
      have hlead : lead source s contents S k ≠ none := fun hnone =>
        hcopy (List.findSome?_eq_none_iff.1 hnone slot (Slot.mem_through.2 ⟨hfirst, hslot⟩))
      obtain ⟨tx, htx⟩ := Option.ne_none_iff_exists'.1 hlead
      rw [leads, htx]
      simp

/-- What catching up leaves of a signature: it stands where the first copies of the batches put it
one after the other, and it is in quarantine if one of them was turned down. -/
structure Led (c : Classifier) (txs : List Transaction) (S : Signature) (l : Ledger) : Prop where
  standing : l.standing S = txs.foldl (follow c) (none, none)
  quarantine : S ∈ l.quarantine ↔ ∃ tx ∈ txs, fate c tx = .turnedDown

theorem row_foldl_follow {txs : List Transaction} {f : Fate} (hfate : ∀ tx ∈ txs, fate c tx = f)
    (before : Option Record × Option Slot) :
    (txs.foldl (follow c) before).1 = if txs = [] then before.1 else f.row?.or before.1 := by
  induction txs generalizing before with
  | nil => rfl
  | cons tx rest ih =>
    have hrow : (follow c before tx).1 = f.row?.or before.1 := by
      unfold follow
      rw [hfate tx (List.mem_cons_self ..)]
      cases f <;> rfl
    rw [List.foldl_cons, ih (fun tx' htx' => hfate tx' (List.mem_cons_of_mem tx htx')), hrow]
    cases f.row? <;> simp

theorem foldl_follow_replicate {txs : List Transaction} {tx : Transaction}
    (hsame : ∀ tx' ∈ txs, tx' = tx) (before : Option Record × Option Slot) :
    txs.foldl (follow c) before = if txs = [] then before else follow c before tx := by
  induction txs generalizing before with
  | nil => rfl
  | cons first rest ih =>
    have hfirst := hsame first (List.mem_cons_self ..)
    subst hfirst
    rw [List.foldl_cons, ih fun tx' htx' => hsame tx' (List.mem_cons_of_mem _ htx')]
    unfold follow
    cases fate c first <;> simp

/-- All slots that have a copy of the signature have copies that come to the same. -/
def OneFate (source : Answers) (s : Settings) (contents : Slot → List Delivery) (S : Signature) :
    Prop :=
  ∀ slot slot' tx tx', Ingests source s slot → Ingests source s slot' →
    copyIn contents S slot = some tx → copyIn contents S slot' = some tx' →
      fate s.classifier tx = fate s.classifier tx'

def InOneSlot (source : Answers) (s : Settings) (contents : Slot → List Delivery)
    (S : Signature) :
    Prop :=
  ∀ slot slot', Ingests source s slot → Ingests source s slot' → copyIn contents S slot ≠ none →
    copyIn contents S slot' ≠ none → slot = slot'

structure Batched (source : Answers) (s : Settings) (contents : Slot → List Delivery) (k : Nat)
    (l : Ledger) : Prop where
  more : ∀ j < k, More source s j
  last : ¬ More source s k
  led : ∀ S, Led s.classifier (leads source s contents S k) S l

structure Agree (source : Answers) (s : Settings) (contents : Slot → List Delivery)
    (l l' : Ledger) : Prop where
  checkpoint : ∃ cp cp', l.checkpoints[s.id]? = some cp ∧ l'.checkpoints[s.id]? = some cp' ∧
    cp.slot = cp'.slot
  inOneSlot : ∀ S, InOneSlot source s contents S →
    l.standing S = l'.standing S ∧ (S ∈ l.quarantine ↔ S ∈ l'.quarantine)
  oneFate : ∀ S, OneFate source s contents S →
    l.rows[S]? = l'.rows[S]? ∧ (S ∈ l.quarantine ↔ S ∈ l'.quarantine)

theorem InOneSlot.oneFate (h : InOneSlot source s contents S) : OneFate source s contents S := by
  intro slot slot' tx tx' hslot hslot' hcopy hcopy'
  have hsame := h slot slot' hslot hslot' (by simp [hcopy]) (by simp [hcopy'])
  subst hsame
  rw [Option.some.inj (hcopy.symm.trans hcopy')]

section Agreement

variable {txs txs' : List Transaction} {l' : Ledger}

theorem agree_of_fate (h : Led c txs S l) (h' : Led c txs' S l') (hnil : txs = [] ↔ txs' = [])
    (hfate : ∀ tx ∈ txs ++ txs', ∀ tx' ∈ txs ++ txs', fate c tx = fate c tx') :
    l.rows[S]? = l'.rows[S]? ∧ (S ∈ l.quarantine ↔ S ∈ l'.quarantine) := by
  have hrow : l.rows[S]? = (txs.foldl (follow c) (none, none)).1 := congrArg Prod.fst h.standing
  have hrow' : l'.rows[S]? = (txs'.foldl (follow c) (none, none)).1 :=
    congrArg Prod.fst h'.standing
  rw [hrow, hrow', h.quarantine, h'.quarantine]
  by_cases hempty : txs = []
  · simp [hempty, hnil.1 hempty]
  · obtain ⟨tx, htx⟩ := List.exists_mem_of_ne_nil txs hempty
    obtain ⟨tx', htx'⟩ := List.exists_mem_of_ne_nil txs' (mt hnil.2 hempty)
    have hall : ∀ t ∈ txs, fate c t = fate c tx := fun t ht =>
      hfate t (List.mem_append_left _ ht) tx (List.mem_append_left _ htx)
    have hall' : ∀ t ∈ txs', fate c t = fate c tx := fun t ht =>
      hfate t (List.mem_append_right _ ht) tx (List.mem_append_left _ htx)
    rw [row_foldl_follow hall, row_foldl_follow hall', if_neg hempty, if_neg (mt hnil.2 hempty)]
    refine ⟨rfl, fun hdown => ?_, fun hdown => ?_⟩
    · obtain ⟨t, ht, hturned⟩ := hdown
      exact ⟨tx', htx', (hall' tx' htx').trans ((hall t ht).symm.trans hturned)⟩
    · obtain ⟨t, ht, hturned⟩ := hdown
      exact ⟨tx, htx, (hall' t ht).symm.trans hturned⟩

theorem standing_eq_of_same (h : Led c txs S l) (h' : Led c txs' S l')
    (hnil : txs = [] ↔ txs' = [])
    (hsame : ∀ tx ∈ txs ++ txs', ∀ tx' ∈ txs ++ txs', tx = tx') :
    l.standing S = l'.standing S := by
  rw [h.standing, h'.standing]
  by_cases hempty : txs = []
  · simp [hempty, hnil.1 hempty]
  · obtain ⟨tx, htx⟩ := List.exists_mem_of_ne_nil txs hempty
    have hall : ∀ t ∈ txs, t = tx := fun t ht =>
      hsame t (List.mem_append_left _ ht) tx (List.mem_append_left _ htx)
    have hall' : ∀ t ∈ txs', t = tx := fun t ht =>
      hsame t (List.mem_append_right _ ht) tx (List.mem_append_left _ htx)
    rw [foldl_follow_replicate hall, foldl_follow_replicate hall', if_neg hempty,
      if_neg (mt hnil.2 hempty)]

end Agreement

/-- Catching up ends with all batches stored, at the head unless it began further up. -/
theorem exists_batched (steady : Steady source s.classifier.programIds contents)
    (hsize : s.batchSize ≠ 0) (now : Int) (window : ChainWindow) :
    ∃ report l k cp, CatchesUp ⟨source, now⟩ s window report l ∧ Batched source s contents k l ∧
      l.checkpoints[s.id]? = some cp ∧
      cp.slot = if source .head ≤ s.genesisSlot then s.genesisSlot else source .head := by
  obtain ⟨report, l, k, hcatches, hingested, more, last, -⟩ :=
    exists_catchesUp source s now window
  obtain ⟨cp, hcp, -, hslot, -⟩ := hingested.checkpoint
  exact ⟨report, l, k, cp, hcatches, ⟨more, last, fun S =>
    ⟨(hingested.standing steady S).1, hingested.mem_quarantine steady S⟩⟩, hcp,
    hslot.trans (stand_last hsize more last)⟩

theorem Batched.count_eq (h : Batched source s contents k l) {n : Nat}
    (more : ∀ j < n, More source s j) (last : ¬ More source s n) : k = n := by
  rcases Nat.lt_trichotomy k n with hlt | heq | hgt
  · exact absurd (more k hlt) h.last
  · exact heq
  · exact absurd (h.more n hgt) last

/-- A signature leads a batch exactly if some slot has it. -/
theorem leads_eq_nil_iff (hsize : s.batchSize ≠ 0) (h : Batched source s contents k l) :
    leads source s contents S k = [] ↔
      ∀ slot, Ingests source s slot → copyIn contents S slot = none := by
  constructor
  · intro hnil slot hslot
    by_contra hcopy
    refine leads_ne_nil h.more hslot.1 ?_ hcopy hnil
    rw [stand_last hsize h.more h.last,
      if_neg (UInt64.not_le.2 (UInt64.lt_of_lt_of_le hslot.1 hslot.2))]
    exact hslot.2
  · intro hnone
    rw [List.eq_nil_iff_forall_not_mem]
    intro tx htx
    obtain ⟨slot, hslot, hcopy⟩ := exists_copyIn_of_mem_leads h.more htx
    rw [hnone slot hslot] at hcopy
    cases hcopy

/-- Catching up from an empty ledger with two batch sizes ends at the same checkpoint. In both
histories the first copies of the batches decide about a signature, so they have the same row,
mark and quarantine of each signature that is in one slot only, and the same row and quarantine of
each signature whose copies all come to the same. -/
theorem batch_sizes_agree (steady : Steady source s.classifier.programIds contents)
    {b b' : UInt64}
    (size : b ≠ 0) (size' : b' ≠ 0) (now now' : Int) (window window' : ChainWindow) :
    ∃ report l k report' l' k',
      CatchesUp ⟨source, now⟩ { s with batchSize := b } window report l ∧
      CatchesUp ⟨source, now'⟩ { s with batchSize := b' } window' report' l' ∧
      Batched source { s with batchSize := b } contents k l ∧
      Batched source { s with batchSize := b' } contents k' l' ∧
      Agree source s contents l l' := by
  obtain ⟨report, l, k, cp, hcatches, hbatched, hcp, hslot⟩ :=
    exists_batched (s := { s with batchSize := b }) steady size now window
  obtain ⟨report', l', k', cp', hcatches', hbatched', hcp', hslot'⟩ :=
    exists_batched (s := { s with batchSize := b' }) steady size' now' window'
  refine ⟨report, l, k, report', l', k', hcatches, hcatches', hbatched, hbatched', ?_⟩
  have hnil : ∀ S, leads source { s with batchSize := b } contents S k = [] ↔
      leads source { s with batchSize := b' } contents S k' = [] := fun S =>
    (leads_eq_nil_iff size hbatched).trans (leads_eq_nil_iff size' hbatched').symm
  have hcopy : ∀ S, ∀ tx ∈ leads source { s with batchSize := b } contents S k ++
      leads source { s with batchSize := b' } contents S k',
      ∃ slot, Ingests source s slot ∧ copyIn contents S slot = some tx := by
    intro S tx htx
    rcases List.mem_append.1 htx with htx | htx
    · exact exists_copyIn_of_mem_leads hbatched.more htx
    · exact exists_copyIn_of_mem_leads hbatched'.more htx
  have oneFate : ∀ S, OneFate source s contents S →
      l.rows[S]? = l'.rows[S]? ∧ (S ∈ l.quarantine ↔ S ∈ l'.quarantine) := by
    intro S hone
    refine agree_of_fate (hbatched.led S) (hbatched'.led S) (hnil S) fun tx htx tx' htx' => ?_
    obtain ⟨slot, hslot, htx⟩ := hcopy S tx htx
    obtain ⟨slot', hslot', htx'⟩ := hcopy S tx' htx'
    exact hone slot slot' tx tx' hslot hslot' htx htx'
  refine ⟨⟨cp, cp', hcp, hcp', hslot.trans hslot'.symm⟩, fun S hone => ?_, oneFate⟩
  refine ⟨standing_eq_of_same (hbatched.led S) (hbatched'.led S) (hnil S)
      fun tx htx tx' htx' => ?_,
    (oneFate S hone.oneFate).2⟩
  obtain ⟨slot, hslot, htx⟩ := hcopy S tx htx
  obtain ⟨slot', hslot', htx'⟩ := hcopy S tx' htx'
  have hsame := hone slot slot' hslot hslot' (by simp [htx]) (by simp [htx'])
  subst hsame
  exact Option.some.inj (htx.symm.trans htx')

def twice : Answers
  | .head => (2 : Slot)
  | .slots _ _ _ => ([⟨1, some "b1", none, some 1700000001,
        [⟨soundSignature, 1, none, none, [⟨"router", "2"⟩], []⟩]⟩,
      ⟨2, some "b2", some "b1", some 1700000002,
        [⟨soundSignature, 2, none, none, [⟨"router", "2"⟩], []⟩,
          ⟨⟨"a"⟩, 2, none, none, [⟨"router", "2"⟩], []⟩]⟩] : List Delivery)
  | .resolve _ => .absent

def twiceIn (slot : Slot) : List Delivery :=
  (twice (.slots slot slot []) : List Delivery).filter (·.slot = slot)

theorem steady_twice (programIds : List String) : Steady twice programIds twiceIn :=
  fun _ _ _ _ _ => rfl

def inBatchesOf (b : UInt64) : Settings := { slotwise with batchSize := b }

/-- Slot by slot the second copy is written over the first; in one batch the first copy is the one
that counts. -/
theorem repeated_signature_disagrees :
    Steady twice slotwise.classifier.programIds twiceIn ∧
    ∃ report l report' l' row row',
      CatchesUp ⟨twice, 0⟩ (inBatchesOf 1) ⟨1, []⟩ report l ∧
      CatchesUp ⟨twice, 0⟩ (inBatchesOf 2) ⟨1, []⟩ report' l' ∧
      l.standing soundSignature = (some row, some 2) ∧
      l'.standing soundSignature = (some row', some 1) ∧
      row.timestamp ≠ row'.timestamp := by
  obtain ⟨report, l, k, -, hcatches, hbatched, -⟩ := exists_batched (s := inBatchesOf 1)
    (steady_twice _) (by decide) 0 ⟨1, []⟩
  obtain ⟨report', l', k', -, hcatches', hbatched', -⟩ := exists_batched (s := inBatchesOf 2)
    (steady_twice _) (by decide) 0 ⟨1, []⟩
  have hk : k = 2 := hbatched.count_eq (by decide +kernel) (by decide +kernel)
  have hk' : k' = 1 := hbatched'.count_eq (by decide +kernel) (by decide +kernel)
  subst hk hk'
  let row (time : Instant) : Record := ⟨soundSignature, time, true, 1⟩
  refine ⟨steady_twice _, report, l, report', l', row ⟨1700000002, 0, by decide, by decide⟩,
    row ⟨1700000001, 0, by decide, by decide⟩, hcatches, hcatches', ?_, ?_, by decide⟩
  · rw [(hbatched.led _).standing]
    decide +kernel
  · rw [(hbatched'.led _).standing]
    decide +kernel

/-- The signature that is in one slot only is turned down whatever the batches are. -/
theorem single_copy_agrees :
    ∃ report l report' l',
      CatchesUp ⟨twice, 0⟩ (inBatchesOf 1) ⟨1, []⟩ report l ∧
      CatchesUp ⟨twice, 0⟩ (inBatchesOf 2) ⟨1, []⟩ report' l' ∧
      l.standing ⟨"a"⟩ = l'.standing ⟨"a"⟩ ∧
      (⟨"a"⟩ : Signature) ∈ l.quarantine ∧ (⟨"a"⟩ : Signature) ∈ l'.quarantine := by
  obtain ⟨report, l, k, report', l', k', hcatches, hcatches', hbatched, hbatched', hagree⟩ :=
    batch_sizes_agree (s := slotwise) (steady_twice _) (by decide : (1 : UInt64) ≠ 0)
      (by decide : (2 : UInt64) ≠ 0) 0 0 ⟨1, []⟩ ⟨1, []⟩
  have hslot : ∀ slot, Ingests twice slotwise slot → copyIn twiceIn ⟨"a"⟩ slot ≠ none →
      slot = 2 := by
    intro slot hslot hcopy
    have hlow : 0 < slot.toNat := UInt64.lt_iff_toNat_lt.1 hslot.1
    have hhigh : slot.toNat ≤ 2 := UInt64.le_iff_toNat_le.1 hslot.2
    rcases (by omega : slot.toNat = 1 ∨ slot.toNat = 2) with hone | htwo
    · have hslot : slot = 1 := UInt64.toNat_inj.1 hone
      exact absurd (hslot ▸ by decide +kernel) hcopy
    · exact UInt64.toNat_inj.1 htwo
  have hone : InOneSlot twice slotwise twiceIn ⟨"a"⟩ := fun slot slot' hs hs' hcopy hcopy' =>
    (hslot slot hs hcopy).trans (hslot slot' hs' hcopy').symm
  obtain ⟨hstanding, hquarantine⟩ := hagree.inOneSlot ⟨"a"⟩ hone
  have hk : k = 2 := hbatched.count_eq (by decide +kernel) (by decide +kernel)
  subst hk
  have hturned : (⟨"a"⟩ : Signature) ∈ l.quarantine :=
    (hbatched.led ⟨"a"⟩).quarantine.2 (by decide +kernel)
  exact ⟨report, l, report', l', hcatches, hcatches', hstanding, hturned, hquarantine.1 hturned⟩

end RouterHistory.Ingestion
