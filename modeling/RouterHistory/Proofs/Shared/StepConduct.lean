import RouterHistory.Proofs.Batch.GaplessSlots
import RouterHistory.Proofs.Pipeline.SortedTransactions
import RouterHistory.Proofs.Shared.Conduct

/-!
What a batch step may ask: to create the checkpoint of its pipeline at its genesis slot, for the
head, for the slots after a position up to the last one of the batch, and to commit exactly what
those slots hold together with the move of the checkpoint from the position to that last slot.
-/
namespace RouterHistory

open Shared

namespace Settings

def Ahead (s : Settings) (head position : Slot) : Prop := ¬ (head ≤ position ∨ s.batchSize = 0)

def lastOf (s : Settings) (head position : Slot) : Slot :=
  Batch.lastSlot position s.batchSize head

def transactionsOf (s : Settings) (position last : Slot) (raw : List Delivery) :
    List Transaction :=
  (Batch.routerSlots (position + 1) last s.classifier.programIds raw).flatMap
    Delivery.transactions

/-- What a step stores for the slots after a position, by the times of its rejections. -/
def commitOf (s : Settings) (position last : Slot) (raw : List Delivery) (times : Nat → Int) :
    Commit :=
  (Sorted.ofTransactions s.classifier (s.transactionsOf position last raw)).commit times
    (some ⟨s.id, position, last⟩)

variable {s : Settings} {head position : Slot}

/-- A batch goes forward, and not past the head. -/
theorem lastOf_bounds (h : s.Ahead head position) :
    position < s.lastOf head position ∧ s.lastOf head position ≤ head := by
  obtain ⟨hhead, hsize⟩ := not_or.1 h
  have hhead' := UInt64.lt_iff_toNat_lt.1 (UInt64.not_le.1 hhead)
  have hsize' : s.batchSize.toNat ≠ 0 := fun h0 => hsize (UInt64.toNat_inj.1 h0)
  have hbound := head.toNat_lt
  have hup := Slot.toNat_up position s.batchSize
  have hwords : UInt64.size = 18446744073709551616 := rfl
  have hlast : s.lastOf head position =
      if Slot.up position s.batchSize ≤ head then Slot.up position s.batchSize else head := rfl
  rw [UInt64.lt_iff_toNat_lt, UInt64.le_iff_toNat_le, hlast]
  by_cases hle : Slot.up position s.batchSize ≤ head
  · rw [if_pos hle, hup]
    rw [UInt64.le_iff_toNat_le, hup] at hle
    omega
  · rw [if_neg hle]
    omega

/-- The slots of a batch are those after the position. -/
theorem succ_position_le (h : s.Ahead head position) {slot : Slot} :
    position + 1 ≤ slot ↔ position < slot := by
  have hhead := UInt64.lt_iff_toNat_lt.1 (UInt64.not_le.1 (not_or.1 h).1)
  have hbound := head.toNat_lt
  rw [UInt64.le_iff_toNat_le, UInt64.lt_iff_toNat_lt, UInt64.toNat_add]
  have hone : (1 : UInt64).toNat = 1 := rfl
  rw [hone, Nat.mod_eq_of_lt (by omega)]
  omega

theorem mem_transactionsOf {last : Slot} {raw : List Delivery} {tx : Transaction} :
    tx ∈ s.transactionsOf position last raw ↔
      tx ∈ Gapless.transactions (position + 1) last raw ∧
      s.classifier.isRouterTransaction tx := by
  unfold transactionsOf Batch.routerSlots Gapless.transactions
  simp only [List.mem_flatMap, List.mem_map]
  constructor
  · intro h
    obtain ⟨_, ⟨d, hd, rfl⟩, htx⟩ := h
    obtain ⟨hmem, hrouter⟩ := List.mem_filter.1 htx
    exact ⟨⟨d, hd, hmem⟩, hrouter⟩
  · intro h
    obtain ⟨⟨d, hd, hmem⟩, hrouter⟩ := h
    exact ⟨_, ⟨d, hd, rfl⟩, List.mem_filter.2 ⟨hmem, hrouter⟩⟩

theorem nodup_transactionsOf {last : Slot} {raw : List Delivery} :
    ((s.transactionsOf position last raw).map Transaction.signature).Nodup := by
  have hsub : (s.transactionsOf position last raw).Sublist
      (Gapless.transactions (position + 1) last raw) := by
    unfold transactionsOf Batch.routerSlots Gapless.transactions
    induction Gapless.slots (position + 1) last raw with
    | nil => exact List.Sublist.refl []
    | cons d rest ih =>
      simp only [List.map_cons, List.flatMap_cons]
      exact List.Sublist.append List.filter_sublist ih
  exact (Gapless.nodup_transactions _ _ raw).sublist (hsub.map _)

end Settings

def Cursor.Fits (c : Cursor) (s : Settings) : Prop :=
  c.pipelineId = s.id ∧ c.genesis = s.genesisSlot

namespace Pipeline

def Fits (p : Pipeline) (s : Settings) : Prop := p.settings = s ∧ p.cursor.Fits s

theorem Fits.with_cursor {p : Pipeline} {s : Settings} (h : p.Fits s) {c : Cursor}
    (hc : c.Fits s) : Fits { p with cursor := c } s := ⟨h.1, hc⟩

def Fetched (s : Settings) (past : List Call) (position last : Slot) (raw : List Delivery) :
    Prop :=
  (∃ head l, ⟨.source .head, Except.ok (head : Slot), l⟩ ∈ past ∧
    s.Ahead head position ∧ last = s.lastOf head position) ∧
  ∃ l, ⟨.source (.slots (position + 1) last s.classifier.programIds), Except.ok raw, l⟩ ∈ past

theorem Fetched.of_suffix {s : Settings} {past q : List Call} {position last : Slot}
    {raw : List Delivery} (h : Fetched s past position last raw) (hq : past <:+ q) :
    Fetched s q position last raw := by
  obtain ⟨⟨head, l, hhead, hlast⟩, l', hraw⟩ := h
  exact ⟨⟨head, l, hq.subset hhead, hlast⟩, l', hq.subset hraw⟩

inductive StepRule (s : Settings) (past : List Call) : Request → Prop
  | start : StepRule s past (.store (.start s.id s.genesisSlot))
  | head : StepRule s past (.source .head)
  | slots {head position : Slot} {l : Ledger}
      (heard : ⟨.source .head, Except.ok (head : Slot), l⟩ ∈ past)
      (ahead : s.Ahead head position) :
      StepRule s past
        (.source (.slots (position + 1) (s.lastOf head position) s.classifier.programIds))
  | commit {position last : Slot} {raw : List Delivery} (times : Nat → Int)
      (fetched : Fetched s past position last raw) :
      StepRule s past (.store (.commit (s.commitOf position last raw times)))
  | clock : StepRule s past .clock
  | emit (event : Event) : StepRule s past (.emit event)
  | signalFork : StepRule s past .signalFork
  | backoff (milliseconds : UInt64) : StepRule s past (.wait (.backoff milliseconds))

variable {site : Site} {past : List Call} {s : Settings}

theorem reload_follows {c : Cursor} (hc : c.Fits s) :
    c.reload.Follows site (StepRule s) (fun _ x => x.2.Fits s) past := by
  unfold Cursor.reload
  refine Program.follows_store ?_ (fun l f => hc) (fun l a now h => hc)
  rw [hc.1, hc.2]
  exact .start

theorem load_follows {p : Pipeline} (hp : p.Fits s) :
    p.load.Follows site (StepRule s) (fun _ x => x.2.Fits s) past := by
  unfold Pipeline.load Cursor.load
  refine Program.follows_bind ?_
  cases p.cursor.current with
  | some slot => exact hp.with_cursor hp.2
  | none => exact Program.follows_imp (reload_follows hp.2) fun q x hx => hp.with_cursor hx

theorem resume_follows {p : Pipeline} (hp : p.Fits s) :
    p.resume.Follows site (StepRule s) (fun _ x => x.2.Fits s) past := by
  unfold Pipeline.resume
  refine Program.follows_bind (Program.follows_imp
    (reload_follows (c := p.cursor.forget) hp.2) ?_)
  intro q x hc
  obtain ⟨result, c⟩ := x
  cases result with
  | error f => exact hp.with_cursor hc
  | ok slot => exact Program.follows_emit (.emit _) fun l => hp.with_cursor hc

theorem announceForks_follows (forks : List Fork) :
    (announceForks forks).Follows site (StepRule s) (fun q _ => past <:+ q) past := by
  unfold announceForks
  refine Program.follows_bind (Program.follows_emitAll (fun q e => .emit e) ?_)
  intro q hq
  cases forks.isEmpty with
  | true => exact hq
  | false => exact ⟨.signalFork, fun l _ _ _ => hq.trans (List.suffix_cons _ q)⟩

/-- A batch that is not empty is what the source answered for it. -/
theorem fetch_follows {w : ChainWindow} {position : Slot} :
    (Batch.fetch s.classifier.programIds w position s.batchSize).Follows site (StepRule s)
      (fun q x => ∀ b w', x = .ok (b, w') → b.isCaughtUp = false →
        ∃ raw, Fetched s q position b.next raw ∧
          b.transactions = s.transactionsOf position b.next raw) past := by
  unfold Batch.fetch
  refine Program.follows_source .head (fun l e => nofun) ?_
  intro l (head : Slot) _
  by_cases hcaught : head ≤ position ∨ s.batchSize = 0
  · simp only [if_pos hcaught]
    intro b w' heq hb
    cases heq
    cases hb
  · simp only [if_neg hcaught]
    refine Program.follows_source (.slots (List.mem_cons_self ..) hcaught)
      (fun l' e => nofun) ?_
    intro l' raw _ b w' heq _
    cases heq
    refine ⟨raw, ⟨⟨head, l, ?_, hcaught, rfl⟩, l', List.mem_cons_self ..⟩, rfl⟩
    exact List.mem_cons_of_mem _ (List.mem_cons_self ..)

theorem commitOf_eq {p : Pipeline} (hp : p.settings = s) {position : Slot} {batch : Batch}
    {raw : List Delivery} (htx : batch.transactions = s.transactionsOf position batch.next raw)
    (times : Nat → Int) :
    let sorted := Sorted.ofTransactions p.settings.classifier batch.transactions
    ⟨sorted.entries, Sorted.datedAt times sorted.rejected,
      some ⟨p.settings.id, position, batch.next⟩⟩ = s.commitOf position batch.next raw times := by
  rw [htx, hp]
  rfl

/-- Storing a fetched batch asks for its commit, more than once if need be, and after a stale one
for the checkpoint. -/
theorem commit_follows {p : Pipeline} (hp : p.Fits s) {position : Slot} {batch : Batch}
    {raw : List Delivery} (fetched : Fetched s past position batch.next raw)
    (htx : batch.transactions = s.transactionsOf position batch.next raw) :
    (p.commit position batch).Follows site (StepRule s) (fun _ x => x.2.Fits s) past := by
  unfold Pipeline.commit
  have inOrder : ∀ q r, Announces r → StepRule s q r := by
    intro q r h
    cases h with
    | quarantined => exact .emit _
    | clock => exact .clock
  refine Program.follows_bind (Program.follows_imp
    ((asks_announceRejected _).follows inOrder) ?_)
  intro q quarantined h
  obtain ⟨⟨newer, rfl, -⟩, times, rfl⟩ := h
  simp only
  rw [commitOf_eq hp.1 htx]
  have stored : (p.settings.backoff.retry "commit_batch" (Program.store (.commit
      (s.commitOf position batch.next raw times)))).Follows site (StepRule s) (fun _ _ => True)
        (newer ++ past) := by
    refine Program.follows_retry (fun q' ms => .backoff ms) ?_ (fun _ _ _ => trivial)
    intro q' hq'
    have hfetched := fetched.of_suffix ((List.suffix_append newer past).trans hq')
    exact ⟨.commit times hfetched, fun _ _ _ _ _ _ => trivial⟩
  refine Program.follows_bind (Program.follows_imp stored ?_)
  intro q' result _
  cases result with
  | ok receipt =>
    refine Program.follows_emit (.emit _) fun l' => hp.with_cursor ?_
    cases receipt.checkpoint with
    | none => exact hp.2
    | some c => exact hp.2
  | error f =>
    by_cases hstale : f.isStaleCheckpoint
    · simp only [hstale, if_true]
      exact resume_follows hp
    · simp only [hstale, if_false, Bool.false_eq_true]
      exact hp

/-- A step asks for nothing else, and leaves a pipeline with the same settings. -/
theorem step_follows {p : Pipeline} (hp : p.Fits s) :
    p.step.Follows site (StepRule s) (fun _ x => x.2.Fits s) past := by
  unfold Pipeline.step
  refine Program.follows_bind (Program.follows_imp (load_follows hp) ?_)
  intro q x hp
  obtain ⟨loaded, p⟩ := x
  cases loaded with
  | error f => exact hp
  | ok position =>
    obtain ⟨rfl, hcursor⟩ := hp
    have fetched : (p.settings.backoff.retry "fetch_batch" (Batch.fetch
        p.settings.classifier.programIds p.window position p.settings.batchSize)).Follows site
        (StepRule p.settings)
        (fun q x => ∀ b w', x = .ok (b, w') → b.isCaughtUp = false →
          ∃ raw, Fetched p.settings q position b.next raw ∧
            b.transactions = p.settings.transactionsOf position b.next raw) q := by
      refine Program.follows_retry (fun q' ms => .backoff ms) ?_ (fun _ _ _ => nofun)
      intro q' _
      exact Program.follows_imp fetch_follows fun q' x hx a ha b w' hb => by
        cases hb
        exact hx b w' ha
    refine Program.follows_bind (Program.follows_imp fetched ?_)
    intro q' x hbatch
    rcases x with f | ⟨batch, window⟩
    · exact ⟨rfl, hcursor⟩
    · have hp' : Fits { p with window } p.settings := ⟨rfl, hcursor⟩
      refine Program.follows_bind (Program.follows_imp (announceForks_follows batch.forks) ?_)
      intro q₁ _ hq₁
      cases hcaught : batch.isCaughtUp with
      | true =>
        simp only [if_true]
        exact Program.follows_emit (.emit _) fun l => hp'
      | false =>
        simp only [if_false, Bool.false_eq_true]
        obtain ⟨raw, hfetched, htx⟩ := hbatch batch window rfl hcaught
        exact commit_follows hp' (hfetched.of_suffix hq₁) htx

end Pipeline

end RouterHistory
