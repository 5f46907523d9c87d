import RouterHistory.Proofs.Shared.LoneRun
import RouterHistory.Proofs.Shared.StepConduct
import RouterHistory.Proofs.Store.Standing

/-!
How a batch step that runs alone ends. It stores one commit, of what the source delivered for the
slots of its batch, or it leaves the ledger as it was; in either case it may have created the
checkpoint of its pipeline before.
-/
namespace RouterHistory

open Shared

/-- A pipeline creates its checkpoint unless there is one. -/
inductive Ledger.Opened (s : Settings) (l : Ledger) : Ledger → Prop
  | same : Opened s l l
  | created (now : Int) (absent : l.checkpoints[s.id]? = none) :
      Opened s l { l with
        checkpoints := l.checkpoints.insert s.id (.genesis s.id s.genesisSlot now) }

namespace Ledger.Opened

variable {s : Settings} {l l' : Ledger}

/-- Creating it again changes nothing. -/
theorem start (h : l.Opened s l') (now : Int) :
    l.Opened s (l'.answer now (.start s.id s.genesisSlot)).2 := by
  change l.Opened s { l' with
    checkpoints := (l'.checkpoints.start s.id s.genesisSlot now).2 }
  unfold Checkpoints.start
  cases h with
  | same =>
    cases hc : l.checkpoints[s.id]? with
    | none => exact .created now hc
    | some c => exact .same
  | created past absent =>
    rw [Std.ExtTreeMap.getElem?_insert_self]
    exact .created past absent

theorem standing (h : l.Opened s l') (S : Signature) : l'.standing S = l.standing S := by
  cases h <;> rfl

theorem quarantine (h : l.Opened s l') : l'.quarantine = l.quarantine := by
  cases h <;> rfl

end Ledger.Opened

/-- A commit that is stored was possible, and its receipt counts its writes. -/
theorem Ledger.of_commit_eq_ok {l l' : Ledger} {now : Int} {c : Commit} {receipt : Receipt}
    (h : l.commit now c = (.ok receipt, l')) :
    ∃ next, l.checkMove now c.move = .ok next ∧ receipt.tally =
      { (l.upsertAll c.entries).1 with quarantined := UInt64.ofNat c.quarantined.length } := by
  unfold commit at h
  cases hmove : l.checkMove now c.move with
  | error f =>
    rw [hmove] at h
    cases h
  | ok next =>
    rw [hmove] at h
    cases h
    exact ⟨next, rfl, rfl⟩

namespace Pipeline

inductive Ended (s : Settings) (l : Ledger) (past : List Call) (l' : Ledger) :
    Except Failure StepOutcome → Prop
  | committed {first last : Slot} {raw : List Delivery} {times : Nat → Int} {now : Int}
      {opened : Ledger}
      {next : Option Checkpoint} {tally : Tally} (opens : l.Opened s opened)
      (fetched : Fetched s past first last raw)
      (moves : opened.checkMove now (some ⟨s.id, first, last⟩) = .ok next)
      (stored : l' = (opened.commit now (s.commitOf first last raw times)).2)
      (counted : tally = { (opened.upsertAll (s.commitOf first last raw times).entries).1 with
        quarantined := UInt64.ofNat (s.commitOf first last raw times).quarantined.length }) :
      Ended s l past l' (.ok (.committed first last tally))
  | otherwise {result : Except Failure StepOutcome}
      (uncommitted : ∀ first last tally, result ≠ .ok (.committed first last tally))
      (opens : l.Opened s l') : Ended s l past l' result

variable {site : Site} (lossless : ¬ site.lossy) {s : Settings} {past : List Call}
variable {l opened : Ledger} {p : Pipeline}

include lossless

theorem reload_ends {c : Cursor} (hc : c.Fits s) (opens : l.Opened s opened) :
    c.reload.Ends site (fun _ l' x => l.Opened s l' ∧ x.2.Fits s) past opened := by
  unfold Cursor.reload
  refine Program.ends_store lossless (fun e => ⟨opens, hc⟩) fun now => ?_
  have hstart := opens.start now
  rw [← hc.1, ← hc.2] at hstart
  exact ⟨hstart, hc⟩

theorem load_ends (hp : p.Fits s) :
    p.load.Ends site (fun _ l' x => l.Opened s l' ∧ x.2.Fits s) past l := by
  unfold Pipeline.load Cursor.load
  refine Program.ends_bind ?_
  cases p.cursor.current with
  | some slot => exact ⟨.same, hp.with_cursor hp.2⟩
  | none =>
    refine Program.ends_imp (reload_ends lossless hp.2 .same) ?_
    intro q l' x hx
    exact ⟨hx.1, hp.with_cursor hx.2⟩

/-- A commit that turned out to be stale is not stored. -/
theorem resume_ends (hp : p.Fits s) (opens : l.Opened s opened) :
    p.resume.Ends site (fun q l' x => Ended s l q l' x.1) past opened := by
  unfold Pipeline.resume
  have hforget : p.cursor.forget.Fits s := hp.2
  refine Program.ends_bind (Program.ends_imp (reload_ends lossless hforget opens) ?_)
  intro q l' x hx
  obtain ⟨result, c⟩ := x
  cases result with
  | error f => exact .otherwise nofun hx.1
  | ok slot => exact Program.ends_emit (.otherwise nofun hx.1)

omit lossless in
/-- Fetching writes nothing. -/
theorem fetch_ends {ids : List String} {w : ChainWindow} {position : Slot} {size : UInt64} :
    (Batch.fetch ids w position size).Ends site (fun _ l' _ => l' = l) past l := by
  unfold Batch.fetch
  refine Program.ends_source (fun e => rfl) fun (head : Slot) _ => ?_
  by_cases hcaught : head ≤ position ∨ size = 0
  · simp only [if_pos hcaught]
    rfl
  · simp only [if_neg hcaught]
    exact Program.ends_source (fun e => rfl) fun raw _ => rfl

omit lossless in
theorem announceForks_ends (forks : List Fork) :
    (announceForks forks).Ends site (fun q l' _ => past <:+ q ∧ l' = l) past l := by
  unfold announceForks
  refine Program.ends_bind (Program.ends_emitAll ?_)
  intro q hq
  cases forks.isEmpty with
  | true => exact ⟨hq, rfl⟩
  | false =>
    intro a l' ha
    cases ha with
    | signalFork => exact ⟨hq.trans (List.suffix_cons _ q), rfl⟩

/-- A commit is stored as a whole, or the ledger stays as it is. -/
theorem store_commit_ends {batch : Commit} {b : Backoff} {operation : String} :
    (b.retry operation (Program.store (.commit batch))).Ends site
      (fun q l' result => past <:+ q ∧ match result with
        | .ok receipt => ∃ now, l.commit now batch = (.ok receipt, l')
        | .error _ => l' = l) past l := by
  refine Program.ends_retry (fun q hq => ?_) fun q e hq => ⟨hq, rfl⟩
  intro a l' ha
  have hq' : past <:+ (⟨.store (.commit batch), a, l⟩ :: q : List Call) :=
    hq.trans (List.suffix_cons _ q)
  cases ha with
  | store now =>
    cases hmove : l.checkMove now batch.move with
    | error f =>
      have hkept : l.answer now (.commit batch) = (.error f, l) := l.commit_eq_of_error hmove
      rw [hkept]
      rfl
    | ok next =>
      obtain ⟨tally, hcommit⟩ := l.exists_receipt hmove
      have hstored : l.answer now (.commit batch) =
          (.ok ⟨tally, next⟩, (l.commit now batch).2) := hcommit
      rw [hstored] at hq' ⊢
      exact ⟨hq', now, hstored⟩
  | storeFailed e _ => exact rfl
  | receiptLost now reason lossy => exact absurd lossy lossless

theorem commit_ends (hp : p.Fits s) (opens : l.Opened s opened) {position : Slot} {batch : Batch}
    {raw : List Delivery} (fetched : Fetched s past position batch.next raw)
    (htx : batch.transactions = s.transactionsOf position batch.next raw) :
    (p.commit position batch).Ends site (fun q l' x => Ended s l q l' x.1) past opened := by
  unfold Pipeline.commit
  refine Program.ends_bind (Program.ends_imp
    ((asks_announceRejected _).ends fun h => h.still) ?_)
  intro q l₁ quarantined h
  obtain ⟨hq, hsame, times, hdated⟩ := h
  subst l₁ hdated
  have hcommit := commitOf_eq hp.1 htx times
  refine Program.ends_bind (Program.ends_imp (store_commit_ends lossless) ?_)
  intro q' l' result h
  obtain ⟨hq', hresult⟩ := h
  have hfetched := fetched.of_suffix (hq.trans hq')
  rw [hcommit] at hresult
  cases result with
  | ok receipt =>
    obtain ⟨now, hstored⟩ := hresult
    obtain ⟨next, hmoves, hreceipt⟩ := Ledger.of_commit_eq_ok hstored
    refine Program.ends_emit (.committed opens (hfetched.of_suffix (List.suffix_cons _ q')) hmoves
      (congrArg Prod.snd hstored).symm ?_)
    rw [hreceipt, ← hcommit]
  | error f =>
    have hsame : l' = opened := hresult
    subst hsame
    by_cases hstale : f.isStaleCheckpoint
    · simp only [hstale, if_true]
      exact resume_ends lossless hp opens
    · simp only [hstale, if_false, Bool.false_eq_true]
      exact .otherwise nofun opens

omit lossless in
theorem retried_fetch_ends {w : ChainWindow} {position : Slot} :
    (s.backoff.retry "fetch_batch" (Batch.fetch s.classifier.programIds w position
      s.batchSize)).Ends site
      (fun q l' x => l' = l ∧ ∀ b w', x = .ok (b, w') → b.isCaughtUp = false →
        ∃ raw, Fetched s q position b.next raw ∧
          b.transactions = s.transactionsOf position b.next raw) past l := by
  refine Program.ends_retry (fun q _ => ?_) fun q e _ => ⟨rfl, nofun⟩
  refine Program.ends_imp (fetch_ends.and_follows fetch_follows) ?_
  intro q' l' result h
  obtain ⟨hsame, hfetched⟩ := h
  cases result with
  | ok x =>
    refine ⟨hsame, fun b w' hx => ?_⟩
    exact hfetched b w' hx
  | error e => exact hsame

/-- A step that runs alone stores one commit, or nothing but its checkpoint. -/
theorem step_ends (hp : p.Fits s) :
    p.step.Ends site (fun q l' x => Ended s l q l' x.1) past l := by
  unfold Pipeline.step
  refine Program.ends_bind (Program.ends_imp (load_ends lossless hp) ?_)
  intro q opened x h
  obtain ⟨loaded, p⟩ := x
  obtain ⟨opens, hp⟩ := h
  cases loaded with
  | error f => exact .otherwise nofun opens
  | ok position =>
    obtain ⟨rfl, hcursor⟩ := hp
    refine Program.ends_bind (Program.ends_imp retried_fetch_ends ?_)
    intro q' l' x h
    obtain ⟨rfl, hbatch⟩ := h
    rcases x with f | ⟨batch, window⟩
    · exact .otherwise nofun opens
    · have hp' : Fits { p with window } p.settings := ⟨rfl, hcursor⟩
      refine Program.ends_bind (Program.ends_imp (announceForks_ends batch.forks) ?_)
      intro q₁ l' _ h
      obtain ⟨hq₁, rfl⟩ := h
      cases hcaught : batch.isCaughtUp with
      | true =>
        simp only [if_true]
        exact Program.ends_emit (.otherwise nofun opens)
      | false =>
        simp only [if_false, Bool.false_eq_true]
        obtain ⟨raw, hfetched, htx⟩ := hbatch batch window rfl hcaught
        exact commit_ends lossless hp' opens (hfetched.of_suffix hq₁) htx

end Pipeline

end RouterHistory
