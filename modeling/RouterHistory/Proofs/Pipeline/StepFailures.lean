import RouterHistory.Proofs.Pipeline.SortedTransactions
import RouterHistory.Proofs.Shared.Conduct

/-!
Where the failure of a batch step comes from. It is the source being unavailable, however often
that was tried and however it is wrapped, or some call failed in another way. A commit that is
stale is no such failure, since the step goes on from it. A step makes no change of phase known.
-/
namespace RouterHistory

open Shared

/-- A call that failed, though not for want of the source and not because it was a stale commit.
-/
inductive Shared.Call.Broken : Call → Prop
  | source {call : SourceCall} {f : Failure} {l : Ledger}
      (other : f.isSourceFailure = false) : Broken ⟨.source call, Except.error f, l⟩
  | commit {batch : Commit} {f : Failure} {l : Ledger} (other : f.isStaleCheckpoint = false) :
      Broken ⟨.store (.commit batch), Except.error f, l⟩
  | store {call : StoreCall} {f : Failure} {l : Ledger} (other : ∀ batch, call ≠ .commit batch) :
      Broken ⟨.store call, Except.error f, l⟩

def Request.Silent (r : Request) : Prop := ∀ phase, r ≠ .emit (.phaseChanged phase)

namespace Pipeline

variable {α β : Type} {site : Site} {past : List Call}

/-- A result that is a failure, except one that is passed over, is due to the source or to a
broken call. -/
def Blamed (passed : Failure → Bool) (past : List Call) (result : Except Failure α) : Prop :=
  ∀ f, result = .error f → f.isSourceFailure = false → passed f = false →
    ∃ call ∈ past, call.Broken

def Explained (site : Site) (passed : Failure → Bool) (past : List Call)
    (p : Program (Except Failure α)) : Prop :=
  p.Follows site (fun _ r => r.Silent) (Blamed passed) past

def noFailure (_ : Failure) : Bool := false

variable {passed : Failure → Bool}

theorem blamed_ok (a : α) : Blamed passed past (.ok a) := nofun

/-- The same failure of something else. -/
theorem Blamed.error {f : Failure} (h : Blamed passed past (.error f : Except Failure α)) :
    Blamed passed past (.error f : Except Failure β) := by
  intro f' hf hsource hpassed
  cases hf
  exact h f rfl hsource hpassed

theorem blamed_source {call : SourceCall} {f : Failure} {l : Ledger} :
    Blamed passed (⟨.source call, Except.error f, l⟩ :: past) (.error f : Except Failure α) := by
  intro f' hf hsource _
  cases hf
  exact ⟨_, List.mem_cons_self .., .source hsource⟩

/-- All attempts together failed for the reason of the last one. -/
theorem explained_retry {b : Backoff} {operation : String} {body : Program (Except Failure α)}
    (lasting : ∀ f, f.isTransient → passed f = false)
    (attempt : ∀ q, Explained site passed q body) :
    Explained site passed past (b.retry operation body) := by
  have attempted : ∀ q, True → body.Follows site (fun _ r => r.Silent) (Program.Attempted
      (Blamed passed) fun q' f => Blamed passed q' (.error f : Except Failure α)) q := by
    refine fun q _ => Program.follows_imp (attempt q) fun q' result blamed => ?_
    cases result with
    | ok a => exact blamed
    | error f => exact blamed
  refine Program.follows_retry_keeping trivial attempted
    (fun _ _ _ _ => ⟨nofun, fun _ _ => trivial⟩)
    (fun _ _ blamed => blamed) fun q n f transient blamed f' hf hsource _ => ?_
  cases hf
  exact blamed f rfl hsource (lasting f transient)

theorem explained_fetch {ids : List String} {w : ChainWindow} {position : Slot} {size : UInt64} :
    Explained site passed past (Batch.fetch ids w position size) := by
  unfold Explained Batch.fetch
  refine Program.follows_source nofun (fun l f => blamed_source) fun l (head : Slot) _ => ?_
  by_cases hcaught : head ≤ position ∨ size = 0
  · simp only [if_pos hcaught]
    exact blamed_ok _
  · simp only [if_neg hcaught]
    exact Program.follows_source nofun (fun l f => blamed_source) fun l raw _ => blamed_ok _

/-- A stale commit is not tried again. -/
theorem lasting_of_stale (f : Failure) (transient : f.isTransient) :
    f.isStaleCheckpoint = false := by
  cases f with
  | staleCheckpoint => cases transient
  | _ => rfl

/-- A stale commit is passed over. -/
theorem explained_store {batch : Commit} :
    Explained site Failure.isStaleCheckpoint past (Program.store (.commit batch)) := by
  refine ⟨nofun, fun l a l' _ f hf _ hstale => ?_⟩
  cases hf
  exact ⟨_, List.mem_cons_self .., .commit hstale⟩

def SamePhase (p p' : Pipeline) : Prop := p'.phase = p.phase

def Faulty (past : List Call) (result : Except Failure α) : Prop :=
  ∀ f, result = .error f → ∃ call ∈ past, call.Broken

theorem Faulty.blamed {result : Except Failure α} (h : Faulty past result) :
    Blamed passed past result := fun f hf _ _ => h f hf

theorem follows_reload (c : Cursor) :
    c.reload.Follows site (fun _ r => r.Silent) (fun q x => Faulty q x.1) past := by
  unfold Cursor.reload
  refine Program.follows_store nofun (fun l f => ?_) fun l a now _ => nofun
  exact fun _ _ => ⟨_, List.mem_cons_self .., .store nofun⟩

/-- The checkpoint is read from the store, so a source that is down is no reason to fail. -/
theorem follows_load (p : Pipeline) : p.load.Follows site (fun _ r => r.Silent)
    (fun q x => Faulty q x.1 ∧ p.SamePhase x.2) past := by
  unfold Pipeline.load Cursor.load
  refine Program.follows_bind ?_
  cases p.cursor.current with
  | some slot => exact ⟨nofun, rfl⟩
  | none => exact Program.follows_imp (follows_reload p.cursor) fun q x h => ⟨h, rfl⟩

/-- A part of a step that makes no change of phase known, blames its failures and leaves a
pipeline in the same phase. -/
def Tells (site : Site) (past : List Call) (p : Pipeline)
    (part : Program (Except Failure StepOutcome × Pipeline)) : Prop :=
  part.Follows site (fun _ r => r.Silent)
    (fun q x => Blamed noFailure q x.1 ∧ p.SamePhase x.2) past

theorem tells_resume (p : Pipeline) : Tells site past p p.resume := by
  unfold Tells Pipeline.resume
  refine Program.follows_bind (Program.follows_imp (follows_reload _) fun q x h => ?_)
  obtain ⟨result, c⟩ := x
  cases result with
  | error f => exact ⟨h.blamed.error, rfl⟩
  | ok slot => exact Program.follows_emit nofun fun l => ⟨blamed_ok _, rfl⟩

theorem silent_emitAll {events : List Event} {post : List Call → Unit → Prop}
    (silent : ∀ e ∈ events, ∀ phase, e ≠ .phaseChanged phase) (h : ∀ q, post q ()) :
    (Program.emitAll events).Follows site (fun _ r => r.Silent) post past := by
  induction events generalizing past with
  | nil => exact h past
  | cons e rest ih =>
    obtain ⟨he, hrest⟩ := List.forall_mem_cons.1 silent
    refine ⟨fun phase hphase => ?_, fun l _ _ _ => ih hrest⟩
    cases hphase
    exact he phase rfl

theorem silent_announceForks (forks : List Fork) {post : List Call → Unit → Prop}
    (h : ∀ q, post q ()) :
    (announceForks forks).Follows site (fun _ r => r.Silent) post past := by
  unfold announceForks
  refine Program.follows_bind (silent_emitAll (by simp) fun q => ?_)
  cases forks.isEmpty with
  | true => exact h q
  | false => exact ⟨nofun, fun l _ _ _ => h _⟩

theorem tells_commit (p : Pipeline) (position : Slot) (batch : Batch) :
    Tells site past p (p.commit position batch) := by
  unfold Tells Pipeline.commit
  have silent : ∀ (_ : List Call) r, Announces r → r.Silent := by
    intro _ r h phase
    cases h <;> exact nofun
  refine Program.follows_bind (Program.follows_imp
    ((asks_announceRejected _).follows silent) fun q quarantined _ => ?_)
  have stored : Explained site Failure.isStaleCheckpoint q
      (p.settings.backoff.retry "commit_batch" (Program.store (.commit ⟨(Sorted.ofTransactions
        p.settings.classifier batch.transactions).entries, quarantined,
          some ⟨p.settings.id, position, batch.next⟩⟩))) :=
    explained_retry lasting_of_stale fun _ => explained_store
  refine Program.follows_bind (Program.follows_imp stored fun q' result blamed => ?_)
  cases result with
  | ok receipt => exact Program.follows_emit nofun fun l' => ⟨blamed_ok _, rfl⟩
  | error f =>
    by_cases hstale : f.isStaleCheckpoint
    · simp only [hstale, if_true]
      exact tells_resume p
    · simp only [hstale, if_false, Bool.false_eq_true]
      refine ⟨fun f' hf hsource _ => ?_, rfl⟩
      cases hf
      exact blamed f rfl hsource (by simpa using hstale)

/-- A step makes no change of phase known. If it fails, the source is unavailable or one of its
calls is broken. -/
theorem tells_step (p : Pipeline) : Tells site past p p.step := by
  unfold Tells Pipeline.step
  refine Program.follows_bind (Program.follows_imp (follows_load p) fun q x h => ?_)
  obtain ⟨loaded, p'⟩ := x
  obtain ⟨faulty, hphase⟩ := h
  cases loaded with
  | error f => exact ⟨faulty.blamed.error, hphase⟩
  | ok position =>
    have fetched : Explained site noFailure q (p'.settings.backoff.retry "fetch_batch"
        (Batch.fetch p'.settings.classifier.programIds p'.window position
          p'.settings.batchSize)) :=
      explained_retry (fun _ _ => rfl) fun _ => explained_fetch
    refine Program.follows_bind (Program.follows_imp fetched fun q' x blamed => ?_)
    rcases x with f | ⟨batch, window⟩
    · exact ⟨blamed.error, hphase⟩
    · refine Program.follows_bind (silent_announceForks batch.forks fun q₁ => ?_)
      split
      · exact Program.follows_emit nofun fun l => ⟨blamed_ok _, hphase⟩
      · exact Program.follows_imp (tells_commit { p' with window } position batch) fun q₂ x h =>
          ⟨h.1, h.2.trans hphase⟩

end Pipeline

end RouterHistory
