import RouterHistory.Proofs.Batch.GaplessSlots
import RouterHistory.Proofs.Pipeline.SortedTransactions
import RouterHistory.Proofs.Shared.Conduct
import RouterHistory.Proofs.Store.LedgerWrites

/-!
What a reconcile cycle may ask. Rows and marks are written only after a resolution of a signature
that was pending, each signature once, and all of that before the open slots are fetched again.
After the fetch the cycle stores at most one commit, of transactions that were delivered and that
neither the quarantine nor the rows had when the cycle looked.
-/
namespace RouterHistory.Reconciler

open Shared

def Unasked (past : List Call) (r : Request) : Prop := ∀ call ∈ past, call.request ≠ r

def Unfetched (past : List Call) : Prop :=
  ∀ first last programIds, Unasked past (.source (.slots first last programIds))

def Pending (past : List Call) (mark : Mark) : Prop :=
  ∃ boundary, ∃ marks : List Mark, ∃ l, mark ∈ marks ∧
    ⟨.store (.provisionalAfter boundary), Except.ok marks, l⟩ ∈ past

def Resolution (past : List Call) (mark : Mark) (verdict : Verdict) : Prop :=
  ∃ newer l older, Pending older mark ∧
    past = newer ++ ⟨.source (.resolve mark.signature), Except.ok verdict, l⟩ :: older

/-- The slots that the cycle may fetch again, by the head and the checkpoint it was told. -/
def Window (r : Reconciler) (past : List Call) (first last : Slot) : Prop :=
  ∃ id genesis, r.rescan = some (id, genesis) ∧
    (∃ (head : Slot) (l : Ledger), ⟨.source .head, Except.ok head, l⟩ ∈ past ∧
      first = rescanStart (Slot.down head r.finalityDepth) genesis) ∧
    (∃ (c : Checkpoint) (l : Ledger), ⟨.store (.checkpoint id), Except.ok (some c), l⟩ ∈ past ∧
      last = c.slot) ∧
    ¬ last < first

def Delivered (r : Reconciler) (past : List Call) (tx : Transaction) : Prop :=
  ∃ first last, ∃ raw : List Delivery, ∃ l, Window r past first last ∧
    ⟨.source (.slots first last r.classifier.programIds), Except.ok raw, l⟩ ∈ past ∧
    tx ∈ Gapless.transactions first last raw ∧ r.classifier.isRouterTransaction tx

/-- The quarantine, read after the delivery, did not have the transaction. -/
def Unlisted (r : Reconciler) (past : List Call) (tx : Transaction) : Prop :=
  ∃ newer, ∃ listed : List Quarantined, ∃ l older, Delivered r older tx ∧
    tx.signature ∉ listed.map Quarantined.signature ∧
    past = newer ++ ⟨.store .quarantined, Except.ok listed, l⟩ :: older

inductive Resolving : Request → Prop
  | resolve (signature : Signature) : Resolving (.source (.resolve signature))

theorem not_resolving_store {call : StoreCall} : ¬ Resolving (.store call) := nofun

theorem not_resolving_slots {first last : Slot} {ids : List String} :
    ¬ Resolving (.source (.slots first last ids)) := nofun

theorem not_resolving_clock : ¬ Resolving .clock := nofun

inductive Settles (S : Signature) : Request → Prop
  | orphan (slot : Slot) : Settles S (.store (.orphan S slot))
  | record : Settles S (.store (.record S))
  | moveMark (slot : Slot) : Settles S (.store (.moveMark S slot))
  | upsert (entry : Entry) : Settles S (.store (.upsert entry))

/-- Asked after the head and before the open slots. -/
inductive Opening : Request → Prop
  | finalizeThrough (boundary : Slot) : Opening (.store (.finalizeThrough boundary))
  | provisionalAfter (boundary : Slot) : Opening (.store (.provisionalAfter boundary))
  | resolving {request : Request} (h : Resolving request) : Opening request
  | settles {S : Signature} {request : Request} (h : Settles S request) : Opening request

/-- A request that neither writes nor asks the source. -/
inductive Looks : Request → Prop
  | lifecycle (signature : Signature) : Looks (.store (.lifecycle signature))
  | clock : Looks .clock

/-- Asked after the open slots. -/
inductive Noting : Request → Prop
  | quarantined : Noting (.store .quarantined)
  | looks {request : Request} (h : Looks request) : Noting request
  | commit (batch : Commit) : Noting (.store (.commit batch))

/-- Nor did the rows, which were read after that; since then the cycle only looked. -/
def Unrecorded (r : Reconciler) (past : List Call) (tx : Transaction) : Prop :=
  ∃ newer l older, Unlisted r older tx ∧ (∀ call ∈ newer, Looks call.request) ∧
    past = newer ++ ⟨.store (.lifecycle tx.signature), Except.ok Lifecycle.unseen, l⟩ :: older

theorem Pending.of_suffix {past q : List Call} {mark : Mark} (h : Pending past mark)
    (hq : past <:+ q) : Pending q mark := by
  obtain ⟨boundary, marks, l, hmem, hcall⟩ := h
  exact ⟨boundary, marks, l, hmem, hq.subset hcall⟩

theorem Resolution.of_suffix {past q : List Call} {mark : Mark} {verdict : Verdict}
    (h : Resolution past mark verdict) (hq : past <:+ q) : Resolution q mark verdict := by
  obtain ⟨newer, l, older, hpending, rfl⟩ := h
  obtain ⟨newest, rfl⟩ := hq
  exact ⟨newest ++ newer, l, older, hpending, by rw [List.append_assoc]⟩

/-- Below the highest slot, what is fetched again starts right above the floor. -/
theorem toNat_rescanStart {boundary genesis : Slot} (h : max boundary genesis ≠ Slot.top) :
    (rescanStart boundary genesis).toNat = (max boundary genesis).toNat + 1 := by
  have hone : (1 : UInt64).toNat = 1 := rfl
  have htop := Slot.toNat_top
  have hbound := (max boundary genesis).toNat_lt
  have hne : (max boundary genesis).toNat ≠ Slot.top.toNat :=
    fun heq => h (UInt64.toNat_inj.1 heq)
  unfold rescanStart
  rw [UInt64.toNat_add, hone, Nat.mod_eq_of_lt (by omega)]

theorem max_ne_top {boundary genesis : Slot} (hboundary : boundary < Slot.top)
    (hgenesis : genesis < Slot.top) : max boundary genesis ≠ Slot.top := by
  have hmax : max boundary genesis = if boundary ≤ genesis then genesis else boundary := rfl
  rw [hmax]
  split
  · exact UInt64.ne_of_lt hgenesis
  · exact UInt64.ne_of_lt hboundary

theorem Window.of_suffix {r : Reconciler} {past q : List Call} {first last : Slot}
    (h : Window r past first last) (hq : past <:+ q) : Window r q first last := by
  obtain ⟨id, genesis, hr, ⟨head, l, hhead, hfirst⟩, ⟨c, l', hc, hlast⟩, hle⟩ := h
  exact ⟨id, genesis, hr, ⟨head, l, hq.subset hhead, hfirst⟩, ⟨c, l', hq.subset hc, hlast⟩, hle⟩

theorem Unlisted.of_suffix {r : Reconciler} {past q : List Call} {tx : Transaction}
    (h : Unlisted r past tx) (hq : past <:+ q) : Unlisted r q tx := by
  obtain ⟨newer, listed, l, older, hdelivered, hnot, rfl⟩ := h
  obtain ⟨newest, rfl⟩ := hq
  exact ⟨newest ++ newer, listed, l, older, hdelivered, hnot, by rw [List.append_assoc]⟩

inductive CycleRule (r : Reconciler) (past : List Call) : Request → Prop
  | head : CycleRule r past (.source .head)
  | finalizeThrough {head : Slot} {l : Ledger}
      (heard : past = [⟨.source .head, Except.ok head, l⟩]) :
      CycleRule r past (.store (.finalizeThrough (Slot.down head r.finalityDepth)))
  | provisionalAfter (boundary : Slot) : CycleRule r past (.store (.provisionalAfter boundary))
  | resolve {mark : Mark} (pending : Pending past mark)
      (once : Unasked past (.source (.resolve mark.signature))) :
      CycleRule r past (.source (.resolve mark.signature))
  | orphan {mark : Mark} (resolved : Resolution past mark .absent) (unfetched : Unfetched past) :
      CycleRule r past (.store (.orphan mark.signature mark.slot))
  | record {mark : Mark} {tx : Transaction} {row : Record}
      (resolved : Resolution past mark (.canonical tx))
      (classified : r.classifier.classify tx = .ok row)
      (once : Unasked past (.store (.record mark.signature))) (unfetched : Unfetched past) :
      CycleRule r past (.store (.record mark.signature))
  | moveMark {mark : Mark} {tx : Transaction} {row : Record} {l : Ledger} {older : List Call}
      (read : past = ⟨.store (.record mark.signature), Except.ok (some row), l⟩ :: older)
      (resolved : Resolution older mark (.canonical tx))
      (classified : r.classifier.classify tx = .ok row) (moved : tx.slot ≠ mark.slot) :
      CycleRule r past (.store (.moveMark mark.signature tx.slot))
  | upsert {mark : Mark} {tx : Transaction} {row : Record} {stored : Option Record} {l : Ledger}
      {older : List Call}
      (read : past = ⟨.store (.record mark.signature), Except.ok stored, l⟩ :: older)
      (resolved : Resolution older mark (.canonical tx))
      (classified : r.classifier.classify tx = .ok row) (differs : stored ≠ some row) :
      CycleRule r past (.store (.upsert ⟨row, tx.slot⟩))
  | checkpoint (pipelineId : String) : CycleRule r past (.store (.checkpoint pipelineId))
  | slots {first last : Slot} (window : Window r past first last) :
      CycleRule r past (.source (.slots first last r.classifier.programIds))
  | quarantined : CycleRule r past (.store .quarantined)
  | lifecycle (signature : Signature) : CycleRule r past (.store (.lifecycle signature))
  | clock : CycleRule r past .clock
  | commit {found : List Transaction} (times : Nat → Int)
      (unrecorded : ∀ tx ∈ found, Unrecorded r past tx)
      (nodup : (found.map Transaction.signature).Nodup) (some : found ≠ []) :
      CycleRule r past
        (.store (.commit ((Sorted.ofTransactions r.classifier found).commit times none)))

/-- A row is removed only after a resolution that says that its transaction is gone. -/
theorem CycleRule.resolution_of_orphan {r : Reconciler} {past : List Call} {S : Signature}
    {s : Slot} (h : CycleRule r past (.store (.orphan S s))) :
    Resolution past ⟨S, s⟩ .absent ∧ Unfetched past := by
  generalize hcall : Request.store (.orphan S s) = request at h
  cases h with
  | orphan resolved unfetched =>
    cases hcall
    exact ⟨resolved, unfetched⟩
  | _ => cases hcall

theorem CycleRule.once_of_resolve {r : Reconciler} {past : List Call} {S : Signature}
    (h : CycleRule r past (.source (.resolve S))) : Unasked past (.source (.resolve S)) := by
  generalize hcall : Request.source (.resolve S) = request at h
  cases h with
  | resolve pending once =>
    cases hcall
    exact once
  | _ => cases hcall

theorem CycleRule.once_of_record {r : Reconciler} {past : List Call} {S : Signature}
    (h : CycleRule r past (.store (.record S))) :
    Unasked past (.store (.record S)) ∧ Unfetched past := by
  generalize hcall : Request.store (.record S) = request at h
  cases h with
  | record resolved classified once unfetched =>
    cases hcall
    exact ⟨once, unfetched⟩
  | _ => cases hcall

/-- Holds of the requests whose effect a report counts as a correction. -/
inductive Corrects : Request → Prop
  | orphan (signature : Signature) (slot : Slot) : Corrects (.store (.orphan signature slot))
  | upsert (entry : Entry) : Corrects (.store (.upsert entry))
  | commit (batch : Commit) : Corrects (.store (.commit batch))

end RouterHistory.Reconciler

namespace RouterHistory

structure CycleReport.Clean (report : CycleReport) : Prop where
  orphaned : report.orphaned = 0
  overwritten : report.overwritten = 0
  recovered : report.recovered = 0
  quarantined : report.quarantined = 0

namespace Reconciler

open Shared

variable {site : Site} {r : Reconciler} {past : List Call} {report : CycleReport}

/-- If the cycle corrected nothing, the report says so. -/
def Honest (past : List Call) (report : CycleReport) : Prop :=
  (∀ call ∈ past, ¬ Corrects call.request) → report.Clean

theorem Honest.of_suffix {q : List Call} (h : Honest past report) (hq : past <:+ q) :
    Honest q report := fun hno => h fun call hcall => hno call (hq.subset hcall)

theorem honest_of_corrects {call : Call} (hcall : call ∈ past) (h : Corrects call.request) :
    Honest past report := fun hno => absurd h (hno call hcall)

@[simp] theorem unasked_cons {call : Call} {request : Request} :
    Unasked (call :: past) request ↔ call.request ≠ request ∧ Unasked past request := by
  simp [Unasked]

section Since

variable {ok : Request → Prop} {q : List Call} (h : Since past ok q)

include h

theorem unasked_of_since {request : Request} (hpast : Unasked past request)
    (hnot : ¬ ok request) : Unasked q request := by
  obtain ⟨newer, rfl, hnewer⟩ := h
  intro call hcall hsame
  rcases List.mem_append.1 hcall with hcall | hcall
  · exact hnot (hsame ▸ hnewer call hcall)
  · exact hpast call hcall hsame

theorem unfetched_of_since (hpast : Unfetched past)
    (hnot : ∀ first last programIds, ¬ ok (.source (.slots first last programIds))) :
    Unfetched q := fun first last programIds =>
  unasked_of_since h (hpast first last programIds) (hnot first last programIds)

end Since

theorem resolveAll_follows {marks : List Mark} (pending : ∀ mark ∈ marks, Pending past mark)
    (nodup : (marks.map Mark.signature).Nodup)
    (once : ∀ mark ∈ marks, Unasked past (.source (.resolve mark.signature))) :
    (resolveAll marks).Follows site (CycleRule r)
      (fun q resolved => Since past Resolving q ∧ resolved.map Resolved.mark = marks ∧
        ∀ x ∈ resolved, ∀ verdict, x.verdict = .ok verdict → Resolution q x.mark verdict)
      past := by
  induction marks generalizing past with
  | nil => exact ⟨since_refl, rfl, by simp⟩
  | cons mark rest ih =>
    have hmark := pending mark (List.mem_cons_self ..)
    rw [List.map_cons, List.nodup_cons] at nodup
    refine ⟨.resolve hmark (once mark (List.mem_cons_self ..)), fun l verdict l' _ => ?_⟩
    let told : Call := ⟨.source (.resolve mark.signature), verdict, l⟩
    have hrest := @ih (told :: past)
      (fun m hm => (pending m (List.mem_cons_of_mem _ hm)).of_suffix (List.suffix_cons _ past))
      nodup.2
      (fun m hm => unasked_cons.2 ⟨?_, once m (List.mem_cons_of_mem _ hm)⟩)
    · change (resolveAll rest >>= fun others => Program.done (⟨mark, verdict⟩ :: others)).Follows
        site _ _ _
      refine Program.follows_bind (Program.follows_imp hrest ?_)
      intro q others h
      obtain ⟨hsince, hmarks, hresolved⟩ := h
      have htold : Since past Resolving (told :: past) := since_refl.cons (.resolve _)
      refine ⟨htold.trans hsince, by rw [List.map_cons, hmarks], ?_⟩
      refine List.forall_mem_cons.2 ⟨fun v hv => ?_, hresolved⟩
      cases hv
      exact Resolution.of_suffix ⟨[], l, past, hmark, rfl⟩ hsince.suffix
    · intro hsame
      simp only [told, Request.source.injEq, SourceCall.resolve.injEq] at hsame
      exact nodup.1 (hsame ▸ List.mem_map_of_mem hm)

structure Surveyed (past : List Call) (resolved : List Resolved) : Prop where
  resolution : ∀ x ∈ resolved, ∀ verdict, x.verdict = .ok verdict → Resolution past x.mark verdict
  unread : ∀ x ∈ resolved, Unasked past (.store (.record x.mark.signature))
  nodup : (resolved.map fun x => x.mark.signature).Nodup
  unfetched : Unfetched past

/-- The cycle was told of this head and has not come to the open slots. -/
def Headed (head : Slot) (past : List Call) : Prop :=
  ∃ l, Since [⟨.source .head, Except.ok head, l⟩] Opening past

inductive Surveying (r : Reconciler) : List Call → Except Failure Survey → Prop
  | headless (f : Failure) (l : Ledger) :
      Surveying r [⟨.source .head, Except.error f, l⟩] (.error f)
  | broken {head : Slot} {q : List Call} (headed : Headed head q) (f : Failure) :
      Surveying r q (.error f)
  | done {head : Slot} {q : List Call} {s : Survey} (headed : Headed head q)
      (boundary : s.boundary = Slot.down head r.finalityDepth)
      (surveyed : Surveyed q s.resolved) : Surveying r q (.ok s)

theorem surveyIn_follows (turns : Turns) :
    (r.surveyIn turns).Follows site (CycleRule r) (Surveying r) [] := by
  unfold surveyIn
  refine Program.follows_source .head (fun l e => .headless e l) fun l head _ => ?_
  have hhead : Since _ Opening [⟨.source .head, Except.ok head, l⟩] := since_refl
  refine Program.follows_store (.finalizeThrough rfl)
    (fun l' e => .broken ⟨l, hhead.cons (.finalizeThrough _)⟩ e) ?_
  intro l₁ (finalized : Nat) _ _
  have hfinalized : Since _ Opening
      [⟨.store (.finalizeThrough _), Except.ok finalized, l₁⟩,
        ⟨.source .head, Except.ok head, l⟩] :=
    hhead.cons (.finalizeThrough (Slot.down head r.finalityDepth))
  refine Program.follows_store (.provisionalAfter _)
    (fun l' e => .broken ⟨l, hfinalized.cons (.provisionalAfter _)⟩ e) ?_
  intro l₂ (pending : List Mark) now hpending
  have hlisted : l₂.provisionalAfter (Slot.down head r.finalityDepth) = pending :=
    Except.ok.inj hpending
  have hperm := turns.asked_perm pending
  have hnodup : ((turns.asked pending).map Mark.signature).Nodup := by
    rw [(hperm.map _).nodup_iff, ← hlisted]
    exact l₂.nodup_provisionalAfter _
  have hpend : ∀ {past}, ∀ mark ∈ turns.asked pending, Pending (⟨.store (.provisionalAfter
      (Slot.down head r.finalityDepth)), Except.ok pending, l₂⟩ :: past) mark :=
    fun mark hmark => ⟨_, pending, l₂, hperm.subset hmark, List.mem_cons_self ..⟩
  refine Program.follows_bind (Program.follows_imp
    (resolveAll_follows hpend hnodup (by simp [Unasked])) ?_)
  intro q resolved h
  obtain ⟨hsince, hmarks, hresolved⟩ := h
  have hanswered := turns.answered_perm resolved
  refine .done ⟨l, (hfinalized.cons (.provisionalAfter _)).trans (hsince.imp fun _ => .resolving)⟩
    rfl ⟨fun x hx => hresolved x (hanswered.subset hx), fun x hx => ?_, ?_, ?_⟩
  · exact unasked_of_since hsince (by simp [Unasked]) nofun
  · rw [(hanswered.map _).nodup_iff]
    rw [← hmarks, List.map_map] at hnodup
    exact hnodup
  · exact unfetched_of_since hsince (by simp [Unfetched, Unasked]) nofun

structure Applied (past : List Call) (S : Signature) (boundary : Slot) (q : List Call)
    (result : Except Failure CycleReport) : Prop where
  since : Since past (Settles S) q
  honest : ∀ report, result = .ok report → Honest q report ∧ report.boundary = boundary

section Applied

variable {S : Signature} {q : List Call} {boundary : Slot}

theorem applied_failed (since : Since past (Settles S) q) (f : Failure) :
    Applied past S boundary q (.error f) := ⟨since, nofun⟩

theorem applied_ok (since : Since past (Settles S) q) (honest : Honest q report)
    (hboundary : report.boundary = boundary) : Applied past S boundary q (.ok report) := by
  refine ⟨since, fun report' heq => ?_⟩
  cases heq
  exact ⟨honest, hboundary⟩

end Applied

/-- Counting a row as unchanged or left alone is no correction. -/
theorem Honest.counted {q : List Call} (h : Honest past report) (hq : past <:+ q)
    {unchanged unresolved : Nat} :
    Honest q { report with unchanged := unchanged, unresolved := unresolved } := by
  intro hno
  obtain ⟨horphaned, hoverwritten, hrecovered, hquarantined⟩ := h.of_suffix hq hno
  exact ⟨horphaned, hoverwritten, hrecovered, hquarantined⟩

theorem applyAbsent_follows {mark : Mark} (resolved : Resolution past mark .absent)
    (unfetched : Unfetched past) (honest : Honest past report) :
    (applyAbsent report mark).Follows site (CycleRule r)
      (Applied past mark.signature report.boundary) past := by
  unfold applyAbsent
  refine Program.follows_store (.orphan resolved unfetched)
    (fun l e => applied_failed (since_refl.cons (.orphan _)) e) ?_
  intro l (removed : Bool) now _
  cases removed with
  | true =>
    exact applied_ok (since_refl.cons (.orphan _))
      (honest_of_corrects (List.mem_cons_self ..) (.orphan ..)) rfl
  | false =>
    exact applied_ok (since_refl.cons (.orphan _))
      (honest.of_suffix (List.suffix_cons _ past)) rfl

theorem applyRecord_follows {mark : Mark} {tx : Transaction} {row : Record}
    (resolved : Resolution past mark (.canonical tx))
    (classified : r.classifier.classify tx = .ok row)
    (once : Unasked past (.store (.record mark.signature))) (unfetched : Unfetched past)
    (honest : Honest past report) :
    (applyRecord report mark row tx.slot).Follows site (CycleRule r)
      (Applied past mark.signature report.boundary) past := by
  unfold applyRecord
  refine Program.follows_store (.record resolved classified once unfetched)
    (fun l e => applied_failed (since_refl.cons .record) e) ?_
  intro l (stored : Option Record) now _
  have hread : Since past (Settles mark.signature)
    (⟨.store (.record mark.signature), Except.ok stored, l⟩ :: past) := since_refl.cons .record
  cases hdecide : WriteOutcome.decide stored row with
  | unchanged =>
    simp only [hdecide]
    have hstored := WriteOutcome.decide_eq_unchanged.1 hdecide
    subst hstored
    by_cases hslot : tx.slot = mark.slot
    · simp only [if_pos hslot]
      exact applied_ok hread (honest.counted hread.suffix) rfl
    · simp only [if_neg hslot]
      refine Program.follows_store (.moveMark rfl resolved classified hslot)
        (fun l' e => applied_failed (hread.cons (.moveMark _)) e) fun l' a _ _ => ?_
      exact applied_ok (hread.cons (.moveMark _))
        (honest.counted (hread.suffix.trans (List.suffix_cons _ _))) rfl
  | inserted | overwritten =>
    have hdiffers : stored ≠ some row := fun h => by
      rw [WriteOutcome.decide_eq_unchanged.2 h] at hdecide
      cases hdecide
    simp only [hdecide]
    refine Program.follows_store (.upsert rfl resolved classified hdiffers)
      (fun l' e => applied_failed (hread.cons (.upsert _)) e) fun l' a _ _ => ?_
    exact applied_ok (hread.cons (.upsert _))
      (honest_of_corrects (List.mem_cons_self ..) (.upsert _)) rfl

theorem apply_follows {x : Resolved}
    (resolved : ∀ verdict, x.verdict = .ok verdict → Resolution past x.mark verdict)
    (once : Unasked past (.store (.record x.mark.signature))) (unfetched : Unfetched past)
    (honest : Honest past report) :
    (r.apply report x).Follows site (CycleRule r)
      (Applied past x.mark.signature report.boundary) past := by
  have left : Applied past x.mark.signature report.boundary past
      (.ok { report with unresolved := report.unresolved + 1 }) :=
    applied_ok since_refl (honest.counted (List.suffix_refl past)) rfl
  obtain ⟨mark, verdict⟩ := x
  unfold Reconciler.apply
  rcases verdict with f | _ | _
  · exact left
  · next tx =>
    simp only
    cases hrow : r.classifier.classify tx with
    | error rejection => exact left
    | ok row => exact applyRecord_follows (resolved _ rfl) hrow once unfetched honest
  · exact applyAbsent_follows (resolved _ rfl) unfetched honest

theorem applyAll_follows {resolved : List Resolved} (surveyed : Surveyed past resolved)
    (honest : Honest past report) :
    (r.applyAll report resolved).Follows site (CycleRule r)
      (fun q result => Since past Opening q ∧ ∀ report', result = .ok report' →
        Honest q report' ∧ report'.boundary = report.boundary) past := by
  induction resolved generalizing past report with
  | nil =>
    refine ⟨since_refl, fun report' heq => ?_⟩
    cases heq
    exact ⟨honest, rfl⟩
  | cons x rest ih =>
    obtain ⟨hres, hun, hnodup, hslots⟩ := surveyed
    rw [List.map_cons, List.nodup_cons] at hnodup
    unfold applyAll
    refine Program.follows_bind (Program.follows_imp (apply_follows
      (hres x (List.mem_cons_self ..)) (hun x (List.mem_cons_self ..)) hslots honest) ?_)
    intro q result applied
    have hsince : Since past Opening q := applied.since.imp fun _ => .settles
    rcases result with f | next
    · exact ⟨hsince, nofun⟩
    · obtain ⟨hnext, hboundary⟩ := applied.honest next rfl
      rw [← hboundary]
      refine Program.follows_imp (ih ⟨fun y hy v hv => ?_, fun y hy => ?_, hnodup.2, ?_⟩ hnext)
        fun q' result h => ⟨hsince.trans h.1, h.2⟩
      · exact (hres y (List.mem_cons_of_mem _ hy) v hv).of_suffix hsince.suffix
      · refine unasked_of_since applied.since (hun y (List.mem_cons_of_mem _ hy)) fun hread => ?_
        generalize hS : y.mark.signature = S at hread
        cases hread
        exact hnodup.1 (hS ▸ List.mem_map_of_mem hy)
      · exact unfetched_of_since applied.since hslots nofun

theorem Unrecorded.of_looks {tx : Transaction} {q : List Call} (h : Unrecorded r past tx)
    (hq : Since past Looks q) : Unrecorded r q tx := by
  obtain ⟨since, l, older, hunlisted, hlooks, rfl⟩ := h
  obtain ⟨newer, rfl, hnewer⟩ := hq
  exact ⟨newer ++ since, l, older, hunlisted, List.forall_mem_append.2 ⟨hnewer, hlooks⟩,
    by rw [List.append_assoc]⟩

/-- The cycle only looked, and what it found is missing. -/
structure Sought (r : Reconciler) (past : List Call) (txs : List Transaction) (q : List Call)
    (result : Except Failure Commit) : Prop where
  looks : Since past Looks q
  missing : ∀ commit, result = .ok commit → ∃ found times,
    commit = (Sorted.ofTransactions r.classifier found).commit times none ∧
      found.Sublist txs ∧ ∀ tx ∈ found, Unrecorded r q tx

section Sought

variable {q : List Call} {result : Except Failure Commit} {rest : List Transaction}

theorem Sought.skip (h : Sought r past rest q result) (tx : Transaction) :
    Sought r past (tx :: rest) q result := by
  refine ⟨h.looks, fun commit hresult => ?_⟩
  obtain ⟨found, times, hcommit, hsub, hunrecorded⟩ := h.missing commit hresult
  exact ⟨found, times, hcommit, hsub.cons tx, hunrecorded⟩

theorem Sought.after {older : List Call} (h : Sought r past rest q result)
    (hpast : Since older Looks past) : Sought r older rest q result :=
  ⟨hpast.trans h.looks, h.missing⟩

/-- A transaction that is missing comes before those that are found after it. -/
theorem Sought.keep {tx : Transaction} (unrecorded : Unrecorded r past tx) (now : Int)
    (h : Sought r past rest q result) :
    Sought r past (tx :: rest) q (result.map (Commit.cons (r.sortedAt now tx))) := by
  refine ⟨h.looks, fun commit heq => ?_⟩
  cases result with
  | error f => cases heq
  | ok others =>
    cases heq
    obtain ⟨found, times, rfl, hsub, hunrecorded⟩ := h.missing others rfl
    obtain ⟨times', -, hcons⟩ := r.exists_cons_sortedAt (P := fun _ => True) now trivial times
      (fun _ => trivial) tx found
    exact ⟨tx :: found, times', hcons, hsub.cons_cons tx,
      List.forall_mem_cons.2 ⟨unrecorded.of_looks h.looks, hunrecorded⟩⟩

end Sought

theorem unrecorded_follows {known : List Signature} {txs : List Transaction}
    (unlisted : ∀ tx ∈ txs, r.classifier.isRouterTransaction tx → tx.signature ∉ known →
      Unlisted r past tx) :
    (r.unrecorded known txs).Follows site (CycleRule r) (Sought r past txs) past := by
  induction txs generalizing past with
  | nil =>
    refine ⟨since_refl, fun commit heq => ?_⟩
    cases heq
    exact ⟨[], fun _ => 0, rfl, List.Sublist.refl [], by simp⟩
  | cons tx rest ih =>
    have hrest := fun tx' h => unlisted tx' (List.mem_cons_of_mem tx h)
    unfold Reconciler.unrecorded
    by_cases hask : r.classifier.isRouterTransaction tx ∧ tx.signature ∉ known
    · simp only [if_pos hask]
      refine Program.follows_store (.lifecycle _)
        (fun l e => ⟨since_refl.cons (.lifecycle _), nofun⟩) ?_
      intro l (state : Lifecycle) now _
      have htold : Since past Looks
          (⟨.store (.lifecycle tx.signature), Except.ok state, l⟩ :: past) :=
        since_refl.cons (.lifecycle _)
      by_cases hstate : state = .unseen
      · simp only [if_pos hstate]
        subst hstate
        have inOrder : ∀ q request, request = .clock → CycleRule r q request := by
          rintro q _ rfl
          exact .clock
        refine Program.follows_bind (Program.follows_imp ((asks_sort r tx).follows inOrder) ?_)
        intro q sorted h
        obtain ⟨⟨newer, rfl, hclocks⟩, now', rfl⟩ := h
        have hread : ∀ call ∈ newer, Looks call.request := fun call hcall =>
          hclocks call hcall ▸ .clock
        have hnew : Unrecorded r (newer ++ _ :: past) tx := ⟨newer, l, past,
          unlisted tx (List.mem_cons_self ..) hask.1 hask.2, hread, rfl⟩
        have hsorted := htold.trans ⟨newer, rfl, hread⟩
        refine Program.follows_bind (Program.follows_imp
          (ih fun tx' h hr hk => (hrest tx' h hr hk).of_suffix hsorted.suffix) ?_)
        intro q result h
        exact (h.keep hnew now').after hsorted
      · simp only [if_neg hstate]
        refine Program.follows_imp
          (ih fun tx' h hr hk => (hrest tx' h hr hk).of_suffix htold.suffix) ?_
        exact fun q result h => (h.after htold).skip tx
    · simp only [if_neg hask]
      exact Program.follows_imp (ih hrest) fun q result h => h.skip tx

structure Recorded (past q : List Call) (result : Except Failure CycleReport) : Prop where
  since : Since past Noting q
  honest : ∀ report, result = .ok report → Honest q report

theorem recorded_failed {q : List Call} (since : Since past Noting q) (f : Failure) :
    Recorded past q (.error f) := ⟨since, nofun⟩

theorem recorded_ok {q : List Call} (since : Since past Noting q) (honest : Honest q report) :
    Recorded past q (.ok report) := by
  refine ⟨since, fun report' heq => ?_⟩
  cases heq
  exact honest

/-- Nothing is reported as recovered without a commit. -/
theorem recover_follows {found : List Transaction}
    (unrecorded : ∀ tx ∈ found, Unrecorded r past tx)
    (nodup : (found.map Transaction.signature).Nodup) (honest : Honest past report)
    (times : Nat → Int) :
    (recover report ((Sorted.ofTransactions r.classifier found).commit times none)).Follows site
      (CycleRule r) (Recorded past) past := by
  unfold recover
  by_cases hempty : ((Sorted.ofTransactions r.classifier found).commit times none).isEmpty = true
  · simp only [if_pos hempty]
    exact recorded_ok since_refl honest
  · simp only [if_neg hempty]
    have hsome : found ≠ [] := by
      intro hsame
      subst hsame
      exact hempty rfl
    refine Program.follows_store (.commit times unrecorded nodup hsome)
      (fun l' e => recorded_failed (since_refl.cons (.commit _)) e) ?_
    intro l' receipt now' _
    exact recorded_ok (since_refl.cons (.commit _))
      (honest_of_corrects (List.mem_cons_self ..) (.commit _))

theorem rescanThrough_follows {first last : Slot} (window : Window r past first last)
    (honest : Honest past report) :
    (r.rescanThrough report first last).Follows site (CycleRule r) (fun q result => ∃ reply l,
      Recorded (⟨.source (.slots first last r.classifier.programIds), reply, l⟩ :: past) q result)
      past := by
  unfold rescanThrough
  refine Program.follows_source (.slots window) ?_ ?_
  · intro l e
    exact ⟨_, l, recorded_ok since_refl (honest.of_suffix (List.suffix_cons _ past))⟩
  intro l (raw : List Delivery) _
  refine Program.follows_store .quarantined
    (fun l' e => ⟨_, l, recorded_failed (since_refl.cons .quarantined) e⟩) ?_
  intro l' (listed : List Quarantined) now _
  let fetched : Call := ⟨.source (.slots first last r.classifier.programIds), Except.ok raw, l⟩
  have hdelivered : ∀ tx ∈ Gapless.transactions first last raw,
      r.classifier.isRouterTransaction tx → Delivered r (fetched :: past) tx :=
    fun tx htx hrouter => ⟨first, last, raw, l, window.of_suffix (List.suffix_cons _ past),
      List.mem_cons_self .., htx, hrouter⟩
  refine Program.follows_bind (Program.follows_imp (unrecorded_follows
    fun tx htx hrouter hknown => ⟨[], listed, l', _, hdelivered tx htx hrouter, hknown, rfl⟩) ?_)
  intro q result h
  have hsince : Since (fetched :: past) Noting q :=
    (since_refl.cons .quarantined).trans (h.looks.imp fun _ => .looks)
  rcases result with f | found
  · exact ⟨_, l, recorded_failed hsince f⟩
  · obtain ⟨txs, times, rfl, hsub, hunrecorded⟩ := h.missing found rfl
    have hnodup := (Gapless.nodup_transactions first last raw).sublist (hsub.map _)
    have hhonest := honest.of_suffix ((List.suffix_cons fetched past).trans hsince.suffix)
    refine Program.follows_imp (recover_follows hunrecorded hnodup hhonest times)
      fun q' result h => ?_
    exact ⟨_, l, hsince.trans h.since, h.honest⟩

inductive Reopens (r : Reconciler) (id : String) (first : Slot) (past : List Call) :
    List Call → Except Failure CycleReport → Prop
  | unread (f : Failure) (l : Ledger) :
      Reopens r id first past (⟨.store (.checkpoint id), Except.error f, l⟩ :: past) (.error f)
  | fresh (l : Ledger) (report : CycleReport) :
      Reopens r id first past (⟨.store (.checkpoint id), Except.ok none, l⟩ :: past) (.ok report)
  | closed {c : Checkpoint} (below : c.slot < first) (l : Ledger) (report : CycleReport) :
      Reopens r id first past
        (⟨.store (.checkpoint id), Except.ok (some c), l⟩ :: past) (.ok report)
  | opened {c : Checkpoint} (above : ¬ c.slot < first) {l l' : Ledger}
      {reply : Except Failure (List Delivery)} {q : List Call}
      (since : Since (⟨.source (.slots first c.slot r.classifier.programIds), reply, l'⟩ ::
        ⟨.store (.checkpoint id), Except.ok (some c), l⟩ :: past) Noting q)
      (result : Except Failure CycleReport) : Reopens r id first past q result

theorem rescanWindow_follows {id : String} {genesis : Slot}
    (hrescan : r.rescan = some (id, genesis)) {head : Slot} (headed : Headed head past)
    (hboundary : report.boundary = Slot.down head r.finalityDepth) (honest : Honest past report) :
    (r.rescanWindow report id genesis).Follows site (CycleRule r)
      (fun q result =>
        Reopens r id (rescanStart (Slot.down head r.finalityDepth) genesis) past q result ∧
          ∀ report', result = .ok report' → Honest q report') past := by
  unfold rescanWindow
  rw [hboundary]
  refine Program.follows_store (.checkpoint id) (fun l e => ⟨.unread e l, nofun⟩) ?_
  intro l (stored : Option Checkpoint) now _
  have hhonest : Honest (⟨.store (.checkpoint id), Except.ok stored, l⟩ :: past) report :=
    honest.of_suffix (List.suffix_cons _ past)
  have hkept : ∀ report', Except.ok report = Except.ok (ε := Failure) report' →
      Honest (⟨.store (.checkpoint id), Except.ok stored, l⟩ :: past) report' := by
    intro report' heq
    cases heq
    exact hhonest
  cases stored with
  | none => exact ⟨.fresh l report, hkept⟩
  | some c =>
    by_cases hbelow : c.slot < rescanStart (Slot.down head r.finalityDepth) genesis
    · simp only [if_pos hbelow]
      exact ⟨.closed hbelow l report, hkept⟩
    · simp only [if_neg hbelow]
      obtain ⟨l', hhead⟩ := headed
      refine Program.follows_imp (rescanThrough_follows ⟨id, genesis, hrescan,
        ⟨head, l', ?_, rfl⟩, ⟨c, l, List.mem_cons_self .., rfl⟩, hbelow⟩ hhonest) ?_
      · exact List.mem_cons_of_mem _ (hhead.suffix.subset (List.mem_cons_self ..))
      · intro q result h
        obtain ⟨reply, l'', recorded⟩ := h
        exact ⟨.opened hbelow recorded.since result, recorded.honest⟩

inductive Course (r : Reconciler) : List Call → Except Failure CycleReport → Prop
  | headless (f : Failure) (l : Ledger) :
      Course r [⟨.source .head, Except.error f, l⟩] (.error f)
  | broken {head : Slot} {q : List Call} (headed : Headed head q) (f : Failure) :
      Course r q (.error f)
  | unset {head : Slot} {q : List Call} (headed : Headed head q) (rescans : r.rescan = none)
      (report : CycleReport) : Course r q (.ok report)
  | reopens {head : Slot} {q q' : List Call} {id : String} {genesis : Slot}
      {result : Except Failure CycleReport} (headed : Headed head q)
      (rescans : r.rescan = some (id, genesis))
      (reopens : Reopens r id (rescanStart (Slot.down head r.finalityDepth) genesis) q
        q' result) :
      Course r q' result

theorem conclude_follows {head : Slot} {s : Survey} (headed : Headed head past)
    (hboundary : s.boundary = Slot.down head r.finalityDepth)
    (surveyed : Surveyed past s.resolved) :
    (r.conclude s).Follows site (CycleRule r) (fun q result => Course r q result ∧
      ∀ report, result = .ok report → Honest q report) past := by
  have hclean : Honest past s.report := fun _ => ⟨rfl, rfl, rfl, rfl⟩
  unfold conclude
  refine Program.follows_bind (Program.follows_imp (applyAll_follows surveyed hclean) ?_)
  intro q result h
  obtain ⟨hsince, hreport⟩ := h
  have hheaded : Headed head q := headed.imp fun _ h => h.trans hsince
  rcases result with f | report
  · exact ⟨.broken hheaded f, nofun⟩
  obtain ⟨hhonest, hsame⟩ := hreport report rfl
  rcases hrescan : r.rescan with _ | ⟨id, genesis⟩
  · refine ⟨.unset hheaded hrescan report, fun report' heq => ?_⟩
    cases heq
    exact hhonest
  · refine Program.follows_imp
      (rescanWindow_follows hrescan hheaded (hsame.trans hboundary) hhonest) fun q' result h => ?_
    exact ⟨.reopens hheaded hrescan h.1, h.2⟩

theorem cycleIn_course (turns : Turns) :
    (r.cycleIn turns).Follows site (CycleRule r) (fun q result => Course r q result ∧
      ∀ report, result = .ok report → Honest q report) [] := by
  unfold cycleIn
  refine Program.follows_bind (Program.follows_imp (surveyIn_follows turns) ?_)
  intro q result hs
  cases hs with
  | headless f l => exact ⟨.headless f l, nofun⟩
  | broken headed f => exact ⟨.broken headed f, nofun⟩
  | done headed hboundary surveyed => exact conclude_follows headed hboundary surveyed

/-- A cycle asks for nothing else, and its report is honest. -/
theorem cycleIn_follows (turns : Turns) :
    (r.cycleIn turns).Follows site (CycleRule r)
      (fun q result => ∀ report, result = .ok report → Honest q report) [] :=
  Program.follows_imp (cycleIn_course turns) fun _ _ h => h.2

end Reconciler

end RouterHistory
