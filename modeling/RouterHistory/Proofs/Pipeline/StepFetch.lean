import RouterHistory.Proofs.Shared.StepConduct

/-!
What a batch step hears of the source and makes of it. It hears of one batch at most: once the
slots are delivered, the source is not asked again. The window is left as the batch leaves it, and
forks are made known after that, exactly if the batch has any.
-/
namespace RouterHistory

open Shared

def Request.OffChain : Request → Prop
  | .source _ => False
  | .emit (.forkDetected ..) => False
  | _ => True

def Request.AnnouncesFork (r : Request) : Prop :=
  ∃ slot depth, r = .emit (.forkDetected slot depth)

theorem Request.OffChain.not_announcesFork {r : Request} (h : r.OffChain) :
    ¬ r.AnnouncesFork := by
  rintro ⟨slot, depth, rfl⟩
  exact h

namespace Shared

def Call.Delivers (c : Call) : Prop :=
  ∃ first last ids raw l, c = ⟨.source (.slots first last ids), Except.ok raw, l⟩

def Call.Quiet (c : Call) : Prop := ¬ c.request.AnnouncesFork ∧ ¬ c.Delivers

theorem Call.quiet_of_offChain {c : Call} (h : c.request.OffChain) : c.Quiet := by
  refine ⟨h.not_announcesFork, ?_⟩
  rintro ⟨first, last, ids, raw, l, rfl⟩
  exact h

def Silence (past : List Call) : Prop := ∀ c ∈ past, c.Quiet

theorem Silence.nil : Silence [] := fun _ hc => absurd hc List.not_mem_nil

theorem Silence.append {newer past : List Call} (away : ∀ c ∈ newer, c.request.OffChain)
    (h : Silence past) : Silence (newer ++ past) := by
  intro c hc
  rcases List.mem_append.1 hc with hc | hc
  · exact Call.quiet_of_offChain (away c hc)
  · exact h c hc

theorem Silence.cons {c : Call} {past : List Call} (hc : c.Quiet) (h : Silence past) :
    Silence (c :: past) := List.forall_mem_cons.2 ⟨hc, h⟩

end Shared

/-- One batch as the source told of it: where it begins, the head, and the slots. -/
structure Haul where
  position : Slot
  head : Slot
  raw : List Delivery

namespace Haul

variable (s : Settings) (h : Haul)

def last : Slot := s.lastOf h.head h.position

def deliveries : List Delivery :=
  Batch.routerSlots (h.position + 1) (h.last s) s.classifier.programIds h.raw

/-- The forks of the batch against a window, and the window after it. -/
def observed (w : ChainWindow) : List Fork × ChainWindow := w.observeAll (h.deliveries s)

/-- The source was asked for the head and then for the slots, was quiet before and is not asked
again. -/
def ToldIn (past : List Call) : Prop :=
  s.Ahead h.head h.position ∧ ∃ newer older l l',
    past = newer ++
      ⟨.source (.slots (h.position + 1) (h.last s) s.classifier.programIds),
        Except.ok h.raw, l⟩ ::
      ⟨.source .head, Except.ok h.head, l'⟩ :: older ∧
    (∀ c ∈ newer, c.request.OffChain ∨ c.request.AnnouncesFork) ∧ Silence older

variable {s h}

theorem ToldIn.append {past : List Call} (told : h.ToldIn s past) {newer : List Call}
    (later : ∀ c ∈ newer, c.request.OffChain ∨ c.request.AnnouncesFork) :
    h.ToldIn s (newer ++ past) := by
  obtain ⟨ahead, newer', older, l, l', rfl, hnewer, hquiet⟩ := told
  refine ⟨ahead, newer ++ newer', older, l, l', (List.append_assoc ..).symm, ?_, hquiet⟩
  intro c hc
  rcases List.mem_append.1 hc with hc | hc
  · exact later c hc
  · exact hnewer c hc

/-- The slots were heard of. -/
theorem ToldIn.slots_mem {past : List Call} (told : h.ToldIn s past) :
    ∃ l, ⟨.source (.slots (h.position + 1) (h.last s) s.classifier.programIds),
      Except.ok h.raw, l⟩ ∈ past := by
  obtain ⟨-, newer, older, l, l', rfl, -⟩ := told
  exact ⟨l, List.mem_append_right newer (List.mem_cons_self ..)⟩

/-- No other slots were heard of. -/
theorem ToldIn.eq_of_mem {past : List Call} (told : h.ToldIn s past) {first last : Slot}
    {ids : List String} {raw : List Delivery} {l : Ledger}
    (hc : ⟨.source (.slots first last ids), Except.ok raw, l⟩ ∈ past) :
    first = h.position + 1 ∧ last = h.last s ∧ raw = h.raw := by
  obtain ⟨-, newer, older, l₁, l₂, rfl, hnewer, hquiet⟩ := told
  rcases List.mem_append.1 hc with hc | hc
  · rcases hnewer _ hc with away | ⟨slot, depth, hfork⟩
    · exact absurd away id
    · cases hfork
  · rcases List.mem_cons.1 hc with hsame | hc
    · cases hsame
      exact ⟨rfl, rfl, rfl⟩
    · rcases List.mem_cons.1 hc with hhead | hold
      · cases hhead
      · exact absurd ⟨first, last, ids, raw, l, rfl⟩ (hquiet _ hold).2

/-- A step hears of one batch at most. -/
theorem ToldIn.observed_eq {past : List Call} {h' : Haul} (told : h.ToldIn s past)
    (told' : h'.ToldIn s past) (w : ChainWindow) : h'.observed s w = h.observed s w := by
  obtain ⟨l, hslots⟩ := told'.slots_mem
  obtain ⟨hfirst, hlast, hraw⟩ := told.eq_of_mem hslots
  unfold observed deliveries
  rw [hfirst, hlast, hraw]

end Haul

namespace Program

variable {α β : Type} {site : Site} {rule : List Call → Request → Prop}
variable {post : List Call → α → Prop} {past : List Call}

/-- What each request is by itself, all the calls that come of it are. -/
theorem follows_of_requests {p : Program α} {ok : Request → Prop}
    (h : p.Follows site (fun _ r => ok r) post past)
    (inOrder : ∀ newer r, (∀ c ∈ newer, ok c.request) → ok r → rule (newer ++ past) r) :
    p.Follows site rule
      (fun q a => post q a ∧ ∃ newer, q = newer ++ past ∧ ∀ c ∈ newer, ok c.request) past := by
  induction p generalizing past with
  | done a => exact ⟨h, [], rfl, fun c hc => absurd hc List.not_mem_nil⟩
  | ask r next ih =>
    obtain ⟨hr, hnext⟩ := h
    refine ⟨inOrder [] r (fun c hc => absurd hc List.not_mem_nil) hr, fun l a l' ha => ?_⟩
    have hall : ∀ newer : List Call, (∀ c ∈ newer, ok c.request) →
        ∀ c ∈ newer ++ [⟨r, a, l⟩], ok c.request := by
      intro newer hnewer c hc
      rcases List.mem_append.1 hc with hc | hc
      · exact hnewer c hc
      · cases List.mem_singleton.1 hc
        exact hr
    refine follows_imp (ih a (hnext l a l' ha) fun newer r' hnewer hr' => ?_) ?_
    · rw [List.append_cons]
      exact inOrder _ r' (hall newer hnewer) hr'
    · rintro q b ⟨hb, newer, rfl, hnewer⟩
      exact ⟨hb, _, List.append_cons newer _ past, hall newer hnewer⟩

/-- Each of the events is made known. -/
theorem follows_emitAll_of_mem {events : List Event} {ok : Request → Prop}
    (asks : ∀ e ∈ events, ok (.emit e)) :
    (Program.emitAll events).Follows site (fun _ r => ok r)
      (fun q _ => past <:+ q ∧ ∀ e ∈ events, ∃ c ∈ q, c.request = .emit e) past := by
  induction events generalizing past with
  | nil => exact ⟨List.suffix_refl past, fun e he => absurd he List.not_mem_nil⟩
  | cons e rest ih =>
    refine ⟨asks e (List.mem_cons_self ..), fun l a _ _ => ?_⟩
    refine follows_imp (ih fun e' he' => asks e' (List.mem_cons_of_mem e he')) ?_
    rintro q - ⟨hq, hrest⟩
    refine ⟨(List.suffix_cons _ past).trans hq, fun e' he' => ?_⟩
    rcases List.mem_cons.1 he' with rfl | he'
    · exact ⟨_, hq.subset (List.mem_cons_self ..), rfl⟩
    · exact hrest e' he'

end Program

namespace Pipeline

variable {site : Site} {past : List Call} {s : Settings}

def SameView (p p' : Pipeline) : Prop := p'.settings = p.settings ∧ p'.window = p.window

theorem reload_offChain (c : Cursor) :
    c.reload.Follows site (fun _ r => r.OffChain) (fun _ _ => True) past :=
  Program.follows_store trivial (fun _ _ => trivial) fun _ _ _ _ => trivial

/-- Loading the checkpoint leaves settings and window as they are. -/
theorem load_offChain (p : Pipeline) :
    p.load.Follows site (fun _ r => r.OffChain) (fun _ x => p.SameView x.2) past := by
  unfold Pipeline.load Cursor.load
  refine Program.follows_bind ?_
  cases p.cursor.current with
  | some slot => exact ⟨rfl, rfl⟩
  | none => exact Program.follows_imp (reload_offChain p.cursor) fun _ _ _ => ⟨rfl, rfl⟩

theorem resume_offChain (p : Pipeline) :
    p.resume.Follows site (fun _ r => r.OffChain) (fun _ x => p.SameView x.2) past := by
  unfold Pipeline.resume
  refine Program.follows_bind (Program.follows_imp (reload_offChain p.cursor.forget) ?_)
  intro q x _
  obtain ⟨result, c⟩ := x
  cases result with
  | error f => exact ⟨rfl, rfl⟩
  | ok slot => exact Program.follows_emit trivial fun l => ⟨rfl, rfl⟩

theorem offChain_of_announces {r : Request} (h : Announces r) : r.OffChain := by
  cases h <;> trivial

/-- So does storing a batch, whether or not it is stale. -/
theorem commit_offChain (p : Pipeline) (position : Slot) (batch : Batch) :
    (p.commit position batch).Follows site (fun _ r => r.OffChain) (fun _ x => p.SameView x.2)
      past := by
  unfold Pipeline.commit
  refine Program.follows_bind (Program.follows_imp
    ((asks_announceRejected _).follows fun _ _ => offChain_of_announces) ?_)
  intro q quarantined _
  have stored : (p.settings.backoff.retry "commit_batch" (Program.store (.commit
      ⟨(Sorted.ofTransactions p.settings.classifier batch.transactions).entries, quarantined,
        some ⟨p.settings.id, position, batch.next⟩⟩))).Follows site (fun _ r => r.OffChain)
        (fun _ _ => True) q := by
    refine Program.follows_retry (fun q ms => trivial) (fun q hq => ?_) fun q e hq => trivial
    exact ⟨trivial, fun _ _ _ _ _ _ => trivial⟩
  refine Program.follows_bind (Program.follows_imp stored ?_)
  intro q' result _
  cases result with
  | ok receipt => exact Program.follows_emit trivial fun l' => ⟨rfl, rfl⟩
  | error f =>
    by_cases hstale : f.isStaleCheckpoint
    · simp only [hstale, if_true]
      exact p.resume_offChain
    · simp only [hstale, if_false, Bool.false_eq_true]
      exact ⟨rfl, rfl⟩

inductive Fetching (s : Settings) (w : ChainWindow) (past : List Call) : ChainWindow → Prop
  | nothing (quiet : Silence past) : Fetching s w past w
  | batch {h : Haul} (told : h.ToldIn s past)
      (announced : (∃ c ∈ past, c.request.AnnouncesFork) ↔ (h.observed s w).1 ≠ []) :
      Fetching s w past (h.observed s w).2

/-- If a batch was heard of, the window is what the batch makes of it. -/
theorem Fetching.of_told {w w' : ChainWindow} {h : Haul} (fetching : Fetching s w past w')
    (told : h.ToldIn s past) : w' = (h.observed s w).2 ∧
      ((∃ c ∈ past, c.request.AnnouncesFork) ↔ (h.observed s w).1 ≠ []) := by
  cases fetching with
  | nothing quiet =>
    obtain ⟨l, hslots⟩ := told.slots_mem
    exact absurd ⟨_, _, _, _, _, rfl⟩ (quiet _ hslots).2
  | batch told' announced =>
    rw [told.observed_eq told' w] at announced ⊢
    exact ⟨rfl, announced⟩

theorem Fetching.of_announced {w w' : ChainWindow} (fetching : Fetching s w past w')
    (hfork : ∃ c ∈ past, c.request.AnnouncesFork) :
    ∃ h : Haul, h.ToldIn s past ∧ (h.observed s w).1 ≠ [] := by
  cases fetching with
  | nothing quiet =>
    obtain ⟨c, hc, hfork⟩ := hfork
    exact absurd hfork (quiet c hc).1
  | batch told announced => exact ⟨_, told, announced.1 hfork⟩

/-- A fork is made known only after a batch that has one. -/
def ForkRule (s : Settings) (w : ChainWindow) (past : List Call) (r : Request) : Prop :=
  r.AnnouncesFork → ∃ h : Haul, h.ToldIn s past ∧ (h.observed s w).1 ≠ []

variable {w : ChainWindow}

theorem ForkRule.of_not {r : Request} (h : ¬ r.AnnouncesFork) : ForkRule s w past r :=
  fun hr => absurd hr h

theorem Fetching.offChain (h : Fetching s w past w') {newer : List Call}
    (away : ∀ c ∈ newer, c.request.OffChain) : Fetching s w (newer ++ past) w' := by
  cases h with
  | nothing quiet =>
    exact .nothing (quiet.append away)
  | batch told announced =>
    refine .batch (told.append fun c hc => .inl (away c hc)) ?_
    rw [← announced]
    constructor
    · rintro ⟨c, hc, hfork⟩
      rcases List.mem_append.1 hc with hc | hc
      · exact absurd hfork (away c hc).not_announcesFork
      · exact ⟨c, hc, hfork⟩
    · rintro ⟨c, hc, hfork⟩
      exact ⟨c, List.mem_append_right _ hc, hfork⟩

/-- What concerns neither source nor forks may follow at any point. -/
theorem Fetching.follows_offChain {p : Pipeline}
    {prog : Program (Except Failure StepOutcome × Pipeline)} (hp : p.settings = s)
    (h : Fetching s w past p.window)
    (away : prog.Follows site (fun _ r => r.OffChain) (fun _ x => p.SameView x.2) past) :
    prog.Follows site (ForkRule s w)
      (fun q x => x.2.settings = s ∧ Fetching s w q x.2.window) past := by
  refine Program.follows_imp (Program.follows_of_requests away ?_) ?_
  · intro newer r _ hr
    exact .of_not hr.not_announcesFork
  · rintro q x ⟨⟨hsettings, hwindow⟩, newer, rfl, hnewer⟩
    rw [hwindow]
    exact ⟨hsettings.trans hp, h.offChain hnewer⟩

inductive Hauled (s : Settings) (w : ChainWindow) (past : List Call) :
    Except Failure (Batch × ChainWindow) → Prop
  | failed (f : Failure) (quiet : Silence past) : Hauled s w past (.error f)
  | caughtUp (position : Slot) (quiet : Silence past) :
      Hauled s w past (.ok (.caughtUp position, w))
  | batch {h : Haul} {b : Batch} {w' : ChainWindow} (told : h.ToldIn s past)
      (silent : ∀ c ∈ past, ¬ c.request.AnnouncesFork)
      (observed : h.observed s w = (b.forks, w')) : Hauled s w past (.ok (b, w'))

theorem not_announcesFork_source (call : SourceCall) : ¬ (Request.source call).AnnouncesFork := by
  rintro ⟨slot, depth, h⟩
  cases h

theorem fetch_hauls {position : Slot} (quiet : Silence past) :
    (Batch.fetch s.classifier.programIds w position s.batchSize).Follows site (ForkRule s w)
      (fun q x => Hauled s w q x) past := by
  have head_quiet : ∀ l (a : Except Failure Slot), Call.Quiet ⟨.source .head, a, l⟩ := by
    intro l a
    refine ⟨not_announcesFork_source .head, ?_⟩
    rintro ⟨first, last, ids, raw, l', h⟩
    cases h
  unfold Batch.fetch
  refine Program.follows_source (.of_not (not_announcesFork_source _))
    (fun l e => .failed e (Silence.cons (head_quiet l _) quiet)) ?_
  intro l (head : Slot) _
  by_cases hcaught : head ≤ position ∨ s.batchSize = 0
  · simp only [if_pos hcaught]
    exact .caughtUp position (Silence.cons (head_quiet l _) quiet)
  · simp only [if_neg hcaught]
    refine Program.follows_source (.of_not (not_announcesFork_source _)) ?_ ?_
    · intro l' e
      refine .failed e (Silence.cons ⟨not_announcesFork_source _, ?_⟩
        (Silence.cons (head_quiet l _) quiet))
      rintro ⟨first, last, ids, raw, l'', h⟩
      cases h
    · intro l' raw _
      refine .batch (h := ⟨position, head, raw⟩) ⟨hcaught, [], past, l', l, rfl,
        fun c hc => absurd hc List.not_mem_nil, quiet⟩ ?_ rfl
      refine List.forall_mem_cons.2 ⟨not_announcesFork_source _, ?_⟩
      exact List.forall_mem_cons.2 ⟨not_announcesFork_source _, fun c hc => (quiet c hc).1⟩

/-- Failed attempts have heard of no slots, so the next one starts as the first did. -/
theorem retried_fetch_hauls {position : Slot} (quiet : Silence past) :
    (s.backoff.retry "fetch_batch" (Batch.fetch s.classifier.programIds w position
      s.batchSize)).Follows site (ForkRule s w) (fun q x => Hauled s w q x) past := by
  have attempted : ∀ q, Silence q → (Batch.fetch s.classifier.programIds w position
      s.batchSize).Follows site (ForkRule s w)
      (Program.Attempted (Hauled s w) fun q' _ => Silence q') q := by
    refine fun q hq => Program.follows_imp (fetch_hauls hq) fun q' x hx => ?_
    cases x with
    | ok a => exact hx
    | error e => cases hx with | failed _ quiet => exact quiet
  refine Program.follows_retry_keeping quiet attempted (fun q e ms hq => ?_)
    (fun q e hq => .failed e hq) fun q n e _ hq => .failed _ hq
  have away : (Request.wait (.backoff ms)).OffChain := trivial
  exact ⟨.of_not away.not_announcesFork, fun stop l =>
    Silence.cons (Call.quiet_of_offChain away) hq⟩

/-- Forks are made known once their batch was heard of. -/
theorem announceForks_fetches {h : Haul} {forks : List Fork} {w' : ChainWindow}
    (told : h.ToldIn s past) (silent : ∀ c ∈ past, ¬ c.request.AnnouncesFork)
    (observed : h.observed s w = (forks, w')) :
    (announceForks forks).Follows site (ForkRule s w) (fun q _ => Fetching s w q w') past := by
  have hforks : (h.observed s w).1 = forks := congrArg Prod.fst observed
  have hwindow : (h.observed s w).2 = w' := congrArg Prod.snd observed
  have inOrder : ∀ newer : List Call, (∀ c ∈ newer, c.request.AnnouncesFork) → forks ≠ [] →
      ∀ r, ForkRule s w (newer ++ past) r := by
    intro newer hnewer hne r _
    exact ⟨h, told.append fun c hc => .inr (hnewer c hc), hforks ▸ hne⟩
  cases forks with
  | nil =>
    rw [← hwindow]
    refine .batch told ⟨?_, fun hne => absurd hforks hne⟩
    rintro ⟨c, hc, hfork⟩
    exact absurd hfork (silent c hc)
  | cons f rest =>
    have hne : f :: rest ≠ [] := List.cons_ne_nil f rest
    have events : ∀ e ∈ (f :: rest).map fun f => Event.forkDetected f.detectedAt f.depth,
        (Request.emit e).AnnouncesFork := by
      intro e he
      obtain ⟨f, -, rfl⟩ := List.mem_map.1 he
      exact ⟨_, _, rfl⟩
    unfold announceForks
    refine Program.follows_bind (Program.follows_imp (Program.follows_of_requests
      (Program.follows_emitAll_of_mem events) fun newer r hnewer _ =>
        inOrder newer hnewer hne r) ?_)
    rintro q - ⟨⟨-, hall⟩, newer, rfl, hnewer⟩
    have announced : ∃ c ∈ newer ++ past, c.request.AnnouncesFork := by
      obtain ⟨c, hc, hrequest⟩ := hall _ (List.mem_map_of_mem (List.mem_cons_self ..))
      exact ⟨c, hc, _, _, hrequest⟩
    have fetching : Fetching s w (newer ++ past) w' := by
      rw [← hwindow]
      exact .batch (told.append fun c hc => .inr (hnewer c hc))
        (iff_of_true announced (hforks ▸ hne))
    refine ⟨.of_not ?_, fun l a _ _ => ?_⟩
    · rintro ⟨slot, depth, h⟩
      cases h
    · have away : ∀ c ∈ [Call.mk .signalFork a l], c.request.OffChain :=
        List.forall_mem_singleton.2 trivial
      exact fetching.offChain away

/-- What a step hears of the source, and what it makes of it. -/
theorem step_fetches {p : Pipeline} (hp : p.settings = s) :
    p.step.Follows site (ForkRule s p.window)
      (fun q x => x.2.settings = s ∧ Fetching s p.window q x.2.window) [] := by
  have loads : p.load.Follows site (ForkRule s p.window)
      (fun q x => p.SameView x.2 ∧ ∃ newer : List Call, q = newer ++ [] ∧
        ∀ c ∈ newer, c.request.OffChain) [] :=
    Program.follows_of_requests p.load_offChain fun newer r _ hr => .of_not hr.not_announcesFork
  unfold Pipeline.step
  refine Program.follows_bind (Program.follows_imp loads ?_)
  rintro q ⟨loaded, p'⟩ ⟨⟨hsettings, hwindow⟩, newer, rfl, away⟩
  have quiet : Silence (newer ++ []) := Silence.nil.append away
  rw [hp] at hsettings
  subst hsettings
  rw [← hwindow]
  cases loaded with
  | error f => exact ⟨rfl, .nothing quiet⟩
  | ok position =>
    refine Program.follows_bind (Program.follows_imp (retried_fetch_hauls quiet) ?_)
    intro q x hx
    cases hx with
    | failed f quiet => exact ⟨rfl, .nothing quiet⟩
    | caughtUp position quiet =>
      refine Fetching.follows_offChain (p := p') rfl (.nothing quiet) ?_
      exact Program.follows_emit trivial fun l => ⟨rfl, rfl⟩
    | @batch h b w' told silent observed =>
      refine Program.follows_bind
        (Program.follows_imp (announceForks_fetches told silent observed) ?_)
      intro q _ hq
      refine Fetching.follows_offChain (p := { p' with window := w' }) rfl hq ?_
      cases hcaught : b.isCaughtUp with
      | true =>
        simp only [if_true]
        exact Program.follows_emit trivial fun l => ⟨rfl, rfl⟩
      | false =>
        simp only [if_false, Bool.false_eq_true]
        exact commit_offChain _ _ _

end Pipeline

end RouterHistory
