import RouterHistory.Proofs.Shared.CycleConduct
import RouterHistory.Proofs.Shared.StepConduct

/-!
Laws of a ledger that is shared. A law says what always holds of the ledger and how it may grow.
If every request that is in order keeps the law, it is kept whatever the workers do and however
their requests come between each other, and what a worker was told is still related to the
ledger by what the law says about growth.
-/
namespace RouterHistory.Shared

structure Law where
  holds : Ledger → Prop
  /-- What the ledger may come to. -/
  grows : Ledger → Ledger → Prop
  refl : ∀ l, grows l l
  trans : ∀ {l l' l'' : Ledger}, grows l l' → grows l' l'' → grows l l''

def Law.none : Law := ⟨fun _ => True, fun _ _ => True, fun _ => trivial, fun _ _ => trivial⟩

/-- The calls of a worker, each in order when it was made, by the ledger that they lead to. -/
inductive Recorded (law : Law) (site : Site) (rule : List Call → Request → Prop) :
    List Call → Ledger → Prop
  | nil (l : Ledger) : Recorded law site rule [] l
  | call {past : List Call} {r : Request} {a : r.Answer} {l l' l'' : Ledger}
      (before : Recorded law site rule past l) (inOrder : rule past r) (holds : law.holds l)
      (answered : Answered site l r a l') (moved : law.grows l l') (grows : law.grows l' l'') :
      Recorded law site rule (⟨r, a, l⟩ :: past) l''

structure Recorded.Entry (law : Law) (site : Site) (rule : List Call → Request → Prop)
    (older : List Call) (c : Call) (l : Ledger) : Prop where
  before : Recorded law site rule older c.ledger
  inOrder : rule older c.request
  holds : law.holds c.ledger
  answered : ∃ after, Answered site c.ledger c.request c.answer after ∧ law.grows after l
  grows : law.grows c.ledger l

section Recorded

variable {law : Law} {site : Site} {rule : List Call → Request → Prop}
variable {past older newer : List Call} {l l' : Ledger} {c : Call}

theorem Recorded.grow (h : Recorded law site rule past l) (hl : law.grows l l') :
    Recorded law site rule past l' := by
  cases h with
  | nil => exact .nil l'
  | call before inOrder holds answered moved grows =>
    exact .call before inOrder holds answered moved (law.trans grows hl)

theorem Recorded.Entry.grow (h : Entry law site rule older c l) (hl : law.grows l l') :
    Entry law site rule older c l' := by
  obtain ⟨after, hanswered, hafter⟩ := h.answered
  exact ⟨h.before, h.inOrder, h.holds, ⟨after, hanswered, law.trans hafter hl⟩,
    law.trans h.grows hl⟩

theorem Recorded.latest (h : Recorded law site rule (c :: older) l) :
    Entry law site rule older c l := by
  cases h with
  | call before inOrder holds answered moved grows =>
    exact ⟨before, inOrder, holds, ⟨_, answered, grows⟩, law.trans moved grows⟩

theorem Recorded.entry (h : Recorded law site rule (newer ++ c :: older) l) :
    Entry law site rule older c l := by
  induction newer generalizing l with
  | nil => exact h.latest
  | cons last rest ih => exact (ih h.latest.before).grow h.latest.grows

theorem Recorded.entry_of_mem (h : Recorded law site rule past l) (hc : c ∈ past) :
    ∃ older, older <:+ past ∧ Entry law site rule older c l := by
  obtain ⟨newer, older, rfl⟩ := List.append_of_mem hc
  exact ⟨older, (List.suffix_cons c older).trans (List.suffix_append newer _), h.entry⟩

/-- What may be asked once only is in the record once. -/
theorem Recorded.unique {q : Request}
    (once : ∀ {p}, rule p q → ∀ call ∈ p, call.request ≠ q) (h : Recorded law site rule past l)
    {c c' : Call} (hc : c ∈ past) (hc' : c' ∈ past) (hq : c.request = q) (hq' : c'.request = q) :
    c = c' := by
  induction h with
  | nil => cases hc
  | @call past r a l l' l'' before inOrder holds answered moved grows ih =>
    rcases List.mem_cons.1 hc with rfl | hold
    · rcases List.mem_cons.1 hc' with rfl | hold'
      · rfl
      · exact absurd hq' (once (hq ▸ inOrder) c' hold')
    · rcases List.mem_cons.1 hc' with rfl | hold'
      · exact absurd hq (once (hq' ▸ inOrder) c hold)
      · exact ih hold hold'

/-- What the source told is what it may tell. -/
theorem Recorded.told_by_source (h : Recorded law site rule past l) {call : SourceCall}
    {a : call.Answer} {l₀ : Ledger} (hc : ⟨.source call, Except.ok a, l₀⟩ ∈ past) :
    site.source call a := by
  obtain ⟨older, -, hentry⟩ := h.entry_of_mem hc
  obtain ⟨after, hanswered, -⟩ := hentry.answered
  cases hanswered with
  | source allowed => exact allowed

/-- What the store told was so at that time. -/
theorem Recorded.Entry.told_by_store {call : StoreCall} {a : call.Answer} {l₀ : Ledger}
    (h : Entry law site rule older ⟨.store call, Except.ok a, l₀⟩ l) :
    ∃ now, (l₀.answer now call).1 = .ok a := by
  obtain ⟨after, hanswered, -⟩ := h.answered
  rcases hanswered.of_store with htold | ⟨f, hfailed⟩
  · exact htold
  · cases hfailed

end Recorded

structure Law.Kept (law : Law) (site : Site) : Prop where
  byStep : ∀ s, site.settings s → ∀ past r a l l', law.holds l →
    Recorded law site (Pipeline.StepRule s) past l → Pipeline.StepRule s past r →
    Answered site l r a l' → law.holds l' ∧ law.grows l l'
  byCycle : ∀ r, site.reconcilers r → ∀ past q a l l', law.holds l →
    Recorded law site r.CycleRule past l → r.CycleRule past q →
    Answered site l q a l' → law.holds l' ∧ law.grows l l'

/-- The worker has done what was in order, and whatever it does next will be. -/
inductive Conducted (law : Law) (site : Site) (l : Ledger) : Worker → Prop
  | resting {p : Pipeline} {s : Settings} (allowed : site.settings s) (fits : p.Fits s) :
      Conducted law site l (.resting p)
  | stepping {past : List Call} {rest : Program (Except Failure StepOutcome × Pipeline)}
      {s : Settings} (allowed : site.settings s)
      (recorded : Recorded law site (Pipeline.StepRule s) past l)
      (follows : rest.Follows site (Pipeline.StepRule s) (fun _ x => x.2.Fits s) past) :
      Conducted law site l (.stepping past rest)
  | cycling {past : List Call} {rest : Program (Except Failure CycleReport)} {r : Reconciler}
      (allowed : site.reconcilers r) (recorded : Recorded law site r.CycleRule past l)
      (follows : rest.Follows site r.CycleRule
        (fun q result => ∀ report, result = .ok report → Reconciler.Honest q report) past) :
      Conducted law site l (.cycling past rest)

theorem Conducted.grow {law : Law} {site : Site} {l l' : Ledger} {w : Worker}
    (h : Conducted law site l w) (hl : law.grows l l') : Conducted law site l' w := by
  cases h with
  | resting allowed fits => exact .resting allowed fits
  | stepping allowed recorded follows => exact .stepping allowed (recorded.grow hl) follows
  | cycling allowed recorded follows => exact .cycling allowed (recorded.grow hl) follows

/-- A move of a worker keeps the law, and the worker stays in order. -/
theorem Law.Kept.moves {law : Law} {site : Site} (kept : law.Kept site) {l l' : Ledger}
    {w w' : Worker} (holds : law.holds l) (hw : Conducted law site l w)
    (h : Moves site (l, w) (l', w')) :
    law.holds l' ∧ law.grows l l' ∧ Conducted law site l' w' := by
  cases h with
  | begins l p =>
    cases hw with
    | resting allowed fits =>
      exact ⟨holds, law.refl l, .stepping allowed (.nil l) (Pipeline.step_follows fits)⟩
  | rests l past result p =>
    cases hw with
    | stepping allowed recorded follows => exact ⟨holds, law.refl l, .resting allowed follows⟩
  | asks ha =>
    cases hw with
    | stepping allowed recorded follows =>
      obtain ⟨inOrder, hnext⟩ := follows
      obtain ⟨hholds, hgrows⟩ := kept.byStep _ allowed _ _ _ _ _ holds recorded inOrder ha
      exact ⟨hholds, hgrows, .stepping allowed
        (.call recorded inOrder holds ha hgrows (law.refl _))
        (hnext _ _ _ ha)⟩
  | cycleAsks ha =>
    cases hw with
    | cycling allowed recorded follows =>
      obtain ⟨inOrder, hnext⟩ := follows
      obtain ⟨hholds, hgrows⟩ := kept.byCycle _ allowed _ _ _ _ _ holds recorded inOrder ha
      exact ⟨hholds, hgrows, .cycling allowed
        (.call recorded inOrder holds ha hgrows (law.refl _))
        (hnext _ _ _ ha)⟩

structure Lawful (law : Law) (site : Site) (σ : State) : Prop where
  holds : law.holds σ.ledger
  conducted : ∀ i w, σ.workers i = some w → Conducted law site σ.ledger w

theorem Law.Kept.step {law : Law} {site : Site} (kept : law.Kept site) {σ σ' : State} {i : Nat}
    (hσ : Lawful law site σ) (h : Step site σ i σ') :
    Lawful law site σ' ∧ law.grows σ.ledger σ'.ledger := by
  -- Only the ledger and the worker at the place change, and the others see the ledger grow.
  have place : ∀ (l : Ledger) (w : Option Worker), law.holds l → law.grows σ.ledger l →
      (∀ w', w = some w' → Conducted law site l w') →
      Lawful law site ⟨l, Function.update σ.workers i w⟩ := by
    intro l w holds grows hw
    refine ⟨holds, fun j w' hj => ?_⟩
    by_cases hji : j = i
    · subst hji
      exact hw w' (by simpa using hj)
    · have hother : σ.workers j = some w' := by simpa [hji] using hj
      exact (hσ.conducted j w' hother).grow grows
  cases h with
  | joins window free allowed =>
    refine ⟨place _ _ hσ.holds (law.refl _) ?_, law.refl _⟩
    intro _ heq
    cases heq
    exact .resting allowed ⟨rfl, rfl, rfl⟩
  | cycles turns free allowed =>
    refine ⟨place _ _ hσ.holds (law.refl _) ?_, law.refl _⟩
    intro _ heq
    cases heq
    exact .cycling allowed (.nil _) (Reconciler.cycleIn_follows turns)
  | moves busy hmove =>
    obtain ⟨holds, grows, conducted⟩ := kept.moves hσ.holds (hσ.conducted _ _ busy) hmove
    refine ⟨place _ _ holds grows ?_, grows⟩
    intro _ heq
    cases heq
    exact conducted
  | leaves =>
    exact ⟨place _ _ hσ.holds (law.refl _) nofun, law.refl _⟩

/-- A law that is kept is kept in every run. -/
theorem Law.Kept.reachable {law : Law} {site : Site} (kept : law.Kept site) {l : Ledger}
    (holds : law.holds l) {σ : State} (h : Reachable site l σ) : Lawful law site σ := by
  induction h with
  | idle => exact ⟨holds, nofun⟩
  | step reached hstep ih => exact (kept.step ih hstep).1

/-- All workers are in order in every run, whatever the ledger is at first. -/
theorem Reachable.conducted {site : Site} {l : Ledger} {σ : State} (h : Reachable site l σ)
    {i : Nat} {w : Worker} (hw : σ.workers i = some w) : Conducted .none site σ.ledger w := by
  have kept : Law.none.Kept site :=
    ⟨fun _ _ _ _ _ _ _ _ _ _ _ => ⟨trivial, trivial⟩,
      fun _ _ _ _ _ _ _ _ _ _ _ => ⟨trivial, trivial⟩⟩
  exact (kept.reachable trivial h).conducted i w hw

end RouterHistory.Shared
