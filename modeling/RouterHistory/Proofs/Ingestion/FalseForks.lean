import RouterHistory.Proofs.Batch.LinearChains
import RouterHistory.Proofs.Batch.WindowInvariant
import RouterHistory.Proofs.Ingestion.ExactlyOnce
import RouterHistory.Proofs.Pipeline.StepFetch

/-!
Forks on a chain that has none. Every pipeline checks new blocks against its own window, while the
checkpoint that it shares with others decides which blocks come next. Whoever loses a race goes on
from where the others have come to, and its window is left behind. The next block that it fetches
does not build on the head of that window, and is made known as a fork. That block brings the
window up to date again.
-/
namespace RouterHistory

open Shared

/-- Pipelines with the same settings over a source that serves the chain. Its head may be
anywhere, any call may fail, and reconcile cycles may be at work. -/
def LinearChain.site (chain : LinearChain) (s : Settings) : Site where
  source
    | .slots first last _ => chain.Serves first last
    | _ => fun _ => True
  failing := True
  lossy := True
  settings t := t = s
  reconcilers _ := True

namespace Shared

/-- The states of runs in which every pipeline joins with a new window, whatever the ledger is at
first. -/
inductive Run (site : Site) : State → Prop
  | idle (l : Ledger) : Run site (.idle l)
  | step {σ σ' : State} {i : Nat} (before : Run site σ) (h : Step site σ i σ')
      (new : ∀ j p, σ.workers j = none → σ'.workers j = some (.resting p) →
        ChainWindow.ofCapacity? p.settings.trackerWindow.toNat = some p.window) : Run site σ'

inductive Begun (site : Site) (i : Nat) (p : Pipeline) : State → Prop
  | begins {σ : State} (run : Run site σ) (rests : σ.workers i = some (.resting p)) :
      Begun site i p ⟨σ.ledger, Function.update σ.workers i (some (.stepping [] p.step))⟩
  | goesOn {σ σ' : State} {j : Nat} (before : Begun site i p σ) (h : Step site σ j σ')
      (still : ∃ past rest, σ'.workers i = some (.stepping past rest)) : Begun site i p σ'

def Worker.latestFork? : Worker → Option (Slot × Nat)
  | .stepping (⟨.emit (.forkDetected slot depth), _, _⟩ :: _) _ => some (slot, depth)
  | _ => none

theorem Worker.of_latestFork? {w : Worker} {slot : Slot} {depth : Nat}
    (h : w.latestFork? = some (slot, depth)) : ∃ l past rest,
      w = .stepping (⟨.emit (.forkDetected slot depth), (), l⟩ :: past) rest := by
  unfold latestFork? at h
  split at h
  · cases h
    exact ⟨_, _, _, rfl⟩
  · cases h

def Worker.window? : Worker → Option ChainWindow
  | .resting p => some p.window
  | _ => none

theorem Worker.of_window? {w : Worker} {window : ChainWindow} (h : w.window? = some window) :
    ∃ p, w = .resting p ∧ p.window = window := by
  unfold window? at h
  split at h
  · next p => exact ⟨p, rfl, Option.some.inj h⟩
  · cases h

/-- A worker that is there after a step was there before, has just joined, or has made a move. -/
theorem Step.worker {site : Site} {σ σ' : State} {i j : Nat} {w' : Worker} (h : Step site σ j σ')
    (hw' : σ'.workers i = some w') : σ.workers i = some w' ∨
      (∃ s window, σ.workers i = none ∧ site.settings s ∧
        w' = .resting (.ofSettings s window)) ∨
      (∃ r : Reconciler, ∃ turns, w' = .cycling [] (r.cycleIn turns)) ∨
      ∃ w, σ.workers i = some w ∧ Moves site (σ.ledger, w) (σ'.ledger, w') := by
  by_cases hij : i = j
  · subst hij
    cases h with
    | joins window free allowed =>
      cases (Function.update_self ..).symm.trans hw'
      exact .inr (.inl ⟨_, window, free, allowed, rfl⟩)
    | cycles turns free allowed =>
      cases (Function.update_self ..).symm.trans hw'
      exact .inr (.inr (.inl ⟨_, turns, rfl⟩))
    | moves busy hmove =>
      cases (Function.update_self ..).symm.trans hw'
      exact .inr (.inr (.inr ⟨_, busy, hmove⟩))
    | leaves => cases (Function.update_self ..).symm.trans hw'
  · left
    cases h <;> exact (Function.update_of_ne hij ..).symm.trans hw'

def Action.New : Action → Prop
  | .join s window => ChainWindow.ofCapacity? s.trackerWindow.toNat = some window
  | _ => True

section Played

variable {site : Site} {σ : State} {i : Nat} {p : Pipeline}

def State.isStepping (i : Nat) (σ : State) : Bool :=
  match σ.workers i with
  | some (.stepping _ _) => true
  | _ => false

theorem State.stepping_of_isStepping (h : σ.isStepping i = true) :
    ∃ past rest, σ.workers i = some (.stepping past rest) := by
  unfold isStepping at h
  split at h
  · next past rest hw => exact ⟨past, rest, hw⟩
  · cases h

def State.staysStepping (i : Nat) (σ : State) : List (Nat × Action) → Bool
  | [] => true
  | (j, action) :: rest => (σ.play j action).isStepping i &&
      (σ.play j action).staysStepping i rest

theorem State.new_of_play {action : Action} (new : action.New) (j : Nat)
    (free : σ.workers j = none) (joined : (σ.play i action).workers j = some (.resting p)) :
    ChainWindow.ofCapacity? p.settings.trackerWindow.toNat = some p.window := by
  by_cases hji : j = i
  · subst hji
    unfold play at joined
    rw [free] at joined
    cases action with
    | join s window =>
      cases (Function.update_self ..).symm.trans joined
      exact new
    | cycle r => cases (Function.update_self ..).symm.trans joined
    | goOn host => cases free.symm.trans joined
    | leave => cases (Function.update_self ..).symm.trans joined
  · have hother : (σ.play i action).workers j = σ.workers j := by
      unfold play
      split
      all_goals first | rfl | exact Function.update_of_ne hji ..
    cases (hother.symm.trans joined).symm.trans free

theorem Run.playAll (run : Run site σ) {actions : List (Nat × Action)}
    (suits : ∀ a ∈ actions, a.2.Suits site) (new : ∀ a ∈ actions, a.2.New) :
    Run site (σ.playAll actions) := by
  induction actions generalizing σ with
  | nil => exact run
  | cons a rest ih =>
    refine ih ?_ (fun b hb => suits b (List.mem_cons_of_mem a hb)) fun b hb =>
      new b (List.mem_cons_of_mem a hb)
    rcases σ.play_step a.1 (suits a (List.mem_cons_self ..)) with hsame | hstep
    · rwa [hsame]
    · exact run.step hstep fun j p => σ.new_of_play (new a (List.mem_cons_self ..)) j

theorem Begun.playAll (begun : Begun site i p σ) {actions : List (Nat × Action)}
    (suits : ∀ a ∈ actions, a.2.Suits site) (stays : σ.staysStepping i actions = true) :
    Begun site i p (σ.playAll actions) := by
  induction actions generalizing σ with
  | nil => exact begun
  | cons a rest ih =>
    obtain ⟨hnow, hlater⟩ := Bool.and_eq_true_iff.1 stays
    refine ih ?_ (fun b hb => suits b (List.mem_cons_of_mem a hb)) hlater
    rcases σ.play_step a.1 (suits a (List.mem_cons_self ..)) with hsame | hstep
    · rwa [hsame]
    · exact begun.goesOn hstep (State.stepping_of_isStepping hnow)

end Played

end Shared

namespace LinearChain

variable {chain : LinearChain} {s : Settings} {w : ChainWindow} {past : List Call}
variable {rest : Program (Except Failure StepOutcome × Pipeline)}

structure Tracks (chain : LinearChain) (s : Settings) (w : ChainWindow) (past : List Call)
    (rest : Program (Except Failure StepOutcome × Pipeline)) : Prop where
  along : chain.Along w
  served : ∀ first last ids raw l,
    ⟨.source (.slots first last ids), Except.ok raw, l⟩ ∈ past → chain.Serves first last raw
  announced : (∃ c ∈ past, c.request.AnnouncesFork) → ∃ (h : Haul) (older : List Call),
    older <:+ past ∧ h.ToldIn s older ∧ (h.observed s w).1 ≠ []
  follows : rest.Follows (chain.site s) (Pipeline.ForkRule s w)
    (fun q x => x.2.settings = s ∧ Pipeline.Fetching s w q x.2.window) past

theorem Tracks.begin {p : Pipeline} (settings : p.settings = s) (along : chain.Along p.window) :
    chain.Tracks s p.window [] p.step where
  along := along
  served _ _ _ _ _ hc := absurd hc List.not_mem_nil
  announced h := by
    obtain ⟨c, hc, -⟩ := h
    exact absurd hc List.not_mem_nil
  follows := Pipeline.step_fetches settings

theorem Tracks.ask {r : Request} {a : r.Answer} {l l' : Ledger}
    {next : r.Answer → Program (Except Failure StepOutcome × Pipeline)}
    (tracks : chain.Tracks s w past (.ask r next)) (answered : Answered (chain.site s) l r a l') :
    chain.Tracks s w (⟨r, a, l⟩ :: past) (next a) := by
  obtain ⟨inOrder, hnext⟩ := tracks.follows
  refine ⟨tracks.along, fun first last ids raw l₀ hc => ?_, fun hfork => ?_,
    hnext l a l' answered⟩
  · rcases List.mem_cons.1 hc with hsame | hold
    · cases hsame
      cases answered with
      | source allowed => exact allowed
    · exact tracks.served first last ids raw l₀ hold
  · -- By the rule, a fork that is made known now has its batch among the calls before.
    obtain ⟨c, hc, hfork⟩ := hfork
    rcases List.mem_cons.1 hc with rfl | hold
    · obtain ⟨h, told, hforks⟩ := inOrder hfork
      exact ⟨h, past, List.suffix_cons _ past, told, hforks⟩
    · obtain ⟨h, older, hsuffix, told, hforks⟩ := tracks.announced ⟨c, hold, hfork⟩
      exact ⟨h, older, hsuffix.trans (List.suffix_cons _ past), told, hforks⟩

/-- The slots that a step hears of are served. -/
theorem Tracks.served_of_told (tracks : chain.Tracks s w past rest) {h : Haul} {older : List Call}
    (hsuffix : older <:+ past) (told : h.ToldIn s older) :
    chain.Serves (h.position + 1) (h.last s) h.raw := by
  obtain ⟨l, hslots⟩ := told.slots_mem
  exact tracks.served _ _ _ _ l (hsuffix.subset hslots)

theorem Tracks.forks_iff_gap (tracks : chain.Tracks s w past rest) {h : Haul} {older : List Call}
    (hsuffix : older <:+ past) (told : h.ToldIn s older) :
    (h.observed s w).1 ≠ [] ↔ chain.Gap w (h.position + 1) (h.last s) :=
  tracks.along.forks_iff_gap (tracks.served_of_told hsuffix told) s.classifier.programIds

theorem Tracks.moves {past' : List Call} {l l' : Ledger}
    {rest' : Program (Except Failure StepOutcome × Pipeline)}
    (tracks : chain.Tracks s w past rest)
    (h : Moves (chain.site s) (l, .stepping past rest) (l', .stepping past' rest')) :
    chain.Tracks s w past' rest' := by
  cases h with
  | asks answered => exact tracks.ask answered

/-- A step leaves the window along the chain. -/
theorem Tracks.done {result : Except Failure StepOutcome} {p : Pipeline}
    (tracks : chain.Tracks s w past (.done (result, p))) :
    p.settings = s ∧ chain.Along p.window := by
  obtain ⟨settings, fetching⟩ := tracks.follows
  refine ⟨settings, ?_⟩
  simp only at fetching
  generalize p.window = w' at fetching
  cases fetching with
  | nothing quiet => exact tracks.along
  | @batch h told announced =>
    have served := tracks.served_of_told (List.suffix_refl past) told
    exact (tracks.along.observeAll (served.inTurn s.classifier.programIds)).1

inductive Kept (chain : LinearChain) (s : Settings) : Worker → Prop
  | resting {p : Pipeline} (settings : p.settings = s) (along : chain.Along p.window) :
      Kept chain s (.resting p)
  | stepping {w : ChainWindow} {past : List Call}
      {rest : Program (Except Failure StepOutcome × Pipeline)}
      (tracks : chain.Tracks s w past rest) : Kept chain s (.stepping past rest)
  | cycling (past : List Call) (rest : Program (Except Failure CycleReport)) :
      Kept chain s (.cycling past rest)

theorem Kept.moves {l l' : Ledger} {v v' : Worker} (kept : chain.Kept s v)
    (h : Moves (chain.site s) (l, v) (l', v')) : chain.Kept s v' := by
  cases h with
  | begins l p =>
    cases kept with
    | resting settings along => exact .stepping (.begin settings along)
  | asks answered =>
    cases kept with
    | stepping tracks => exact .stepping (tracks.ask answered)
  | cycleAsks answered => exact .cycling _ _
  | rests l past result p =>
    cases kept with
    | stepping tracks => exact .resting tracks.done.1 tracks.done.2

theorem along_of_new {capacity : Nat} (h : ChainWindow.ofCapacity? capacity = some w) :
    chain.Along w := by
  obtain ⟨-, rfl⟩ := ChainWindow.ofCapacity?_eq_some_iff.1 h
  exact ⟨nofun, List.Pairwise.nil⟩

/-- All windows stay along the chain, whatever the pipelines do to each other. -/
theorem kept_of_run {σ : State} (run : Run (chain.site s) σ) {i : Nat} {v : Worker}
    (hv : σ.workers i = some v) : chain.Kept s v := by
  induction run generalizing i v with
  | idle l => cases hv
  | step before h new ih =>
    rcases h.worker hv with same | ⟨t, window, free, allowed, rfl⟩ | ⟨r, turns, rfl⟩ |
      ⟨v₀, hv₀, hmove⟩
    · exact ih same
    · exact .resting allowed (along_of_new (new i _ free hv))
    · exact .cycling _ _
    · exact (ih hv₀).moves hmove

/-- A step in a run is judged by the window with which it began. -/
theorem tracks_of_begun {σ : State} {i : Nat} {p : Pipeline}
    (begun : Begun (chain.site s) i p σ) :
    ∃ past rest, σ.workers i = some (.stepping past rest) ∧
      chain.Tracks s p.window past rest := by
  induction begun with
  | begins run rests =>
    cases kept_of_run run rests with
    | resting settings along =>
      exact ⟨[], p.step, Function.update_self .., .begin settings along⟩
  | goesOn before h still ih =>
    obtain ⟨past, rest, hw, tracks⟩ := ih
    obtain ⟨past', rest', hw'⟩ := still
    refine ⟨past', rest', hw', ?_⟩
    rcases h.worker hw' with same | ⟨t, window, free, -⟩ | ⟨r, turns, heq⟩ | ⟨v, hv, hmove⟩
    · cases hw.symm.trans same
      exact tracks
    · cases hw.symm.trans free
    · cases heq
    · cases hw.symm.trans hv
      exact tracks.moves hmove

/-- What a step that began with this window makes of the chain: its forks are gaps. -/
structure SeesGaps (chain : LinearChain) (s : Settings) (w : ChainWindow) (past : List Call)
    (rest : Program (Except Failure StepOutcome × Pipeline)) : Prop where
  /-- A batch has forks exactly if there is a gap between the window and its slots. -/
  reports : ∀ h : Haul, h.ToldIn s past →
    ((h.observed s w).1 ≠ [] ↔ chain.Gap w (h.position + 1) (h.last s))
  announces : (∃ c ∈ past, c.request.AnnouncesFork) → ∃ (h : Haul) (older : List Call),
    older <:+ past ∧ h.ToldIn s older ∧ chain.Gap w (h.position + 1) (h.last s)
  /-- No gap is passed over in silence. -/
  ends : ∀ result p, rest = .done (result, p) → ((∃ c ∈ past, c.request.AnnouncesFork) ↔
    ∃ h : Haul, h.ToldIn s past ∧ chain.Gap w (h.position + 1) (h.last s))
  /-- After a batch a pipeline lags only if it did before and there was no block. -/
  leaves : ∀ result p, rest = .done (result, p) → ∀ h : Haul, h.ToldIn s past →
    (chain.Lags ((h.last s).toNat + 1) p.window ↔
      chain.Lags (h.position + 1).toNat w ∧ ¬ chain.Produces (h.position + 1) (h.last s))

theorem Tracks.seesGaps (tracks : chain.Tracks s w past rest) :
    chain.SeesGaps s w past rest := by
  have reports : ∀ h : Haul, h.ToldIn s past →
      ((h.observed s w).1 ≠ [] ↔ chain.Gap w (h.position + 1) (h.last s)) :=
    fun h told => tracks.forks_iff_gap (List.suffix_refl past) told
  have fetching : ∀ result p, rest = .done (result, p) → Pipeline.Fetching s w past p.window := by
    intro result p hdone
    subst hdone
    exact tracks.follows.2
  refine ⟨reports, fun hfork => ?_, fun result p hdone => ⟨fun hfork => ?_, ?_⟩,
    fun result p hdone h told => ?_⟩
  · obtain ⟨h, older, hsuffix, told, hforks⟩ := tracks.announced hfork
    exact ⟨h, older, hsuffix, told, (tracks.forks_iff_gap hsuffix told).1 hforks⟩
  · obtain ⟨h, told, hforks⟩ := (fetching result p hdone).of_announced hfork
    exact ⟨h, told, (reports h told).1 hforks⟩
  · rintro ⟨h, told, gap⟩
    exact ((fetching result p hdone).of_told told).2.2 ((reports h told).2 gap)
  · obtain ⟨hwindow, -⟩ := (fetching result p hdone).of_told told
    rw [hwindow]
    refine tracks.along.lags_after_iff (tracks.served_of_told (List.suffix_refl past) told)
      s.classifier.programIds ?_
    exact (Settings.succ_position_le told.1).2 (Settings.lastOf_bounds told.1).1

/-- Whatever the others do: a pipeline makes a fork known only where its window has been left
behind, and wherever it has. -/
theorem forks_are_gaps {σ : State} {i : Nat} {p : Pipeline} (begun : Begun (chain.site s) i p σ)
    (stepping : σ.workers i = some (.stepping past rest)) :
    chain.SeesGaps s p.window past rest := by
  obtain ⟨past', rest', hw, tracks⟩ := tracks_of_begun begun
  cases hw.symm.trans stepping
  exact tracks.seesGaps

def rowHash (slot : Slot) : Option String :=
  if slot = 1 then some "b1" else if slot = 2 then some "b2"
  else if slot = 3 then some "b3" else none

def rowParent (slot : Slot) : Option String :=
  if slot = 2 then some "b1" else if slot = 3 then some "b2" else none

theorem of_rowHash {slot : Slot} {h : String} (hslot : rowHash slot = some h) :
    slot = 1 ∧ h = "b1" ∨ slot = 2 ∧ h = "b2" ∨ slot = 3 ∧ h = "b3" := by
  unfold rowHash at hslot
  split_ifs at hslot with h1 h2 h3 <;> cases hslot
  · exact .inl ⟨h1, rfl⟩
  · exact .inr (.inl ⟨h2, rfl⟩)
  · exact .inr (.inr ⟨h3, rfl⟩)

def threeInRow : LinearChain where
  hash := rowHash
  parent := rowParent
  builds {s t h k} hlt hs ht hnone := by
    rcases of_rowHash hs with ⟨rfl, rfl⟩ | ⟨rfl, rfl⟩ | ⟨rfl, rfl⟩ <;>
      rcases of_rowHash ht with ⟨rfl, rfl⟩ | ⟨rfl, rfl⟩ | ⟨rfl, rfl⟩ <;>
      first
      | rfl
      | exact absurd hlt (by decide)
      | cases hnone 2 (by decide) (by decide)

def threeBlocks : Ingestion.Answers
  | .head => (3 : Slot)
  | .slots _ _ _ => ([⟨1, some "b1", none, none, []⟩, ⟨2, some "b2", some "b1", none, []⟩,
      ⟨3, some "b3", some "b2", none, []⟩] : List Delivery)
  | .resolve _ => Verdict.absent

theorem threeBlocks_serves (first last : Slot) (ids : List String) :
    threeInRow.Serves first last (threeBlocks (.slots first last ids)) := by
  constructor
  · simp only [threeBlocks, List.forall_mem_cons]
    exact ⟨⟨rfl, fun _ => rfl⟩, ⟨rfl, fun _ => rfl⟩, ⟨rfl, fun _ => rfl⟩, nofun⟩
  · intro slot _ _ hne
    obtain ⟨h, hh⟩ := Option.ne_none_iff_exists'.1 hne
    rcases of_rowHash hh with ⟨rfl, -⟩ | ⟨rfl, -⟩ | ⟨rfl, -⟩ <;> simp [threeBlocks]

def blockByBlock : Settings :=
  { Settings.default with
    batchSize := 1
    classifier := ⟨["11111111111111111111111111111111"], 0, [1]⟩ }

/-- Two pipelines. The second one fetches the first block and is overtaken by two batches. -/
def overtaken : State :=
  (State.idle .empty).playAll
    ([(0, .join blockByBlock ⟨256, []⟩), (1, .join blockByBlock ⟨256, []⟩)] ++
      List.replicate 4 (1, .goOn ⟨threeBlocks, 0⟩) ++
      List.replicate 13 (0, .goOn ⟨threeBlocks, 0⟩) ++
      List.replicate 4 (1, .goOn ⟨threeBlocks, 0⟩))

def misled : State :=
  overtaken.playAll (List.replicate 4 (1, .goOn ⟨threeBlocks, 0⟩))

theorem run_overtaken {site : Site} (suits : (Host.mk threeBlocks 0).Suits site)
    (allowed : site.settings blockByBlock) : Run site overtaken := by
  refine (Run.idle .empty).playAll ?_ ?_
  · simp [or_imp, forall_and, Action.Suits, suits, allowed]
  · have new : ChainWindow.ofCapacity? blockByBlock.trackerWindow.toNat = some ⟨256, []⟩ := by
      decide
    simp [or_imp, forall_and, Action.New, new]

theorem overtaken_window : ∃ p, overtaken.workers 1 = some (.resting p) ∧
    p.window = ⟨256, [⟨1, "b1"⟩]⟩ := by
  have hwindow : (overtaken.workers 1).bind Worker.window? = some ⟨256, [⟨1, "b1"⟩]⟩ := by
    decide +kernel
  obtain ⟨v, hv, hwindow⟩ := Option.bind_eq_some_iff.1 hwindow
  obtain ⟨p, rfl, hp⟩ := Worker.of_window? hwindow
  exact ⟨p, hv, hp⟩

theorem misled_fork : ∃ l past rest, misled.workers 1 =
    some (.stepping (⟨.emit (.forkDetected 3 1), (), l⟩ :: past) rest) := by
  have hfork : (misled.workers 1).bind Worker.latestFork? = some (3, 1) := by decide +kernel
  obtain ⟨v, hv, hfork⟩ := Option.bind_eq_some_iff.1 hfork
  obtain ⟨l, past, rest, rfl⟩ := Worker.of_latestFork? hfork
  exact ⟨l, past, rest, hv⟩

/-- The source always answers the same and nothing fails, and still a fork is made known. -/
theorem fork_on_fixed_chain :
    (∀ first last ids, threeInRow.Serves first last (threeBlocks (.slots first last ids))) ∧
    Run (Ingestion.ingestion threeBlocks blockByBlock).calm misled ∧
    ∃ l past rest, misled.workers 1 =
      some (.stepping (⟨.emit (.forkDetected 3 1), (), l⟩ :: past) rest) := by
  have suits : (Host.mk threeBlocks 0).Suits
      (Ingestion.ingestion threeBlocks blockByBlock).calm := fun call => rfl
  refine ⟨threeBlocks_serves, (run_overtaken suits rfl).playAll ?_ ?_, misled_fork⟩
  · simp [Action.Suits, suits]
  · simp [Action.New]

/-- The window had come to the first block only. -/
theorem misled_fork_is_gap : ∃ (h : Haul) (older : List Call), h.ToldIn blockByBlock older ∧
    threeInRow.Gap ⟨256, [⟨1, "b1"⟩]⟩ (h.position + 1) (h.last blockByBlock) := by
  have suits : (Host.mk threeBlocks 0).Suits (threeInRow.site blockByBlock) := by
    intro call
    cases call with
    | slots first last ids => exact threeBlocks_serves first last ids
    | _ => trivial
  obtain ⟨p, rests, hwindow⟩ := overtaken_window
  obtain ⟨l, past, rest, stepping⟩ := misled_fork
  have begun : Begun (threeInRow.site blockByBlock) 1 p misled := by
    have hbegins : overtaken.play 1 (.goOn ⟨threeBlocks, 0⟩) =
        ⟨overtaken.ledger, Function.update overtaken.workers 1 (some (.stepping [] p.step))⟩ := by
      unfold State.play
      rw [rests]
      rfl
    unfold misled
    rw [List.replicate_succ, State.playAll, hbegins]
    refine (Begun.begins (run_overtaken suits rfl) rests).playAll ?_ ?_
    · simp [Action.Suits, suits]
    · rw [← hbegins]
      decide +kernel
  obtain ⟨h, older, -, told, gap⟩ :=
    (forks_are_gaps begun stepping).announces ⟨_, List.mem_cons_self .., 3, 1, rfl⟩
  exact ⟨h, older, told, hwindow ▸ gap⟩

end LinearChain

end RouterHistory
