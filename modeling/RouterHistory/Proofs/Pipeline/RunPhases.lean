import Mathlib.Data.List.Destutter
import RouterHistory.Pipeline.Follow
import RouterHistory.Proofs.Pipeline.StepFailures
import RouterHistory.Proofs.Reconciliation.Recovery
import RouterHistory.Proofs.Shared.CycleConduct
import RouterHistory.Proofs.Shared.LoneRun

/-!
The phases of a run. A pipeline that follows the chain makes a phase known whenever it enters one
that it was not in, so what is known of a run is which phases its steps led to, without
repetitions, and how it ended. Others may be at work on the ledger at any time, and shutdown may
be asked for between any two requests.
-/
namespace RouterHistory.Pipeline

open Shared

structure Course where
  loaded : Except Failure Slot
  outcomes : List (Except Failure StepOutcome)

/-- The loop, which also tells the outcomes of its steps after those before. -/
def loopTelling (outcomes : List (Except Failure StepOutcome)) : (limit : Nat) → Pipeline →
    Program ((Option (Except Failure Unit) × Pipeline) × List (Except Failure StepOutcome))
  | 0, p => return ((none, p), outcomes)
  | limit + 1, p => do
      if ← Program.shutdownFlag then return ((some (.ok ()), ← p.enter .stopping), outcomes)
      else
        let (outcome, p) ← p.step
        let outcomes := outcomes ++ [outcome]
        match ← p.settle outcome with
        | (.goOn, p) => loopTelling outcomes limit p
        | (.fail f, p) => return ((some (.error f), p), outcomes)
        | (.pause milliseconds, p) =>
            if ← Program.wait (.pause milliseconds) then
              return ((some (.ok ()), ← p.enter .stopping), outcomes)
            else loopTelling outcomes limit p

def driveTelling (limit : Nat) (p : Pipeline) :
    Program ((Option (Except Failure Unit) × Pipeline) × Course) := do
  match ← p.load with
  | (.error f, p) => return ((some (.error f), p), ⟨.error f, []⟩)
  | (.ok slot, p) =>
      let (result, outcomes) ← loopTelling [] limit (← p.enter .catchingUp)
      return (result, ⟨.ok slot, outcomes⟩)

def followTelling (limit : Nat) (p : Pipeline) :
    Program (Option (Except Failure Checkpoint) × Course) := do
  let ((result, p), course) ← p.driveTelling limit
  let _ ← Program.wait .reconcilerEnd
  match result with
  | none => return (none, course)
  | some (.error f) =>
      let _ ← p.enter .failed
      return (some (.error f), course)
  | some (.ok ()) =>
      let p ← p.enter .stopped
      return (some (← p.finalCheckpoint), course)

theorem fst_map_done {α β : Type} (x : α × β) :
    Prod.fst <$> (Program.done x : Program (α × β)) = Program.done x.1 := rfl

theorem loop_eq_loopTelling (outcomes : List (Except Failure StepOutcome)) (limit : Nat)
    (p : Pipeline) : p.loop limit = Prod.fst <$> p.loopTelling outcomes limit := by
  induction limit generalizing outcomes p with
  | zero => rfl
  | succ limit ih =>
    unfold loop loopTelling
    simp only [map_bind]
    refine bind_congr fun stop => ?_
    cases stop with
    | true => simp [fst_map_done]
    | false =>
      simp only [Bool.false_eq_true, if_false, map_bind]
      refine bind_congr fun x => bind_congr fun y => ?_
      obtain ⟨pace, p'⟩ := y
      cases pace with
      | goOn => exact ih _ p'
      | fail f => rfl
      | pause milliseconds =>
        simp only [map_bind]
        refine bind_congr fun stop => ?_
        cases stop with
        | true => simp [fst_map_done]
        | false => exact ih _ p'

theorem drive_eq_driveTelling (limit : Nat) (p : Pipeline) :
    p.drive limit = Prod.fst <$> p.driveTelling limit := by
  unfold drive driveTelling
  rw [map_bind]
  refine bind_congr fun x => ?_
  obtain ⟨loaded, p'⟩ := x
  cases loaded with
  | error f => rfl
  | ok slot =>
    simp only [map_bind, loop_eq_loopTelling []]
    refine bind_congr fun p => ?_
    rw [map_eq_pure_bind]
    rfl

/-- Telling changes nothing. -/
theorem follow_eq_followTelling (limit : Nat) (p : Pipeline) :
    p.follow limit = Prod.fst <$> p.followTelling limit := by
  unfold follow followTelling
  rw [drive_eq_driveTelling, map_bind, bind_map_left]
  refine bind_congr fun x => ?_
  obtain ⟨⟨result, p'⟩, course⟩ := x
  simp only [map_bind]
  refine bind_congr fun _ => ?_
  rcases result with _ | f | _ <;> simp [fst_map_done]

def announcement : Request → Option Phase
  | .emit (.phaseChanged phase) => some phase
  | _ => none

def announced (past : List Call) : List Phase :=
  past.reverse.filterMap fun call => announcement call.request

theorem announced_cons (call : Call) (past : List Call) :
    announced (call :: past) = announced past ++ (announcement call.request).toList := by
  unfold announced
  rw [List.reverse_cons, List.filterMap_append]
  cases h : announcement call.request <;> simp [h]

theorem announcement_of_silent {r : Request} (h : r.Silent) : announcement r = none := by
  cases r with
  | emit event =>
    cases event with
    | phaseChanged phase => exact absurd rfl (h phase)
    | _ => rfl
  | _ => rfl

def phaseAfter : Except Failure StepOutcome → Option Phase
  | .ok (.caughtUp _) => some .live
  | .ok _ => some .catchingUp
  | .error f => if f.isSourceFailure then some .unhealthy else none

/-- The phases of a run while it works, one for the start and one for each step. -/
def visited (outcomes : List (Except Failure StepOutcome)) : List Phase :=
  .catchingUp :: outcomes.filterMap phaseAfter

def worked (outcomes : List (Except Failure StepOutcome)) : List Phase :=
  (visited outcomes).destutter (· ≠ ·)

theorem mem_visited {outcomes : List (Except Failure StepOutcome)} {phase : Phase}
    (h : phase ∈ visited outcomes) : phase ∈ [Phase.catchingUp, .live, .unhealthy] := by
  rcases List.mem_cons.1 h with rfl | h
  · simp
  · obtain ⟨outcome, -, houtcome⟩ := List.mem_filterMap.1 h
    unfold phaseAfter at houtcome
    split at houtcome
    · cases houtcome
      simp
    · cases houtcome
      simp
    · split at houtcome
      · cases houtcome
        simp
      · cases houtcome

theorem mem_worked {outcomes : List (Except Failure StepOutcome)} {phase : Phase}
    (h : phase ∈ worked outcomes) : phase ∈ [Phase.catchingUp, .live, .unhealthy] :=
  mem_visited ((List.destutter_sublist _ _).subset h)

theorem destutter'_concat (first : Phase) (phases : List Phase) (phase : Phase) :
    (phases ++ [phase]).destutter' (· ≠ ·) first = phases.destutter' (· ≠ ·) first ++
      if (first :: phases).getLast? = some phase then [] else [phase] := by
  induction phases generalizing first with
  | nil => by_cases h : first = phase <;> simp [h]
  | cons next rest ih =>
    by_cases h : first = next
    · subst h
      rw [List.cons_append, List.destutter'_cons_neg _ (by simp),
        List.destutter'_cons_neg _ (by simp),
        ih]
      simp
    · rw [List.cons_append, List.destutter'_cons_pos _ (by simpa using h),
        List.destutter'_cons_pos _ (by simpa using h), ih]
      simp

theorem destutter'_eq_cons (first : Phase) (phases : List Phase) :
    ∃ rest, phases.destutter' (· ≠ ·) first = first :: rest := by
  induction phases with
  | nil => exact ⟨[], rfl⟩
  | cons next rest ih =>
    by_cases h : first = next
    · rw [List.destutter'_cons_neg _ (by simpa using h)]
      exact ih
    · rw [List.destutter'_cons_pos _ (by simpa using h)]
      exact ⟨_, rfl⟩

/-- Another step adds its phase, unless that was the last one. -/
theorem worked_concat {outcomes : List (Except Failure StepOutcome)}
    {outcome : Except Failure StepOutcome} {phase : Phase} (h : phaseAfter outcome = some phase) :
    worked (outcomes ++ [outcome]) = worked outcomes ++
      if (visited outcomes).getLast? = some phase then [] else [phase] := by
  unfold worked visited
  rw [List.filterMap_append]
  simp only [List.filterMap_cons, h, List.filterMap_nil]
  exact destutter'_concat _ _ _

theorem getLast_visited_concat {outcomes : List (Except Failure StepOutcome)}
    {outcome : Except Failure StepOutcome} {phase : Phase} (h : phaseAfter outcome = some phase) :
    (visited (outcomes ++ [outcome])).getLast? = some phase := by
  unfold visited
  rw [List.filterMap_append, ← List.cons_append]
  simp only [List.filterMap_cons, h, List.filterMap_nil]
  exact List.getLast?_concat

variable {α : Type} {site : Site} {past : List Call} {p : Pipeline}
  {outcomes : List (Except Failure StepOutcome)}

def Stops (past : List Call) (r : Request) : Prop :=
  .stopping ∈ announced past → ∀ batch, r ≠ .store (.commit batch)

/-- What makes no change of phase known leaves the announced phases as they are. -/
theorem follows_silent {p : Program α} {post : List Call → α → Prop}
    (h : p.Follows site (fun _ r => r.Silent) post past) (working : .stopping ∉ announced past) :
    p.Follows site Stops (fun q a => post q a ∧ announced q = announced past) past := by
  induction p generalizing past with
  | done a => exact ⟨h, rfl⟩
  | ask r next ih =>
    refine ⟨fun stopping => absurd stopping working, fun l a l' ha => ?_⟩
    have hsame : announced (⟨r, a, l⟩ :: past) = announced past := by
      rw [announced_cons, announcement_of_silent h.1]
      simp
    rw [← hsame] at working ⊢
    exact ih a (h.2 l a l' ha) working

theorem follows_enter {phase : Phase} {post : List Call → Pipeline → Prop}
    (h : ∀ q, past <:+ q →
      announced q = announced past ++ (if p.phase = phase then [] else [phase]) →
      post q { p with phase }) : (p.enter phase).Follows site Stops post past := by
  unfold enter
  by_cases hphase : p.phase = phase
  · rw [if_pos hphase]
    subst hphase
    exact h past (List.suffix_refl past) (by simp)
  · rw [if_neg hphase]
    refine Program.follows_emit (fun _ _ => nofun) fun l => h _ (List.suffix_cons _ past) ?_
    rw [announced_cons, if_neg hphase]
    rfl

structure Working (past : List Call) (outcomes : List (Except Failure StepOutcome))
    (p : Pipeline) : Prop where
  announced : announced past = worked outcomes
  phase : (visited outcomes).getLast? = some p.phase
  goesOn : ∀ outcome ∈ outcomes, phaseAfter outcome ≠ none

theorem Working.not_stopping (h : Working past outcomes p) :
    .stopping ∉ Pipeline.announced past := by
  intro hmem
  have hworked := mem_worked (h.announced ▸ hmem)
  simp at hworked

theorem Working.of_silent (h : Working past outcomes p) {r : Request} (silent : r.Silent)
    (a : r.Answer) (l : Ledger) : Working (⟨r, a, l⟩ :: past) outcomes p := by
  refine ⟨?_, h.phase, h.goesOn⟩
  rw [announced_cons, announcement_of_silent silent, h.announced]
  simp

theorem Working.enter (h : Working past outcomes p) {outcome : Except Failure StepOutcome}
    {phase : Phase} (hphase : phaseAfter outcome = some phase) :
    (p.enter phase).Follows site Stops
      (fun q p' => Working q (outcomes ++ [outcome]) p') past := by
  refine follows_enter fun q _ hq => ⟨?_, getLast_visited_concat hphase, fun o ho => ?_⟩
  · rw [hq, worked_concat hphase, h.announced, h.phase]
    simp
  · rcases List.mem_append.1 ho with hold | hnew
    · exact h.goesOn o hold
    · rw [List.mem_singleton.1 hnew, hphase]
      exact nofun

/-- How the loop ends: it may go on, it was told to stop, or a step failed. -/
inductive Halted (past : List Call) (outcomes : List (Except Failure StepOutcome)) :
    Option (Except Failure Unit) → Pipeline → Prop
  | working {p : Pipeline} (h : Working past outcomes p) : Halted past outcomes none p
  | stopped {p : Pipeline} (known : announced past = worked outcomes ++ [.stopping])
      (phase : p.phase = .stopping) (goesOn : ∀ outcome ∈ outcomes, phaseAfter outcome ≠ none) :
      Halted past outcomes (some (.ok ())) p
  | failed {p : Pipeline} {f : Failure} (known : announced past = worked outcomes)
      (phase : p.phase ≠ .failed) (told : .error f ∈ outcomes) (other : f.isSourceFailure = false)
      (broken : ∃ call ∈ past, call.Broken) : Halted past outcomes (some (.error f)) p

inductive Paced (past : List Call) (outcomes : List (Except Failure StepOutcome)) :
    Pace → Pipeline → Prop
  | goOn {p : Pipeline} (h : Working past outcomes p) : Paced past outcomes .goOn p
  | pause {p : Pipeline} (milliseconds : UInt64) (h : Working past outcomes p) :
      Paced past outcomes (.pause milliseconds) p
  | fail {p : Pipeline} {f : Failure} (h : Halted past outcomes (some (.error f)) p) :
      Paced past outcomes (.fail f) p

theorem Working.phase_mem (h : Working past outcomes p) :
    p.phase ∈ [Phase.catchingUp, .live, .unhealthy] :=
  mem_visited (List.mem_of_getLast? h.phase)

theorem Working.not_failed (h : Working past outcomes p) : p.phase ≠ .failed := by
  intro hfailed
  have hmem := h.phase_mem
  rw [hfailed] at hmem
  simp at hmem

theorem settle_follows (h : Working past outcomes p) {outcome : Except Failure StepOutcome}
    (blamed : Blamed noFailure past outcome) :
    (p.settle outcome).Follows site Stops
      (fun q x => Paced q (outcomes ++ [outcome]) x.1 x.2) past := by
  unfold settle
  rcases outcome with f | outcome
  · by_cases hsource : f.isSourceFailure
    · simp only [hsource, if_true]
      have hphase : phaseAfter (.error f) = some .unhealthy := if_pos hsource
      refine Program.follows_bind (Program.follows_imp (h.enter hphase) fun q p' working => ?_)
      exact Program.follows_emit (fun _ _ => nofun) fun l =>
        .pause _ (working.of_silent (r := .emit (.sourceUnhealthy f.message)) nofun () l)
    · simp only [hsource, if_false, Bool.false_eq_true]
      have hnone : phaseAfter (.error f) = none := if_neg hsource
      have hother : f.isSourceFailure = false := by simpa using hsource
      refine .fail (.failed ?_ h.not_failed (by simp) hother (blamed f rfl hother rfl))
      rw [h.announced]
      simp [worked, visited, List.filterMap_append, hnone]
  · cases outcome with
    | committed first last tally =>
      exact Program.follows_bind (Program.follows_imp (h.enter rfl) fun q p' working =>
        .goOn working)
    | caughtUp slot =>
      exact Program.follows_bind (Program.follows_imp (h.enter rfl) fun q p' working =>
        .pause _ working)
    | stale slot =>
      exact Program.follows_bind (Program.follows_imp (h.enter rfl) fun q p' working =>
        .goOn working)

/-- A pipeline at work that is told to stop. -/
theorem Working.stop (h : Working past outcomes p) :
    (p.enter .stopping >>= fun p' =>
      Program.done ((some (.ok ()), p'), outcomes)).Follows site Stops
      (fun q (x : (Option (Except Failure Unit) × Pipeline) × _) => Halted q x.2 x.1.1 x.1.2)
      past := by
  refine Program.follows_bind (follows_enter fun q _ hq => ?_)
  have hother : p.phase ≠ .stopping := fun hsame => by
    have hmem := h.phase_mem
    rw [hsame] at hmem
    simp at hmem
  rw [if_neg hother, h.announced] at hq
  exact .stopped hq rfl h.goesOn

/-- Every round of the loop is a step, from a pipeline at work to one that is at work or to the
end of the run. -/
theorem loopTelling_follows (limit : Nat) (h : Working past outcomes p) :
    (p.loopTelling outcomes limit).Follows site Stops
      (fun q x => Halted q x.2 x.1.1 x.1.2) past := by
  induction limit generalizing past outcomes p with
  | zero => exact .working h
  | succ limit ih =>
    unfold loopTelling
    refine Program.follows_shutdownFlag (fun _ _ => nofun) fun l stop => ?_
    have h := h.of_silent (r := .shutdownFlag) nofun stop l
    cases stop with
    | true => exact h.stop
    | false =>
      have tells : Tells site (⟨.shutdownFlag, false, l⟩ :: past) p p.step := tells_step p
      have stepped := follows_silent tells h.not_stopping
      refine Program.follows_bind (Program.follows_imp stepped fun q x hx => ?_)
      obtain ⟨outcome, p'⟩ := x
      obtain ⟨⟨blamed, hphase⟩, hq⟩ := hx
      have h' : Working q outcomes p' :=
        ⟨hq.trans h.announced, h.phase.trans (congrArg some hphase.symm), h.goesOn⟩
      refine Program.follows_bind (Program.follows_imp (settle_follows h' blamed) ?_)
      intro q' x paced
      obtain ⟨pace, p''⟩ := x
      cases paced with
      | goOn working => exact ih working
      | fail halted => exact halted
      | pause milliseconds working =>
        refine Program.follows_wait (fun _ _ => nofun) fun l stop => ?_
        have working := working.of_silent (r := .wait (.pause milliseconds)) nofun stop l
        cases stop with
        | true => exact working.stop
        | false => exact ih working

inductive Driven (past : List Call) : Course → Option (Except Failure Unit) → Pipeline → Prop
  | unloaded {p : Pipeline} {f : Failure} (known : announced past = []) (phase : p.phase = .idle)
      (broken : ∃ call ∈ past, call.Broken) : Driven past ⟨.error f, []⟩ (some (.error f)) p
  | looped {p : Pipeline} {slot : Slot} {outcomes : List (Except Failure StepOutcome)}
      {result : Option (Except Failure Unit)} (h : Halted past outcomes result p) :
      Driven past ⟨.ok slot, outcomes⟩ result p

theorem driveTelling_follows (idle : p.phase = .idle) (limit : Nat) :
    (p.driveTelling limit).Follows site Stops (fun q x => Driven q x.2 x.1.1 x.1.2) [] := by
  unfold driveTelling
  have silent : p.load.Follows site (fun _ r => r.Silent) _ [] := follows_load p
  have loaded := follows_silent silent (by simp [announced])
  refine Program.follows_bind (Program.follows_imp loaded fun q x h => ?_)
  obtain ⟨result, p'⟩ := x
  obtain ⟨⟨faulty, hphase⟩, hq⟩ := h
  have hidle : p'.phase = .idle := hphase.trans idle
  cases result with
  | error f => exact .unloaded hq hidle (faulty f rfl)
  | ok slot =>
    refine Program.follows_bind (follows_enter fun q' _ hq' => ?_)
    rw [hq, if_neg (by rw [hidle]; decide)] at hq'
    have working : Working q' [] { p' with phase := .catchingUp } := ⟨hq', rfl, by simp⟩
    exact Program.follows_bind (Program.follows_imp (loopTelling_follows limit working)
      fun q'' x halted => .looped halted)

structure Recounted (past : List Call) (course : Course)
    (result : Option (Except Failure Checkpoint)) : Prop where
  /-- The phases while the run works: no phase follows itself. -/
  work : ∃ work, worked course.outcomes = .catchingUp :: work ∧
    (.catchingUp :: work).IsChain (· ≠ ·) ∧
    ∀ phase ∈ work, phase ∈ [Phase.catchingUp, .live, .unhealthy]
  /-- Nothing but a failure, or that work and then, if the run has ended, how it ended. -/
  phases : (∃ f, course.loaded = .error f) ∧ announced past = [.failed] ∨
    ∃ ending, announced past = worked course.outcomes ++ ending ∧ (result = none ∧ ending = [] ∨
      result ≠ none ∧ (ending = [.stopping, .stopped] ∨ ending = [.failed]))
  failed : .failed ∈ announced past ↔ (∃ f, course.loaded = .error f) ∨
    ∃ f, .error f ∈ course.outcomes ∧ f.isSourceFailure = false
  broken : .failed ∈ announced past → ∃ call ∈ past, call.Broken

theorem exists_work (outcomes : List (Except Failure StepOutcome)) :
    ∃ work, worked outcomes = .catchingUp :: work ∧ (.catchingUp :: work).IsChain (· ≠ ·) ∧
      ∀ phase ∈ work, phase ∈ [Phase.catchingUp, .live, .unhealthy] := by
  have hchain := List.isChain_destutter (· ≠ ·) (visited outcomes)
  have hmem : ∀ phase ∈ worked outcomes, phase ∈ [Phase.catchingUp, .live, .unhealthy] :=
    fun _ => mem_worked
  obtain ⟨work, hwork⟩ : ∃ work, worked outcomes = .catchingUp :: work := destutter'_eq_cons _ _
  refine ⟨work, hwork, hwork ▸ hchain, fun phase hphase => ?_⟩
  exact hmem phase (hwork ▸ List.mem_cons_of_mem _ hphase)

theorem failed_notMem_worked : .failed ∉ worked outcomes := fun h => by
  have hmem := mem_worked h
  simp at hmem

/-- Where the run goes on after each step, none of them failed but for the source. -/
theorem not_failed_of_goesOn (goesOn : ∀ outcome ∈ outcomes, phaseAfter outcome ≠ none) :
    ¬ ∃ f, .error f ∈ outcomes ∧ f.isSourceFailure = false := by
  intro h
  obtain ⟨f, hf, hother⟩ := h
  refine goesOn _ hf ?_
  simp [phaseAfter, hother]

def lastPhase : Option (Except Failure Unit) → List Phase
  | none => []
  | some (.ok ()) => [.stopped]
  | some (.error _) => [.failed]

/-- A run in which no step failed but for the source does not make known that it failed. -/
theorem recounted_unfailed {slot : Slot} {ending : List Phase}
    {result : Option (Except Failure Checkpoint)}
    (goesOn : ∀ outcome ∈ outcomes, phaseAfter outcome ≠ none)
    (known : announced past = worked outcomes ++ ending)
    (ends : result = none ∧ ending = [] ∨ result ≠ none ∧ ending = [.stopping, .stopped]) :
    Recounted past ⟨.ok slot, outcomes⟩ result := by
  have hnot : .failed ∉ announced past := by
    rw [known, List.mem_append]
    rcases ends with ⟨-, rfl⟩ | ⟨-, rfl⟩ <;> simp [failed_notMem_worked]
  refine ⟨exists_work _, .inr ⟨ending, known, ?_⟩, ?_, fun h => absurd h hnot⟩
  · exact ends.imp_right fun h => ⟨h.1, .inl h.2⟩
  · exact iff_of_false hnot (not_or.2 ⟨by simp, not_failed_of_goesOn goesOn⟩)

/-- The end of a run that worked. -/
theorem Halted.recounted {slot : Slot} {result : Option (Except Failure Unit)} {q : List Call}
    (h : Halted past outcomes result p) (hq : past <:+ q)
    (ends : announced q = announced past ++ lastPhase result)
    {final : Option (Except Failure Checkpoint)} (hfinal : final = none ↔ result = none) :
    Recounted q ⟨.ok slot, outcomes⟩ final := by
  cases h with
  | working h =>
    rw [h.announced] at ends
    exact recounted_unfailed h.goesOn ends (.inl ⟨hfinal.2 rfl, rfl⟩)
  | stopped known phase goesOn =>
    rw [known, List.append_assoc] at ends
    exact recounted_unfailed goesOn ends (.inr ⟨mt hfinal.1 nofun, rfl⟩)
  | failed known phase told other broken =>
    rw [known] at ends
    obtain ⟨call, hcall, hbroken⟩ := broken
    refine ⟨exists_work _, .inr ⟨_, ends, .inr ⟨mt hfinal.1 nofun, .inr rfl⟩⟩, ?_,
      fun _ => ⟨call, hq.subset hcall, hbroken⟩⟩
    exact iff_of_true (by simp [ends, lastPhase]) (.inr ⟨_, told, other⟩)

theorem announced_wait (past : List Call) (w : Wait) (stop : Bool) (l : Ledger) :
    announced (⟨.wait w, stop, l⟩ :: past) = announced past := by
  rw [announced_cons]
  simp [announcement]

theorem finalCheckpoint_follows : p.finalCheckpoint.Follows site Stops
    (fun q _ => past <:+ q ∧ announced q = announced past) past := by
  unfold finalCheckpoint
  have known : ∀ (a : (Request.store (.checkpoint p.settings.id)).Answer) (l : Ledger),
      announced (⟨.store (.checkpoint p.settings.id), a, l⟩ :: past) = announced past :=
      fun a l => by
    rw [announced_cons]
    simp [announcement]
  refine Program.follows_store (fun _ _ => nofun)
    (fun l f => ⟨List.suffix_cons _ past, known _ l⟩) ?_
  intro l (checkpoint : Option Checkpoint) now _
  cases checkpoint with
  | none => exact ⟨List.suffix_cons _ past, known _ l⟩
  | some c => exact ⟨List.suffix_cons _ past, known _ l⟩

theorem followTelling_follows (idle : p.phase = .idle) (limit : Nat) :
    (p.followTelling limit).Follows site Stops (fun q x => Recounted q x.2 x.1) [] := by
  unfold followTelling
  refine Program.follows_bind (Program.follows_imp (driveTelling_follows idle limit) ?_)
  intro q x driven
  obtain ⟨⟨result, p'⟩, course⟩ := x
  refine Program.follows_wait (fun _ _ => nofun) fun l stop => ?_
  have hwait := announced_wait q .reconcilerEnd stop l
  have hsuffix : q <:+ (⟨.wait .reconcilerEnd, stop, l⟩ :: q : List Call) := List.suffix_cons _ q
  cases driven with
  | unloaded known phase broken =>
    refine Program.follows_bind (follows_enter fun q' hq' hknown => ?_)
    rw [hwait, known, phase] at hknown
    obtain ⟨call, hcall, hbroken⟩ := broken
    refine ⟨exists_work _, .inl ⟨⟨_, rfl⟩, hknown⟩, ?_, fun _ =>
      ⟨call, (hsuffix.trans hq').subset hcall, hbroken⟩⟩
    exact iff_of_true (by simp [hknown]) (.inl ⟨_, rfl⟩)
  | looped h =>
    rcases result with _ | f | _
    · exact h.recounted hsuffix (by simp [hwait, lastPhase]) (by simp)
    · have hphase : p'.phase ≠ .failed := by
        cases h with
        | failed known phase told other broken => exact phase
      refine Program.follows_bind (follows_enter fun q' hq' hknown => ?_)
      rw [hwait, if_neg hphase] at hknown
      exact h.recounted (hsuffix.trans hq') hknown (by simp)
    · have hphase : p'.phase ≠ .stopped := by
        cases h with
        | stopped known phase goesOn =>
          rw [phase]
          decide
      refine Program.follows_bind (follows_enter fun q' hq' hknown => ?_)
      rw [hwait, if_neg hphase] at hknown
      refine Program.follows_bind (Program.follows_imp finalCheckpoint_follows ?_)
      intro q'' checkpoint hlast
      exact h.recounted ((hsuffix.trans hq').trans hlast.1) (hlast.2.trans hknown) (by simp)

end RouterHistory.Pipeline

namespace RouterHistory

open Shared

/-- A request that makes no change of phase known and commits no batch of a pipeline, which would
move a checkpoint. What a cycle fetched again it commits without a move. -/
def Request.Aside (r : Request) : Prop :=
  r.Silent ∧ ∀ batch, r = .store (.commit batch) → batch.move = none

/-- What the rule says about each request alone does not depend on the calls before. -/
theorem Program.follows_forget {α : Type} {site : Site} {p : Program α}
    {rule : List Call → Request → Prop} {post : List Call → α → Prop} {past : List Call}
    {allowed : Request → Prop} (h : p.Follows site rule post past)
    (himp : ∀ q r, rule q r → allowed r) (past' : List Call) :
    p.Follows site (fun _ r => allowed r) (fun _ _ => True) past' := by
  induction p generalizing past past' with
  | done a => trivial
  | ask r next ih =>
    exact ⟨himp past r h.1, fun l a l' answered => ih a (h.2 l a l' answered) _⟩

theorem Reconciler.aside_of_rule {r : Reconciler} {past : List Call} {request : Request}
    (h : r.CycleRule past request) : request.Aside := by
  refine ⟨fun phase hphase => ?_, fun batch hbatch => ?_⟩
  · subst hphase
    cases h
  · subst hbatch
    cases h
    rfl

theorem Reconciler.loop_follows {site : Site} (r : Reconciler) (interval : UInt64) (limit : Nat)
    (past : List Call) : (r.loop interval limit).Follows site (fun _ request => request.Aside)
      (fun _ _ => True) past := by
  induction limit generalizing past with
  | zero => trivial
  | succ limit ih =>
    unfold loop
    refine Program.follows_wait ⟨nofun, nofun⟩ fun l stop => ?_
    cases stop with
    | true => trivial
    | false =>
      have inOrder : (r.cycleIn .inOrder).Follows site r.CycleRule _ [] :=
        r.cycleIn_follows .inOrder
      have cycle := Program.follows_forget inOrder (fun _ _ => aside_of_rule)
        (⟨.wait (.cycle interval), false, l⟩ :: past)
      refine Program.follows_bind (Program.follows_imp cycle fun q result _ => ?_)
      cases result with
      | ok report => exact Program.follows_emit ⟨nofun, nofun⟩ fun l => ih _
      | error f => exact ih q

namespace Pipeline

/-- However its requests are answered and whoever else is at work, a run makes known that it
failed, or that it catches up, then the phases of its steps without repetitions, and if it has
ended, that it stops and has stopped, or that it failed. It failed if and only if its checkpoint
could not be loaded or a step failed for another reason than the source, and only if a call failed
in another way than for want of the source. Once stopping is known the pipeline commits nothing,
and the reconciling task, which may still end its cycle, never makes a phase known or moves a
checkpoint. -/
theorem run_phases (site : Site) {p : Pipeline} (idle : p.phase = .idle) (limit : Nat)
    (r : Reconciler) (interval : UInt64) (cycles : Nat) :
    p.follow limit = Prod.fst <$> p.followTelling limit ∧
    (p.followTelling limit).Follows site Stops (fun past x => Recounted past x.2 x.1) [] ∧
    (r.loop interval cycles).Follows site (fun _ request => request.Aside) (fun _ _ => True) [] :=
  ⟨follow_eq_followTelling limit p, followTelling_follows idle limit,
    r.loop_follows interval cycles []⟩

section CutShort

open Reconciliation

/-- A run that stored a batch, caught up and polled once, when the source answered with a failure
of another kind. -/
def cutShort : Option (Except Failure Checkpoint) × Course :=
  (timed.runFailing (List.replicate 13 none ++ [some (.config "bad")]) .empty
    ((Pipeline.ofSettings oneRouter ⟨1, []⟩).followTelling 3)).1

/-- Its phases are known from the outcomes of its steps. -/
theorem phases_cutShort :
    (Pipeline.ofSettings oneRouter ⟨1, []⟩).phase = .idle ∧
    cutShort.2.outcomes = [.ok (.committed 0 1 ⟨1, 0, 0, 0⟩), .ok (.caughtUp 1),
      .error (.config "bad")] ∧
    ∃ past, Recounted past cutShort.2 cutShort.1 ∧
      announced past = [.catchingUp, .live, .failed] := by
  have idle : (Pipeline.ofSettings oneRouter ⟨1, []⟩).phase = .idle := rfl
  have houtcomes : cutShort.2.outcomes = [.ok (.committed 0 1 ⟨1, 0, 0, 0⟩), .ok (.caughtUp 1),
      .error (.config "bad")] := by decide +kernel
  refine ⟨idle, houtcomes, ?_⟩
  have follows := (run_phases timed.fallible idle 3 (.ofSettings oneRouter) 0 0).2.1
  obtain ⟨past, recounted⟩ := ends_runFailing (Program.Follows.ends_alone follows .empty)
    (List.replicate 13 none ++ [some (.config "bad")])
  have recounted : Recounted past cutShort.2 cutShort.1 := recounted
  refine ⟨past, recounted, ?_⟩
  have hworked : worked cutShort.2.outcomes = [.catchingUp, .live] := by
    rw [houtcomes]
    decide +kernel
  have hfailed : .failed ∈ announced past :=
    recounted.failed.2 (.inr ⟨.config "bad", by rw [houtcomes]; simp, rfl⟩)
  have hloaded : ¬ ∃ f, cutShort.2.loaded = .error f := by
    have hslot : cutShort.2.loaded = .ok 0 := by decide +kernel
    rw [hslot]
    simp
  obtain ⟨hunloaded, -⟩ | ⟨ending, hknown, hending⟩ := recounted.phases
  · exact absurd hunloaded hloaded
  · rw [hworked] at hknown
    rw [hknown] at hfailed ⊢
    rcases hending with ⟨-, rfl⟩ | ⟨-, rfl | rfl⟩
    · simp at hfailed
    · simp at hfailed
    · rfl

end CutShort

end Pipeline

end RouterHistory
