import RouterHistory.Proofs.Reconciliation.Recovery

/-!
The slots that a cycle fetches again. They are the ones above the boundary and the genesis slot,
up to the checkpoint, and if there are none the source is not asked for any. It is so unless the
slot to begin above is the highest. Then the position after it wraps around to zero, and all slots
up to the checkpoint are fetched again.
-/
namespace RouterHistory.RescanWindow

open Shared Reconciler

/-- The request is for what the window is computed from, or for slots. -/
def bears : Request → Bool
  | .source .head => true
  | .source (.slots ..) => true
  | .store (.checkpoint _) => true
  | _ => false

def bearing (past : List Call) : List Call := past.filter fun call => bears call.request

def fetches (past : List Call) : List (Slot × Slot) :=
  past.filterMap fun call =>
    match call.request with
    | .source (.slots first last _) => some (first, last)
    | _ => none

theorem fetches_bearing (past : List Call) : fetches (bearing past) = fetches past := by
  unfold fetches bearing
  rw [List.filterMap_filter]
  refine List.filterMap_congr fun call _ => ?_
  cases call with
  | mk request answer ledger =>
    cases request with
    | source call => cases call <;> rfl
    | store call => cases call <;> rfl
    | _ => rfl

theorem bearing_cons {past : List Call} {call : Call} (h : bears call.request) :
    bearing (call :: past) = call :: bearing past := by
  unfold bearing
  rw [List.filter_cons, if_pos h]

theorem mem_bearing {past : List Call} {call : Call} (h : bears call.request) :
    call ∈ bearing past ↔ call ∈ past := by
  unfold bearing
  rw [List.mem_filter]
  exact and_iff_left h

theorem bearing_of_since {past q : List Call} {ok : Request → Prop} (h : Since past ok q)
    (hok : ∀ r, ok r → bears r = false) : bearing q = bearing past :=
  h.filter_eq fun call hcall => hok call.request hcall

theorem bears_of_opening {r : Request} (h : Opening r) : bears r = false := by
  cases h with
  | resolving h => cases h; rfl
  | settles h => cases h <;> rfl
  | _ => rfl

theorem bears_of_noting {r : Request} (h : Noting r) : bears r = false := by
  cases h with
  | looks h => cases h <;> rfl
  | _ => rfl

def rescanFloor (s : Settings) (head : Slot) : Slot :=
  max (Slot.down head s.finalityDepth) s.genesisSlot

/-- The ranges have the slots above `floor` up to `last` and no others. There is at most one
range, and none if there are no such slots. -/
structure Exact (ranges : List (Slot × Slot)) (floor last : Slot) : Prop where
  slots : ∀ slot, (∃ range ∈ ranges, range.1 ≤ slot ∧ slot ≤ range.2) ↔
    floor < slot ∧ slot ≤ last
  once : ranges.length ≤ 1
  quiet : last ≤ floor → ranges = []

structure Rescans (s : Settings) (past : List Call) (result : Except Failure CycleReport) :
    Prop where
  told : ∀ report, result = .ok report → ∃ (head : Slot) (l : Ledger) (stored : Option Checkpoint)
    (l' : Ledger), ⟨.source .head, Except.ok head, l⟩ ∈ past ∧
      ⟨.store (.checkpoint s.id), Except.ok stored, l'⟩ ∈ past
  untold : (∀ (c : Checkpoint) (l : Ledger),
      ⟨.store (.checkpoint s.id), Except.ok (some c), l⟩ ∉ past) → fetches past = []
  exact_iff : ∀ (head : Slot) (l : Ledger) (c : Checkpoint) (l' : Ledger),
    ⟨.source .head, Except.ok head, l⟩ ∈ past →
    ⟨.store (.checkpoint s.id), Except.ok (some c), l'⟩ ∈ past →
      (Exact (fetches past) (rescanFloor s head) c.slot ↔ rescanFloor s head ≠ Slot.top) ∧
      (rescanFloor s head = Slot.top → fetches past = [(0, c.slot)])

section Window

variable {floor start last : Slot} {s : Settings} {result : Except Failure CycleReport}

theorem exact_of_one (hstart : start.toNat = floor.toNat + 1) (hle : start ≤ last) :
    Exact [(start, last)] floor last := by
  rw [UInt64.le_iff_toNat_le] at hle
  constructor
  case slots =>
    intro slot
    simp only [List.mem_singleton, exists_eq_left, UInt64.le_iff_toNat_le, UInt64.lt_iff_toNat_lt]
    omega
  case once => exact Nat.le_refl 1
  case quiet =>
    intro hquiet
    rw [UInt64.le_iff_toNat_le] at hquiet
    omega

theorem exact_of_none (hlast : last ≤ floor) : Exact [] floor last := by
  rw [UInt64.le_iff_toNat_le] at hlast
  constructor
  case slots =>
    intro slot
    simp only [List.not_mem_nil, false_and, exists_false, false_iff, UInt64.le_iff_toNat_le,
      UInt64.lt_iff_toNat_lt]
    omega
  case once => exact Nat.zero_le 1
  case quiet => exact fun _ => rfl

/-- Above the highest slot there is nothing. -/
theorem not_exact_of_wrapped : ¬ Exact [(0, last)] Slot.top last := by
  intro hexact
  have hzero := (hexact.slots 0).1 ⟨(0, last), by simp, UInt64.zero_le, UInt64.zero_le⟩
  exact absurd hzero.1 (by decide)

/-- The position after the highest slot wraps around. -/
theorem rescanStart_eq_zero {boundary genesis : Slot} (h : max boundary genesis = Slot.top) :
    rescanStart boundary genesis = 0 := by
  unfold rescanStart
  rw [h]
  rfl

/-- The ranges that a cycle fetches are exact unless it begins above the highest slot. -/
theorem exact_window_iff {boundary genesis : Slot} {ranges : List (Slot × Slot)}
    (h : ranges = if last < rescanStart boundary genesis then []
      else [(rescanStart boundary genesis, last)]) :
    (Exact ranges (max boundary genesis) last ↔ max boundary genesis ≠ Slot.top) ∧
      (max boundary genesis = Slot.top → ranges = [(0, last)]) := by
  by_cases htop : max boundary genesis = Slot.top
  · have hwrapped : ranges = [(0, last)] := by
      rw [h, rescanStart_eq_zero htop, if_neg UInt64.not_lt_zero]
    rw [htop, hwrapped]
    exact ⟨iff_of_false not_exact_of_wrapped fun hne => hne rfl, fun _ => rfl⟩
  · refine ⟨iff_of_true ?_ htop, fun heq => absurd heq htop⟩
    by_cases hbelow : last < rescanStart boundary genesis
    · rw [h, if_pos hbelow]
      exact exact_of_none (UInt64.not_lt.1 ((lt_rescanStart_iff htop).1 hbelow))
    · rw [h, if_neg hbelow]
      exact exact_of_one (toNat_rescanStart htop) (UInt64.not_lt.1 hbelow)

/-- A cycle that was told of one head and one checkpoint has the window of these. -/
theorem exact_of_told (head : Slot) (c : Checkpoint)
    (heads : ∀ (head' : Slot) (l : Ledger), ⟨.source .head, Except.ok head', l⟩ ∈ past →
      head' = head)
    (checkpoints : ∀ (c' : Checkpoint) (l : Ledger),
      ⟨.store (.checkpoint s.id), Except.ok (some c'), l⟩ ∈ past → c' = c)
    (h : fetches past =
      if c.slot < rescanStart (Slot.down head s.finalityDepth) s.genesisSlot then []
      else [(rescanStart (Slot.down head s.finalityDepth) s.genesisSlot, c.slot)])
    (head' : Slot) (l : Ledger) (c' : Checkpoint) (l' : Ledger)
    (hhead : ⟨.source .head, Except.ok head', l⟩ ∈ past)
    (hcheckpoint : ⟨.store (.checkpoint s.id), Except.ok (some c'), l'⟩ ∈ past) :
    (Exact (fetches past) (rescanFloor s head') c'.slot ↔ rescanFloor s head' ≠ Slot.top) ∧
      (rescanFloor s head' = Slot.top → fetches past = [(0, c'.slot)]) := by
  obtain rfl := heads head' l hhead
  obtain rfl := checkpoints c' l' hcheckpoint
  exact exact_window_iff h

theorem rescans_of_reopens {head : Slot} {q : List Call} (headed : Headed head past)
    (h : Reopens (ofSettings s) s.id
      (rescanStart (Slot.down head s.finalityDepth) s.genesisSlot) past q result) :
    Rescans s (bearing q) result := by
  obtain ⟨l, headed⟩ := headed
  have hpast : bearing past = [⟨.source .head, Except.ok head, l⟩] :=
    bearing_of_since headed fun _ => bears_of_opening
  cases h with
  | unread f l' =>
    rw [bearing_cons rfl, hpast]
    exact ⟨nofun, fun _ => rfl, by simp⟩
  | fresh l' report =>
    rw [bearing_cons rfl, hpast]
    exact ⟨fun _ _ => ⟨head, l, none, l', by simp, by simp⟩, fun _ => rfl, by simp⟩
  | @closed c below l' report =>
    rw [bearing_cons rfl, hpast]
    refine ⟨fun _ _ => ⟨head, l, some c, l', by simp, by simp⟩, fun _ => rfl, ?_⟩
    refine exact_of_told head c (by simp +contextual) (by simp +contextual) ?_
    rw [if_pos below]
    rfl
  | @opened c above l' l'' reply q since result =>
    rw [bearing_of_since since fun _ => bears_of_noting, bearing_cons rfl, bearing_cons rfl,
      hpast]
    refine ⟨fun _ _ => ⟨head, l, some c, l', by simp, by simp⟩, fun huntold => ?_, ?_⟩
    · exact absurd (by simp) (huntold c l')
    · refine exact_of_told head c (by simp +contextual) (by simp +contextual) ?_
      rw [if_neg above]
      rfl

theorem rescans_of_course (h : Course (ofSettings s) past result) :
    Rescans s (bearing past) result := by
  cases h with
  | headless f l => exact ⟨nofun, fun _ => rfl, by simp [bearing, bears]⟩
  | @broken head _ headed f =>
    obtain ⟨l, headed⟩ := headed
    rw [bearing_of_since headed fun _ => bears_of_opening]
    exact ⟨nofun, fun _ => rfl, by simp [bearing, bears]⟩
  | unset headed rescans report => cases rescans
  | reopens headed rescans reopens =>
    cases rescans
    exact rescans_of_reopens headed reopens

/-- Only the calls that matter do. -/
theorem Rescans.of_bearing (h : Rescans s (bearing past) result) : Rescans s past result := by
  have hhead (head : Slot) (l : Ledger) :
      (⟨.source .head, Except.ok head, l⟩ : Call) ∈ bearing past ↔ _ := mem_bearing rfl
  have hcheckpoint (stored : Option Checkpoint) (l : Ledger) :
      (⟨.store (.checkpoint s.id), Except.ok stored, l⟩ : Call) ∈ bearing past ↔ _ :=
    mem_bearing rfl
  obtain ⟨told, untold, exact_iff⟩ := h
  simp only [hhead, hcheckpoint, fetches_bearing] at told untold exact_iff
  exact ⟨told, untold, exact_iff⟩

end Window

/-- Whatever it is told and whoever else is at work, a cycle that was told of a head and of a
checkpoint fetches exactly the slots above the boundary and the genesis slot up to the checkpoint
again, unless one of the two is the highest slot. Then it fetches all slots from zero. -/
theorem rescan_exact_iff (site : Site) (s : Settings) (turns : Turns) :
    ((ofSettings s).cycleIn turns).Follows site (fun _ _ => True) (Rescans s) [] :=
  Program.follows_imp (Program.Follows.unruled (cycleIn_course turns)) fun _ _ h =>
    (rescans_of_course h.1).of_bearing

/-- The genesis slot is three, and nothing below the head may be reorganised. -/
def undelayed : Settings :=
  { Settings.default with
    id := "p"
    genesisSlot := 3
    finalityDepth := 0
    classifier := ⟨["11111111111111111111111111111111"], 0, [1]⟩ }

def early : Transaction :=
  ⟨soundSignature, 2, some 1700000002, none,
    [⟨"11111111111111111111111111111111", "2"⟩], []⟩

def exhausted : Host where
  source
    | .head => Slot.top
    | .slots _ _ _ => [⟨2, some "b2", none, some 1700000002, [early]⟩]
    | .resolve _ => .absent
  now := 0

def started : Ledger := Ledger.empty.afterCalls 0 [.start undelayed.id undelayed.genesisSlot]

/-- There is no slot above the boundary, but the slots from zero are fetched and the transaction
below the genesis slot is recorded. -/
theorem highest_boundary_refetches_all :
    undelayed.flaw? = none ∧ started.Attained ∧
    started.checkpoints[undelayed.id]?.map Checkpoint.slot = some 3 ∧
    rescanFloor undelayed (exhausted.source .head) = Slot.top ∧
    fetches (exhausted.calls started (ofSettings undelayed).cycle) = [(0, 3)] ∧
    ¬ Exact (fetches (exhausted.calls started (ofSettings undelayed).cycle))
      (rescanFloor undelayed (exhausted.source .head)) 3 ∧
    (exhausted.around.run started (ofSettings undelayed).cycle).2.marks[early.signature]? =
      some 2 := by
  have hfetched : fetches (exhausted.calls started (ofSettings undelayed).cycle) = [(0, 3)] := by
    decide +kernel
  have hfloor : rescanFloor undelayed (exhausted.source .head) = Slot.top := by decide +kernel
  refine ⟨by decide +kernel, Ledger.Attained.empty.afterCalls 0 _, by decide +kernel, hfloor,
    hfetched, ?_, by decide +kernel⟩
  rw [hfetched, hfloor]
  exact not_exact_of_wrapped

end RouterHistory.RescanWindow
