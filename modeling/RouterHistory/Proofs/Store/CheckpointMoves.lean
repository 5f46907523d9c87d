import RouterHistory.Proofs.Store.Attained

/-!
The moves of a checkpoint. A store answers the calls of all writers one after the other, so any
number of writers is one list of calls. The moves of one pipeline that succeed follow one another
from the slot where its checkpoint was created: each begins where the one before it ended, and all
others leave the checkpoint as it is. So no slot is passed twice, and none is left out.
-/
namespace RouterHistory

structure TimedCall where
  now : Int
  call : StoreCall

namespace StoreCall

def move? : StoreCall → Option Move
  | .advance m => some m
  | .commit c => c.move
  | _ => none

/-- The slot at which a call creates the checkpoint of a pipeline, unless there is one. -/
def creates? (id : String) : StoreCall → Option Slot
  | .start id' genesis => if id' = id then some genesis else none
  | _ => none

def Concerns (id : String) (call : StoreCall) : Prop :=
  call.creates? id ≠ none ∨ ∃ m ∈ call.move?, m.pipelineId = id

theorem creates?_of_move? {call : StoreCall} {m : Move} (h : call.move? = some m) (id : String) :
    call.creates? id = none := by
  cases call with
  | start id' genesis => cases h
  | _ => rfl

end StoreCall

namespace Ledger

def after : Ledger → List TimedCall → Ledger
  | l, [] => l
  | l, c :: rest => after (l.answer c.now c.call).2 rest

theorem after_append (l : Ledger) (calls : List TimedCall) (c : TimedCall) :
    l.after (calls ++ [c]) = ((l.after calls).answer c.now c.call).2 := by
  induction calls generalizing l with
  | nil => rfl
  | cons first rest ih => exact ih _

/-- The move of a pipeline's checkpoint that a call makes, if it succeeds. -/
def made? (l : Ledger) (id : String) (c : TimedCall) : Option Move :=
  match (l.answer c.now c.call).1 with
  | .ok _ => c.call.move?.filter (·.pipelineId = id)
  | .error _ => none

def moves (id : String) : Ledger → List TimedCall → List Move
  | _, [] => []
  | l, c :: rest => (l.made? id c).toList ++ moves id (l.answer c.now c.call).2 rest

def created? (id : String) (calls : List TimedCall) : Option Slot :=
  calls.findSome? fun c => c.call.creates? id

end Ledger

/-- The moves lead from one slot to another: each begins where the one before it ended, and goes
forward. -/
inductive Consecutive : Slot → List Move → Slot → Prop
  | nil (slot : Slot) : Consecutive slot [] slot
  | cons {m : Move} {rest : List Move} {last : Slot} (forward : m.expected < m.target)
      (follow : Consecutive m.target rest last) : Consecutive m.expected (m :: rest) last

namespace Consecutive

variable {first last : Slot} {moves : List Move}

/-- Each move passes at least one slot. -/
theorem length_le (h : Consecutive first moves last) :
    first.toNat + moves.length ≤ last.toNat := by
  induction h with
  | nil slot => simp
  | @cons m rest last forward follow ih =>
    have hforward := UInt64.lt_iff_toNat_lt.1 forward
    simp only [List.length_cons]
    omega

theorem le (h : Consecutive first moves last) : first ≤ last := by
  have hlength := h.length_le
  rw [UInt64.le_iff_toNat_le]
  omega

theorem le_expected (h : Consecutive first moves last) : ∀ m ∈ moves, first ≤ m.expected := by
  induction h with
  | nil slot => simp
  | @cons m rest last forward follow ih =>
    intro m' hm'
    rcases List.mem_cons.1 hm' with rfl | hrest
    · exact UInt64.le_refl _
    · exact UInt64.le_trans (UInt64.le_of_lt forward) (ih m' hrest)

/-- A slot between the ends is passed by one of the moves, and no other slot is. -/
theorem passed_iff (h : Consecutive first moves last) (slot : Slot) :
    first < slot ∧ slot ≤ last ↔ ∃ m ∈ moves, m.expected < slot ∧ slot ≤ m.target := by
  induction h with
  | nil s =>
    simp only [List.not_mem_nil, false_and, exists_false, iff_false, not_and]
    intro hlt hle
    exact UInt64.not_le.2 hlt hle
  | @cons m rest last forward follow ih =>
    rw [List.exists_mem_cons_iff, ← ih]
    have hle := UInt64.le_iff_toNat_le.1 follow.le
    have hforward := UInt64.lt_iff_toNat_lt.1 forward
    simp only [UInt64.lt_iff_toNat_lt, UInt64.le_iff_toNat_le]
    omega

/-- No two moves pass the same slot. -/
theorem apart (h : Consecutive first moves last) :
    moves.Pairwise fun m m' => m.target ≤ m'.expected := by
  induction h with
  | nil slot => exact List.Pairwise.nil
  | cons forward follow ih => exact List.Pairwise.cons follow.le_expected ih

/-- No two moves begin at the same slot. -/
theorem nodup_expected (h : Consecutive first moves last) : (moves.map Move.expected).Nodup := by
  induction h with
  | nil slot => exact List.nodup_nil
  | @cons m rest last forward follow ih =>
    rw [List.map_cons, List.nodup_cons]
    refine ⟨fun hmem => ?_, ih⟩
    obtain ⟨m', hm', hsame⟩ := List.mem_map.1 hmem
    exact UInt64.not_le.2 forward (hsame ▸ follow.le_expected m' hm')

end Consecutive

namespace Ledger

variable {l : Ledger} {id : String}

theorem getElem?_insert_checkpoint (cs : Checkpoints) (c : Checkpoint) (id' : String) :
    (cs.insert id' c)[id]? = if id' = id then some c else cs[id]? := by
  rw [Std.ExtTreeMap.getElem?_insert]
  simp only [Std.compare_eq_iff_eq]

theorem getElem?_start (cs : Checkpoints) (id' : String) (genesis : Slot) (now : Int) :
    (cs.start id' genesis now).2[id]? =
      if id' = id then some (cs[id]?.getD (.genesis id genesis now)) else cs[id]? := by
  unfold Checkpoints.start
  by_cases hid : id' = id
  · subst hid
    cases hc : cs[id']? with
    | none => simp
    | some c => simp [hc]
  · rw [if_neg hid]
    cases hc : cs[id']? with
    | none => exact (getElem?_insert_checkpoint cs _ id').trans (if_neg hid)
    | some c => rfl

/-- A call whose move is not possible fails and changes nothing. -/
theorem answer_of_after_error {now : Int} {call : StoreCall} {m : Move} {f : Failure}
    (hmove : call.move? = some m) (hafter : l.checkpoints.after m now = .error f) :
    (l.answer now call).1 = .error f ∧ (l.answer now call).2 = l := by
  cases call with
  | advance m' =>
    cases hmove
    have hkept : l.checkpoints.advance m now = (.error f, l.checkpoints) := by
      unfold Checkpoints.advance
      rw [hafter]
    exact ⟨congrArg Prod.fst hkept, congrArg (fun p => { l with checkpoints := p.2 }) hkept⟩
  | commit batch =>
    have hmove : batch.move = some m := hmove
    have hcheck : l.checkMove now batch.move = .error f := by
      rw [hmove]
      exact congrArg (Except.map some) hafter
    have hkept := l.commit_eq_of_error hcheck
    exact ⟨congrArg Prod.fst hkept, congrArg Prod.snd hkept⟩
  | _ => cases hmove

/-- A call whose move is possible succeeds and stores where it leads. -/
theorem answer_of_after_ok (h : l.Regular) {now : Int} {call : StoreCall} {m : Move}
    {next : Checkpoint} (hmove : call.move? = some m)
    (hafter : l.checkpoints.after m now = .ok next) :
    (∃ a, (l.answer now call).1 = .ok a) ∧
      (l.answer now call).2.checkpoints = l.checkpoints.insert m.pipelineId next := by
  cases call with
  | advance m' =>
    cases hmove
    have hadvanced : l.checkpoints.advance m now =
        (.ok next, l.checkpoints.insert m.pipelineId next) := by
      unfold Checkpoints.advance
      rw [hafter]
    exact ⟨⟨next, congrArg Prod.fst hadvanced⟩, congrArg Prod.snd hadvanced⟩
  | commit batch =>
    have hmove : batch.move = some m := hmove
    have hcheck : l.checkMove now batch.move = .ok (some next) := by
      rw [hmove]
      exact congrArg (Except.map some) hafter
    constructor
    · obtain ⟨tally, hcommit⟩ := l.exists_receipt hcheck
      exact ⟨_, congrArg Prod.fst hcommit⟩
    · rw [← (h.of_after hafter).1]
      exact l.checkpoints_commit hcheck
  | _ => cases hmove

/-- A call without a move leaves a checkpoint as it is, or creates it. -/
theorem checkpoint_answer_of_move?_none {now : Int} {call : StoreCall} (hmove : call.move? = none)
    (id : String) : (l.answer now call).2.checkpoints[id]? =
      l.checkpoints[id]?.or ((call.creates? id).map (.genesis id · now)) := by
  cases call with
  | start id' genesis =>
    refine (getElem?_start l.checkpoints id' genesis now).trans ?_
    by_cases hid : id' = id
    · cases hc : l.checkpoints[id]? <;> simp [StoreCall.creates?, hid]
    · simp [StoreCall.creates?, hid]
  | advance m => cases hmove
  | upsert e =>
    change (l.upsert e).2.checkpoints[id]? = _
    simp [StoreCall.creates?]
  | upsertAll entries =>
    change (l.upsertAll entries).2.checkpoints[id]? = _
    simp [upsertAll_snd, StoreCall.creates?]
  | commit batch =>
    have hcheck : l.checkMove now batch.move = .ok none := congrArg (l.checkMove now) hmove
    have hkept : (l.commit now batch).2.checkpoints = l.checkpoints := by
      rw [l.commit_of_ok hcheck]
      exact l.checkpoints_written batch.entries
    change (l.commit now batch).2.checkpoints[id]? = _
    simp [hkept, StoreCall.creates?]
  | moveMark S slot =>
    change (l.moveMark S slot).checkpoints[id]? = _
    simp [StoreCall.creates?]
  | orphan S slot =>
    have hkept : (l.orphan S slot).2.checkpoints = l.checkpoints := by
      unfold orphan
      split <;> rfl
    change (l.orphan S slot).2.checkpoints[id]? = _
    simp [hkept, StoreCall.creates?]
  | _ => exact Option.or_none.symm

/-- A possible move leads on from the stored checkpoint. -/
theorem of_after_ok {now : Int} {m : Move} {next : Checkpoint}
    (hafter : l.checkpoints.after m now = .ok next) :
    ∃ c, l.checkpoints[m.pipelineId]? = some c ∧ c.slot = m.expected ∧ m.expected < m.target ∧
      next = { c with slot := m.target, revision := c.revision + 1, updatedAt := now } := by
  have hcheck : l.checkMove now (some m) = .ok (some next) := congrArg (Except.map some) hafter
  obtain ⟨c, hc, hslot, hforward, hnext⟩ := l.checkMove_eq_ok.1 hcheck
  exact ⟨c, hc, hslot, hforward, Option.some.inj hnext⟩

/-- A move that succeeds leads on from the stored checkpoint. -/
theorem checkpoint_answer_of_made (h : l.Regular) {c : TimedCall} {m : Move}
    (hmade : l.made? id c = some m) :
    ∃ old, l.checkpoints[id]? = some old ∧ old.slot = m.expected ∧ m.expected < m.target ∧
      (l.answer c.now c.call).2.checkpoints[id]? =
        some { old with slot := m.target, revision := old.revision + 1, updatedAt := c.now } := by
  unfold made? at hmade
  split at hmade
  · next a hok =>
    obtain ⟨hmove, hid⟩ := Option.filter_eq_some_iff.1 hmade
    have hid : m.pipelineId = id := of_decide_eq_true hid
    subst hid
    cases hafter : l.checkpoints.after m c.now with
    | error f =>
      rw [(answer_of_after_error hmove hafter).1] at hok
      cases hok
    | ok next =>
      obtain ⟨old, hold, hslot, hforward, rfl⟩ := of_after_ok hafter
      refine ⟨old, hold, hslot, hforward, ?_⟩
      rw [(answer_of_after_ok h hmove hafter).2, getElem?_insert_checkpoint, if_pos rfl]
  · cases hmade

/-- Without a move of its own a checkpoint stays as it is, or is created. -/
theorem checkpoint_answer_of_made_none (h : l.Regular) {c : TimedCall}
    (hmade : l.made? id c = none) : (l.answer c.now c.call).2.checkpoints[id]? =
      l.checkpoints[id]?.or ((c.call.creates? id).map (.genesis id · c.now)) := by
  cases hmove : c.call.move? with
  | none => exact checkpoint_answer_of_move?_none hmove id
  | some m =>
    rw [StoreCall.creates?_of_move? hmove, Option.map_none, Option.or_none]
    cases hafter : l.checkpoints.after m c.now with
    | error f => rw [(answer_of_after_error hmove hafter).2]
    | ok next =>
      obtain ⟨⟨a, hok⟩, hstored⟩ := answer_of_after_ok h hmove hafter
      have hid : m.pipelineId ≠ id := by
        rintro rfl
        unfold made? at hmade
        rw [hok, hmove] at hmade
        simp at hmade
      rw [hstored, getElem?_insert_checkpoint, if_neg hid]

theorem made?_of_error {c : TimedCall} {f : Failure} (h : (l.answer c.now c.call).1 = .error f) :
    l.made? id c = none := by
  unfold made?
  rw [h]

/-- A call that fails leaves every checkpoint as it is. -/
theorem checkpoint_answer_of_error (h : l.Regular) {c : TimedCall} {f : Failure}
    (hfails : (l.answer c.now c.call).1 = .error f) (id : String) :
    (l.answer c.now c.call).2.checkpoints[id]? = l.checkpoints[id]? := by
  have hmade : l.made? id c = none := made?_of_error hfails
  have hkept := checkpoint_answer_of_made_none h hmade
  have hcreates : c.call.creates? id = none := by
    obtain ⟨now, call⟩ := c
    cases call with
    | start id' genesis => cases hfails
    | _ => rfl
  rwa [hcreates, Option.map_none, Option.or_none] at hkept

/-- So does a call that is about other pipelines. -/
theorem checkpoint_answer_of_not_concerns (h : l.Regular) {c : TimedCall}
    (hother : ¬ c.call.Concerns id) :
    (l.answer c.now c.call).2.checkpoints[id]? = l.checkpoints[id]? := by
  have hcreates : c.call.creates? id = none := not_not.1 fun hne => hother (.inl hne)
  have hmade : l.made? id c = none := by
    rw [Option.eq_none_iff_forall_ne_some]
    intro m hm
    unfold made? at hm
    split at hm
    · obtain ⟨hmove, hid⟩ := Option.filter_eq_some_iff.1 hm
      exact hother (.inr ⟨m, hmove, of_decide_eq_true hid⟩)
    · cases hm
  have hkept := checkpoint_answer_of_made_none h hmade
  rwa [hcreates, Option.map_none, Option.or_none] at hkept

end Ledger

namespace Ledger

variable {l : Ledger} {id : String}

theorem Regular.after (h : l.Regular) (calls : List TimedCall) : (l.after calls).Regular := by
  induction calls generalizing l with
  | nil => exact h
  | cons c rest ih => exact ih (h.answer c.now (fun _ _ => trivial) fun _ _ => trivial)

theorem moves_cons_of_made {c : TimedCall} {m : Move} (h : l.made? id c = some m)
    (rest : List TimedCall) :
    l.moves id (c :: rest) = m :: moves id (l.answer c.now c.call).2 rest := by
  rw [moves, h]
  rfl

theorem moves_cons_of_made_none {c : TimedCall} (h : l.made? id c = none)
    (rest : List TimedCall) :
    l.moves id (c :: rest) = moves id (l.answer c.now c.call).2 rest := by
  rw [moves, h]
  rfl

/-- The moves of a checkpoint that exists lead from its slot to the one where it ends up, and are
counted. -/
theorem consecutive_moves (h : l.Regular) {c : Checkpoint} (hc : l.checkpoints[id]? = some c)
    (calls : List TimedCall) :
    ∃ c', (l.after calls).checkpoints[id]? = some c' ∧
      Consecutive c.slot (l.moves id calls) c'.slot ∧
      c'.revision = c.revision + UInt64.ofNat (l.moves id calls).length := by
  induction calls generalizing l c with
  | nil => exact ⟨c, hc, .nil c.slot, (UInt64.add_zero _).symm⟩
  | cons call rest ih =>
    have hnext : (l.answer call.now call.call).2.Regular :=
      h.answer call.now (fun _ _ => trivial) fun _ _ => trivial
    cases hmade : l.made? id call with
    | none =>
      have hkept := checkpoint_answer_of_made_none h hmade
      rw [hc, Option.some_or] at hkept
      rw [moves_cons_of_made_none hmade]
      exact ih hnext hkept
    | some m =>
      obtain ⟨old, hold, hslot, hforward, hstored⟩ := checkpoint_answer_of_made h hmade
      cases hold.symm.trans hc
      obtain ⟨c', hc', hfollow, hrevision⟩ := ih hnext hstored
      rw [moves_cons_of_made hmade]
      refine ⟨c', hc', ?_, ?_⟩
      · rw [hslot]
        exact .cons hforward hfollow
      · rw [hrevision, List.length_cons, UInt64.ofNat_add, UInt64.add_assoc, UInt64.add_comm 1]
        rfl

/-- Before a checkpoint is created none of its moves succeeds. -/
theorem moves_of_getElem?_eq_none (h : l.Regular) (hc : l.checkpoints[id]? = none)
    (calls : List TimedCall) :
    match created? id calls with
    | none => (l.after calls).checkpoints[id]? = none ∧ l.moves id calls = []
    | some first => ∃ c, (l.after calls).checkpoints[id]? = some c ∧
        Consecutive first (l.moves id calls) c.slot ∧
        c.revision = UInt64.ofNat (l.moves id calls).length := by
  induction calls generalizing l with
  | nil => exact ⟨hc, rfl⟩
  | cons call rest ih =>
    have hnext : (l.answer call.now call.call).2.Regular :=
      h.answer call.now (fun _ _ => trivial) fun _ _ => trivial
    have hmade : l.made? id call = none := by
      rw [Option.eq_none_iff_forall_ne_some]
      intro m hm
      obtain ⟨old, hold, -⟩ := checkpoint_answer_of_made h hm
      rw [hc] at hold
      cases hold
    have hkept := checkpoint_answer_of_made_none h hmade
    rw [hc, Option.none_or] at hkept
    rw [moves_cons_of_made_none hmade]
    cases hcreates : call.call.creates? id with
    | none =>
      rw [hcreates, Option.map_none] at hkept
      have hcreated : created? id (call :: rest) = created? id rest := by
        unfold created?
        rw [List.findSome?_cons_of_isNone (by rw [hcreates]; rfl)]
      rw [hcreated]
      exact ih hnext hkept
    | some first =>
      rw [hcreates, Option.map_some] at hkept
      have hcreated : created? id (call :: rest) = some first := by
        unfold created?
        rw [List.findSome?_cons, hcreates]
      rw [hcreated]
      obtain ⟨c, hstored, hfollow, hrevision⟩ := consecutive_moves hnext hkept rest
      exact ⟨c, hstored, hfollow, hrevision.trans (UInt64.zero_add _)⟩

end Ledger

/-- What a checkpoint has behind it: moves that lead from the slot where it was created to the one
where it is, and as many revisions. -/
structure Checkpoint.Tiled (first : Slot) (moves : List Move) (c : Checkpoint) : Prop where
  consecutive : Consecutive first moves c.slot
  /-- A slot after the first is passed by a move exactly if the checkpoint has come that far. -/
  passed : ∀ slot, first < slot ∧ slot ≤ c.slot ↔ ∃ m ∈ moves, m.expected < slot ∧ slot ≤ m.target
  /-- No slot is passed by two moves. -/
  apart : moves.Pairwise fun m m' => m.target ≤ m'.expected
  /-- No expected slot is the right one twice. -/
  once : (moves.map Move.expected).Nodup
  revision : c.revision.toNat = moves.length
  bounded : c.revision.toNat ≤ c.slot.toNat - first.toNat
  /-- So one more move can be counted. -/
  room : ∀ target, c.slot < target → (c.revision + 1).toNat = c.revision.toNat + 1

theorem Consecutive.tiled {first : Slot} {moves : List Move} {c : Checkpoint}
    (h : Consecutive first moves c.slot) (hrevision : c.revision = UInt64.ofNat moves.length) :
    c.Tiled first moves := by
  have hlength := h.length_le
  have hslot := c.slot.toNat_lt
  have hcount : c.revision.toNat = moves.length := by
    rw [hrevision, UInt64.toNat_ofNat', Nat.mod_eq_of_lt (by omega)]
  refine ⟨h, h.passed_iff, h.apart, h.nodup_expected, hcount, by omega, fun target htarget => ?_⟩
  have htarget := UInt64.lt_iff_toNat_lt.1 htarget
  have hbound := target.toNat_lt
  rw [UInt64.toNat_add, UInt64.toNat_one, Nat.mod_eq_of_lt (by omega)]

/-- Any number of writers call an empty store, whose answers come one after the other. The moves
of a pipeline's checkpoint that succeed tile the slots from where it was first created to where it
is, and its revision counts them. A further call that fails or is about other pipelines leaves it
as it is, and creating it again does not change it. -/
theorem moves_tile (calls : List TimedCall) (id : String) :
    (match Ledger.created? id calls with
      | none =>
          (Ledger.empty.after calls).checkpoints[id]? = none ∧ Ledger.empty.moves id calls = []
      | some first => ∃ c, (Ledger.empty.after calls).checkpoints[id]? = some c ∧
          c.Tiled first (Ledger.empty.moves id calls)) ∧
    (∀ next : TimedCall,
      (∃ f, ((Ledger.empty.after calls).answer next.now next.call).1 = .error f) ∨
          ¬ next.call.Concerns id →
        (Ledger.empty.after (calls ++ [next])).checkpoints[id]? =
          (Ledger.empty.after calls).checkpoints[id]?) ∧
    ∀ (c : Checkpoint) (now : Int) (genesis : Slot),
      (Ledger.empty.after calls).checkpoints[id]? = some c →
        (Ledger.empty.after (calls ++ [⟨now, .start id genesis⟩])).checkpoints[id]? = some c := by
  have hregular : (Ledger.empty.after calls).Regular :=
    Ledger.Regular.after Ledger.holds_empty calls
  have hnone : Ledger.empty.checkpoints[id]? = none := Std.ExtTreeMap.getElem?_empty ..
  have hfrom := Ledger.moves_of_getElem?_eq_none Ledger.holds_empty hnone calls
  refine ⟨?_, fun next hnext => ?_, fun c now genesis hc => ?_⟩
  · cases hcreated : Ledger.created? id calls with
    | none =>
      rw [hcreated] at hfrom
      exact hfrom
    | some first =>
      rw [hcreated] at hfrom
      obtain ⟨c, hstored, hfollow, hrevision⟩ := hfrom
      exact ⟨c, hstored, hfollow.tiled hrevision⟩
  · rw [Ledger.after_append]
    rcases hnext with ⟨f, hfails⟩ | hother
    · exact Ledger.checkpoint_answer_of_error hregular hfails id
    · exact Ledger.checkpoint_answer_of_not_concerns hregular hother
  · rw [Ledger.after_append]
    have hmove : (StoreCall.start id genesis).move? = none := rfl
    refine (Ledger.checkpoint_answer_of_move?_none hmove id).trans ?_
    rw [hc, Option.some_or]

/-- Two writers of a pipeline race from the same view, and another pipeline moves in between. -/
def race : List TimedCall :=
  [⟨1, .start "p" 5⟩, ⟨1, .start "p" 9⟩, ⟨2, .advance ⟨"p", 5, 9⟩⟩,
    ⟨2, .commit ⟨[], [], some ⟨"p", 5, 12⟩⟩⟩, ⟨3, .start "q" 5⟩, ⟨3, .advance ⟨"q", 5, 6⟩⟩,
    ⟨4, .commit ⟨[], [], some ⟨"p", 9, 11⟩⟩⟩]

theorem race_moves_tile :
    (∃ c, (Ledger.empty.after race).checkpoints["p"]? = some c ∧
      c.Tiled 5 [⟨"p", 5, 9⟩, ⟨"p", 9, 11⟩]) ∧
    (Ledger.empty.after (race ++ [⟨5, .advance ⟨"p", 9, 12⟩⟩])).checkpoints["p"]? =
      (Ledger.empty.after race).checkpoints["p"]? ∧
    (Ledger.empty.after (race ++ [⟨5, .start "p" 0⟩])).checkpoints["p"]? =
      some ⟨"p", 11, 2, 4⟩ := by
  have hmoves := moves_tile race "p"
  have hall : Ledger.empty.moves "p" race = [⟨"p", 5, 9⟩, ⟨"p", 9, 11⟩] := by decide +kernel
  have hcreated : Ledger.created? "p" race = some 5 := by decide
  rw [hcreated, hall] at hmoves
  obtain ⟨htiled, hkept, hagain⟩ := hmoves
  refine ⟨htiled, hkept ⟨5, .advance ⟨"p", 9, 12⟩⟩ (.inl ⟨.staleCheckpoint 11 12, ?_⟩),
    hagain _ 5 0 ?_⟩
  · decide +kernel
  · decide +kernel

end RouterHistory
