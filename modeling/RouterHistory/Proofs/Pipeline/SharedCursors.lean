import Mathlib.Logic.Function.Basic
import RouterHistory.Pipeline.Step
import RouterHistory.Proofs.Store.CheckpointMoves

/-!
Any number of cursors of one pipeline over one store. Between two calls of one cursor all others
may go on, new ones may join, and anybody may call the store. A cursor is also told checkpoints
that commits have returned, and made to forget its view. Whatever happens, no view is ahead of the
stored checkpoint, and a view that is behind costs one call and is dropped.
-/
namespace RouterHistory

def Ledger.Reached (id : String) (l : Ledger) (slot : Slot) : Prop :=
  ∃ cp, l.checkpoints[id]? = some cp ∧ slot ≤ cp.slot

namespace SharedCursors

inductive Operation where
  | load
  | reload
  | advance (target : Slot)

/-- An operation comes to the slot of the checkpoint, and to the cursor after it. -/
def Operation.program (c : Cursor) : Operation → Program (Except Failure Slot × Cursor)
  | .load => c.load
  | .reload => c.reload
  | .advance target => c.advance target >>= fun x => .done (x.1.map Checkpoint.slot, x.2)

structure Asked where
  now : Int
  call : StoreCall
  before : Ledger

def Asked.after (a : Asked) : Ledger := (a.before.answer a.now a.call).2

/-- A cursor between two operations, or as it was when an operation began; with the calls that
the operation has made, the latest first, and what it has left to do. -/
inductive Holder where
  | resting (c : Cursor)
  | working (c : Cursor) (op : Operation) (past : List Asked)
      (rest : Program (Except Failure Slot × Cursor))

def Holder.cursor : Holder → Cursor
  | .resting c => c
  | .working c _ _ _ => c

def Holder.goOn (l : Ledger) (now : Int) : Holder → Ledger × Holder
  | .working c op past (.ask (.store call) next) =>
      ((l.answer now call).2, .working c op (⟨now, call, l⟩ :: past) (next (l.answer now call).1))
  | .working _ _ _ (.done (_, c)) => (l, .resting c)
  | h => (l, h)

structure State where
  ledger : Ledger
  /-- The checkpoints of the pipeline that commits have returned. -/
  returned : List Checkpoint
  holders : Nat → Option Holder

inductive Event where
  /-- A new cursor joins at a place. -/
  | opens (i : Nat) (genesis : Slot)
  | begins (i : Nat) (op : Operation)
  | goesOn (i : Nat) (now : Int)
  /-- A cursor is told where a commit has moved the checkpoint. -/
  | told (i : Nat) (cp : Checkpoint)
  | forgets (i : Nat)
  /-- Anybody calls the store. -/
  | call (now : Int) (call : StoreCall)

def returnedBy (id : String) (l : Ledger) (now : Int) : StoreCall → List Checkpoint
  | .commit batch =>
      match (l.commit now batch).1 with
      | .ok receipt => receipt.checkpoint.toList.filter (·.pipelineId = id)
      | .error _ => []
  | _ => []

namespace State

def idle (l : Ledger) : State := ⟨l, [], fun _ => none⟩

def hold (σ : State) (i : Nat) (h : Holder) : State :=
  { σ with holders := Function.update σ.holders i (some h) }

def play (id : String) (σ : State) : Event → State
  | .opens i genesis =>
      match σ.holders i with
      | none => σ.hold i (.resting (.start id genesis))
      | some _ => σ
  | .begins i op =>
      match σ.holders i with
      | some (.resting c) => σ.hold i (.working c op [] (op.program c))
      | _ => σ
  | .goesOn i now =>
      match σ.holders i with
      | some h => { σ with ledger := (h.goOn σ.ledger now).1 }.hold i (h.goOn σ.ledger now).2
      | none => σ
  | .told i cp =>
      match σ.holders i with
      | some (.resting c) => if cp ∈ σ.returned then
          σ.hold i (.resting (c.placedAt cp.slot)) else σ
      | _ => σ
  | .forgets i =>
      match σ.holders i with
      | some (.resting c) => σ.hold i (.resting c.forget)
      | _ => σ
  | .call now call =>
      { σ with
        ledger := (σ.ledger.answer now call).2
        returned := returnedBy id σ.ledger now call ++ σ.returned }

def playAll (id : String) (σ : State) (events : List Event) : State :=
  events.foldl (play id) σ

end State

/-- The call reads the checkpoint and finds it at a slot. It changes nothing, or it creates the
checkpoint at genesis. -/
structure Asked.Reads (id : String) (c : Cursor) (slot : Slot) (a : Asked) : Prop where
  asks : a.call = .start id c.genesis
  found : ∃ cp, a.after.checkpoints[id]? = some cp ∧ cp.slot = slot
  creates : a.after = a.before ∨ a.before.checkpoints[id]? = none ∧ slot = c.genesis ∧
    a.after = { a.before with
      checkpoints := a.before.checkpoints.insert id (.genesis id c.genesis a.now) }

inductive Viewed (id : String) (c : Cursor) (view : Slot) : List Asked → Prop
  | kept (own : c.current = some view) : Viewed id c view []
  | read {a : Asked} (empty : c.current = none) (reads : a.Reads id c view) : Viewed id c view [a]

/-- The call of an advance, which finds the checkpoint `stored`. -/
structure Asked.Compares (id : String) (c : Cursor) (target view : Slot) (stored : Checkpoint)
    (x : Except Failure Slot × Cursor) (a : Asked) : Prop where
  asks : a.call = .advance ⟨id, view, target⟩
  found : a.before.checkpoints[id]? = some stored
  succeeds_iff : x.1 = .ok target ↔ view = stored.slot ∧ stored.slot < target
  moved : x.1 = .ok target → x.2 = c.placedAt target ∧
    ∃ cp, a.after.checkpoints[id]? = some cp ∧ cp.slot = target
  stale : x.1 ≠ .ok target →
    x = (.error (.staleCheckpoint stored.slot target), c.forget) ∧ a.after = a.before

inductive Ended (id : String) (c : Cursor) :
    Operation → List Asked → Except Failure Slot × Cursor → Prop
  | kept {slot : Slot} (own : c.current = some slot) : Ended id c .load [] (.ok slot, c)
  | read {op : Operation} {a : Asked} {slot : Slot}
      (anew : op = .load ∧ c.current = none ∨ op = .reload) (reads : a.Reads id c slot) :
      Ended id c op [a] (.ok slot, c.placedAt slot)
  | advanced {target view : Slot} {stored : Checkpoint} {read : List Asked} {a : Asked}
      {x : Except Failure Slot × Cursor} (viewed : Viewed id c view read)
      (compares : a.Compares id c target view stored x) :
      Ended id c (.advance target) (a :: read) x

structure Sound (id : String) (σ : State) : Prop where
  /-- No view is ahead of the stored checkpoint. -/
  behind : ∀ i h, σ.holders i = some h → ∀ slot ∈ h.cursor.current, σ.ledger.Reached id slot
  ends : ∀ i c op past x, σ.holders i = some (.working c op past (.done x)) → Ended id c op past x
  /-- An operation has ended, or it waits for an answer; it makes two calls at most. -/
  brief : ∀ i c op past rest, σ.holders i = some (.working c op past rest) →
    (∃ x, rest = .done x) ∧ past.length ≤ 2 ∨
      (∃ call next, rest = .ask (.store call) next) ∧ past.length < 2
  /-- An advance that had no view succeeds if it goes forward and the checkpoint does not move
  between its two calls. -/
  recovers : ∀ i c target a r x,
    σ.holders i = some (.working c (.advance target) [a, r] (.done x)) →
    a.before.checkpoints[id]? = r.after.checkpoints[id]? →
    (∃ stored, a.before.checkpoints[id]? = some stored ∧ stored.slot < target) → x.1 = .ok target

section Calls

variable {id : String} {l : Ledger} {now : Int} {slot : Slot}

/-- A checkpoint does not go back. -/
theorem reached_answer (regular : l.Regular) (h : l.Reached id slot) (call : StoreCall) :
    (l.answer now call).2.Reached id slot := by
  obtain ⟨cp, hcp, hle⟩ := h
  cases hmade : l.made? id ⟨now, call⟩ with
  | none =>
    have hkept := Ledger.checkpoint_answer_of_made_none regular hmade
    rw [hcp, Option.some_or] at hkept
    exact ⟨cp, hkept, hle⟩
  | some m =>
    obtain ⟨old, hold, hslot, hforward, hstored⟩ := Ledger.checkpoint_answer_of_made regular hmade
    cases hold.symm.trans hcp
    exact ⟨_, hstored, UInt64.le_of_lt (UInt64.lt_of_le_of_lt (hslot ▸ hle) hforward)⟩

theorem reached_returned {call : StoreCall} {cp : Checkpoint}
    (h : cp ∈ returnedBy id l now call) : (l.answer now call).2.Reached id cp.slot := by
  cases call with
  | commit batch =>
    change cp ∈ (match (l.commit now batch).1 with
      | .ok receipt => receipt.checkpoint.toList.filter fun c : Checkpoint => c.pipelineId = id
      | .error _ => []) at h
    cases hmove : l.checkMove now batch.move with
    | error f => simp [Ledger.commit, hmove] at h
    | ok next =>
      simp only [Ledger.commit, hmove, List.mem_filter, Option.mem_toList, decide_eq_true_eq] at h
      obtain ⟨rfl, rfl⟩ := h
      have hstored := l.checkpoints_commit hmove
      refine ⟨cp, ?_, UInt64.le_refl _⟩
      change (l.commit now batch).2.checkpoints[cp.pipelineId]? = some cp
      rw [hstored, Std.ExtTreeMap.getElem?_insert_self]
  | _ => exact absurd h List.not_mem_nil

theorem start_of_some {cp : Checkpoint} (h : l.checkpoints[id]? = some cp) (genesis : Slot)
    (now : Int) : l.answer now (.start id genesis) = (.ok cp, l) := by
  simp [Ledger.answer, Checkpoints.start, h]

theorem start_of_none (h : l.checkpoints[id]? = none) (genesis : Slot) (now : Int) :
    l.answer now (.start id genesis) = (.ok (.genesis id genesis now),
      { l with checkpoints := l.checkpoints.insert id (.genesis id genesis now) }) := by
  simp [Ledger.answer, Checkpoints.start, h]

theorem advance_of_fresh {stored : Checkpoint} (h : l.checkpoints[id]? = some stored)
    {target : Slot} (forward : stored.slot < target) (now : Int) :
    ∃ next : Checkpoint, next.slot = target ∧
      l.answer now (.advance ⟨id, stored.slot, target⟩) =
        (.ok next, { l with checkpoints := l.checkpoints.insert id next }) := by
  refine ⟨{ stored with slot := target, revision := stored.revision + 1, updatedAt := now }, rfl,
    ?_⟩
  simp [Ledger.answer, Checkpoints.advance, Checkpoints.after, Checkpoint.moved, h, forward]

theorem advance_of_stale {stored : Checkpoint} (h : l.checkpoints[id]? = some stored)
    {view target : Slot} (stale : ¬ (view = stored.slot ∧ stored.slot < target)) (now : Int) :
    l.answer now (.advance ⟨id, view, target⟩) =
      (.error (.staleCheckpoint stored.slot target), l) := by
  have hmove : ¬ (stored.slot = view ∧ stored.slot < target) := fun h => stale ⟨h.1.symm, h.2⟩
  simp [Ledger.answer, Checkpoints.advance, Checkpoints.after, Checkpoint.moved, h, hmove]

end Calls

section Programs

variable (c : Cursor)

theorem reload_eq : c.reload = .ask (.store (.start c.pipelineId c.genesis)) fun a =>
    match a with
    | .ok (cp : Checkpoint) => .done (.ok cp.slot, c.placedAt cp.slot)
    | .error f => .done (.error f, c) := by
  unfold Cursor.reload
  exact congrArg (Program.ask _) (funext fun a => by cases a <;> rfl)

/-- An advance without a view reads it first. -/
theorem advance_eq_of_empty {c : Cursor} (empty : c.current = none) (target : Slot) :
    (Operation.advance target).program c = .ask (.store (.start c.pipelineId c.genesis)) fun a =>
      match a with
      | .ok (cp : Checkpoint) => (Operation.advance target).program (c.placedAt cp.slot)
      | .error f => .done (.error f, c) := by
  unfold Operation.program Cursor.advance Cursor.load
  rw [empty]
  simp only [reload_eq]
  exact congrArg (Program.ask _) (funext fun a => by cases a <;> rfl)

def settle (view : Slot) : Except Failure Checkpoint → Except Failure Slot × Cursor
  | .ok cp => (.ok cp.slot, c.placedAt cp.slot)
  | .error f => (.error f, if f.isStaleCheckpoint then c.forget else c.placedAt view)

theorem advance_eq (view target : Slot) :
    (Operation.advance target).program (c.placedAt view) =
      .ask (.store (.advance ⟨c.pipelineId, view, target⟩)) fun a => .done (settle c view a) := by
  unfold Operation.program Cursor.advance
  exact congrArg (Program.ask _) (funext fun a => by cases a <;> rfl)

end Programs

/-- How far an operation of a cursor is. Whatever view it has come to, the stored checkpoint has
come as far. -/
inductive Going (id : String) (l : Ledger) (c : Cursor) :
    Operation → List Asked → Program (Except Failure Slot × Cursor) → Prop
  | ended {op : Operation} {past : List Asked} {x : Except Failure Slot × Cursor}
      (ends : Ended id c op past x) (own : x.2.pipelineId = id)
      (behind : ∀ slot ∈ x.2.current, l.Reached id slot) : Going id l c op past (.done x)
  | reads {op : Operation} (anew : op = .load ∧ c.current = none ∨ op = .reload) :
      Going id l c op [] c.reload
  | looks {target : Slot} (empty : c.current = none) :
      Going id l c (.advance target) [] ((Operation.advance target).program c)
  | compares {target view : Slot} {read : List Asked} (viewed : Viewed id c view read)
      (behind : l.Reached id view) :
      Going id l c (.advance target) read ((Operation.advance target).program (c.placedAt view))

/-- A holder of a cursor of the pipeline, with no view ahead of the stored checkpoint. -/
inductive Behind (id : String) (l : Ledger) : Holder → Prop
  | resting {c : Cursor} (own : c.pipelineId = id)
      (behind : ∀ slot ∈ c.current, l.Reached id slot) : Behind id l (.resting c)
  | working {c : Cursor} {op : Operation} {past : List Asked}
      {rest : Program (Except Failure Slot × Cursor)} (own : c.pipelineId = id)
      (behind : ∀ slot ∈ c.current, l.Reached id slot) (going : Going id l c op past rest) :
      Behind id l (.working c op past rest)

structure Invariant (id : String) (σ : State) : Prop where
  regular : σ.ledger.Regular
  returned : ∀ cp ∈ σ.returned, σ.ledger.Reached id cp.slot
  holders : ∀ i h, σ.holders i = some h → Behind id σ.ledger h

variable {id : String} {l l' : Ledger} {c : Cursor}

theorem Behind.cursor {h : Holder} (behind : Behind id l h) :
    ∀ slot ∈ h.cursor.current, l.Reached id slot := by
  cases behind with
  | resting own behind => exact behind
  | working own behind going => exact behind

/-- As the checkpoint does not go back, who is behind stays behind. -/
theorem Behind.mono {h : Holder} (behind : Behind id l h)
    (grows : ∀ slot, l.Reached id slot → l'.Reached id slot) : Behind id l' h := by
  cases behind with
  | resting own behind => exact .resting own fun slot hs => grows slot (behind slot hs)
  | working own behind going =>
    refine .working own (fun slot hs => grows slot (behind slot hs)) ?_
    cases going with
    | ended ends own' behind' =>
      exact .ended ends own' fun slot hs => grows slot (behind' slot hs)
    | reads anew => exact .reads anew
    | looks empty => exact .looks empty
    | compares viewed behind' => exact .compares viewed (grows _ behind')

theorem going_begin (behind : ∀ slot ∈ c.current, l.Reached id slot) (own : c.pipelineId = id)
    (op : Operation) : Going id l c op [] (op.program c) := by
  cases op with
  | load =>
    unfold Operation.program Cursor.load
    cases hview : c.current with
    | none => exact .reads (.inl ⟨rfl, hview⟩)
    | some slot => exact .ended (.kept hview) own behind
  | reload => exact .reads (.inr rfl)
  | advance target =>
    cases hview : c.current with
    | none => exact .looks hview
    | some view =>
      have hsame : c = c.placedAt view := by
        unfold Cursor.placedAt
        rw [← hview]
      have hgoing : Going id l c (.advance target) []
          ((Operation.advance target).program (c.placedAt view)) :=
        .compares (.kept hview) (behind view hview)
      rwa [← hsame] at hgoing

/-- What reading the checkpoint comes to. -/
theorem start_reads (l : Ledger) (own : c.pipelineId = id) (now : Int) :
    ∃ cp : Checkpoint, (l.answer now (.start c.pipelineId c.genesis)).1 = .ok cp ∧
      Asked.Reads id c cp.slot ⟨now, .start c.pipelineId c.genesis, l⟩ ∧
      (l.answer now (.start c.pipelineId c.genesis)).2.Reached id cp.slot := by
  subst own
  cases hstored : l.checkpoints[c.pipelineId]? with
  | some cp =>
    have hanswer := start_of_some hstored c.genesis now
    have hafter : Asked.after ⟨now, .start c.pipelineId c.genesis, l⟩ = l :=
      congrArg Prod.snd hanswer
    refine ⟨cp, congrArg Prod.fst hanswer, ⟨rfl, ⟨cp, ?_, rfl⟩, .inl hafter⟩, cp, ?_, ?_⟩
    · rw [hafter, hstored]
    · rw [hanswer, hstored]
    · exact UInt64.le_refl _
  | none =>
    have hanswer := start_of_none hstored c.genesis now
    have hafter := congrArg Prod.snd hanswer
    have hfound : (l.answer now (.start c.pipelineId c.genesis)).2.checkpoints[c.pipelineId]? =
        some (.genesis c.pipelineId c.genesis now) := by
      rw [hafter]
      exact Std.ExtTreeMap.getElem?_insert_self
    exact ⟨_, congrArg Prod.fst hanswer, ⟨rfl, ⟨_, hfound, rfl⟩, .inr ⟨hstored, rfl, hafter⟩⟩, _,
      hfound, UInt64.le_refl _⟩

/-- What comparing a view with the stored checkpoint comes to. -/
theorem advance_compares (own : c.pipelineId = id) {view : Slot} (behind : l.Reached id view)
    (target : Slot) (now : Int) :
    (∃ stored, Asked.Compares id c target view stored
      (settle c view (l.answer now (.advance ⟨c.pipelineId, view, target⟩)).1)
      ⟨now, .advance ⟨c.pipelineId, view, target⟩, l⟩) ∧
    (settle c view (l.answer now (.advance ⟨c.pipelineId, view, target⟩)).1).2.pipelineId = id ∧
    ∀ slot ∈ (settle c view (l.answer now (.advance ⟨c.pipelineId, view, target⟩)).1).2.current,
      (l.answer now (.advance ⟨c.pipelineId, view, target⟩)).2.Reached id slot := by
  subst own
  obtain ⟨stored, hstored, -⟩ := behind
  -- The checkpoint exists, as somebody has viewed it, so the call moves it or is stale.
  by_cases fresh : view = stored.slot ∧ stored.slot < target
  · obtain ⟨rfl, forward⟩ := fresh
    obtain ⟨next, rfl, hanswer⟩ := advance_of_fresh hstored forward now
    have hfound : (l.answer now (.advance ⟨c.pipelineId, stored.slot, next.slot⟩)).2.checkpoints[
        c.pipelineId]? = some next := by
      rw [hanswer]
      exact Std.ExtTreeMap.getElem?_insert_self
    have hsettled : settle c stored.slot
        (l.answer now (.advance ⟨c.pipelineId, stored.slot, next.slot⟩)).1 =
          (.ok next.slot, c.placedAt next.slot) := by
      rw [hanswer]
      rfl
    rw [hsettled]
    refine ⟨⟨stored, rfl, hstored, iff_of_true rfl ⟨rfl, forward⟩,
      fun _ => ⟨rfl, next, hfound, rfl⟩, fun hne => absurd rfl hne⟩, rfl, fun slot hslot => ?_⟩
    cases hslot
    exact ⟨next, hfound, UInt64.le_refl _⟩
  · have hanswer := advance_of_stale hstored fresh now
    have hsettled : settle c view (l.answer now (.advance ⟨c.pipelineId, view, target⟩)).1 =
        (.error (.staleCheckpoint stored.slot target), c.forget) := by
      rw [hanswer]
      rfl
    rw [hsettled]
    exact ⟨⟨stored, rfl, hstored, iff_of_false nofun fresh, nofun,
      fun _ => ⟨rfl, congrArg Prod.snd hanswer⟩⟩, rfl, nofun⟩

/-- An operation goes on with the answer to its call. -/
theorem Going.answered {op : Operation} {past : List Asked} {call : StoreCall}
    {next : Except Failure call.Answer → Program (Except Failure Slot × Cursor)}
    (going : Going id l c op past (.ask (.store call) next)) (own : c.pipelineId = id)
    (now : Int) :
    Going id (l.answer now call).2 c op (⟨now, call, l⟩ :: past)
      (next (l.answer now call).1) := by
  generalize hrest : Program.ask (.store call) next = rest at going
  cases going with
  | ended ends own' behind => cases hrest
  | reads anew =>
    rw [reload_eq] at hrest
    cases hrest
    obtain ⟨cp, hanswer, reads, hreached⟩ := start_reads l own now
    rw [hanswer]
    refine .ended (.read anew reads) own ?_
    intro slot hslot
    cases hslot
    exact hreached
  | looks empty =>
    rw [advance_eq_of_empty empty] at hrest
    cases hrest
    obtain ⟨cp, hanswer, reads, hreached⟩ := start_reads l own now
    rw [hanswer]
    exact .compares (.read empty reads) hreached
  | @compares target view read viewed behind =>
    rw [advance_eq] at hrest
    cases hrest
    obtain ⟨⟨stored, compares⟩, own', behind'⟩ := advance_compares own behind target now
    exact .ended (.advanced viewed compares) own' behind'

theorem Going.ends {op : Operation} {past : List Asked} {x : Except Failure Slot × Cursor}
    (going : Going id l c op past (.done x)) : Ended id c op past x ∧ x.2.pipelineId = id ∧
      ∀ slot ∈ x.2.current, l.Reached id slot := by
  generalize hrest : Program.done x = rest at going
  cases going with
  | ended ends own behind =>
    cases hrest
    exact ⟨ends, own, behind⟩
  | reads anew =>
    rw [reload_eq] at hrest
    cases hrest
  | looks empty =>
    rw [advance_eq_of_empty empty] at hrest
    cases hrest
  | compares viewed behind =>
    rw [advance_eq] at hrest
    cases hrest

/-- An operation asks the store only, and ends after two calls at most. -/
theorem Going.brief {op : Operation} {past : List Asked}
    {rest : Program (Except Failure Slot × Cursor)} (going : Going id l c op past rest) :
    (∃ x, rest = .done x) ∧ past.length ≤ 2 ∨
      (∃ call next, rest = .ask (.store call) next) ∧ past.length < 2 := by
  have viewed_length : ∀ {view read}, Viewed id c view read → read.length < 2 := by
    intro view read viewed
    cases viewed with
    | kept own => exact Nat.zero_lt_two
    | read empty reads => exact Nat.one_lt_two
  cases going with
  | ended ends own behind =>
    refine .inl ⟨⟨_, rfl⟩, ?_⟩
    cases ends with
    | kept own => exact Nat.zero_le 2
    | read anew reads => exact Nat.le_succ 1
    | advanced viewed compares => exact viewed_length viewed
  | reads anew =>
    rw [reload_eq]
    exact .inr ⟨⟨_, _, rfl⟩, Nat.zero_lt_two⟩
  | looks empty =>
    rw [advance_eq_of_empty empty]
    exact .inr ⟨⟨_, _, rfl⟩, Nat.zero_lt_two⟩
  | compares viewed behind =>
    rw [advance_eq]
    exact .inr ⟨⟨_, _, rfl⟩, viewed_length viewed⟩

/-- A move of a holder is a call of the store or none, and leaves it behind the checkpoint. -/
theorem Behind.goOn {h : Holder} (behind : Behind id l h) (regular : l.Regular) (now : Int) :
    ((h.goOn l now).1 = l ∨ ∃ call, (h.goOn l now).1 = (l.answer now call).2) ∧
      Behind id (h.goOn l now).1 (h.goOn l now).2 := by
  cases behind with
  | resting own behind => exact ⟨.inl rfl, .resting own behind⟩
  | @working c op past rest own behind going =>
    rcases going.brief with ⟨⟨x, rfl⟩, -⟩ | ⟨⟨call, next, rfl⟩, -⟩
    · obtain ⟨-, own', behind'⟩ := going.ends
      exact ⟨.inl rfl, .resting own' behind'⟩
    · refine ⟨.inr ⟨call, rfl⟩, .working own ?_ (going.answered own now)⟩
      exact fun slot hslot => reached_answer regular (behind slot hslot) call

namespace Invariant

variable {σ : State}

/-- Only the place changes, and the ledger may have been called. -/
theorem hold (inv : Invariant id σ) {i : Nat} {h : Holder} (behind : Behind id σ.ledger h) :
    Invariant id (σ.hold i h) := by
  refine ⟨inv.regular, inv.returned, fun j h' hj => ?_⟩
  by_cases hji : j = i
  · subst hji
    have hsame : (σ.hold j h).holders j = some h := Function.update_self ..
    cases hsame.symm.trans hj
    exact behind
  · have hother : (σ.hold i h).holders j = σ.holders j := Function.update_of_ne hji ..
    exact inv.holders j h' (hother ▸ hj)

/-- A call of the store keeps everybody behind. -/
theorem answer (inv : Invariant id σ) (now : Int) (call : StoreCall) :
    Invariant id { σ with ledger := (σ.ledger.answer now call).2 } where
  regular := inv.regular.answer now (fun _ _ => trivial) fun _ _ => trivial
  returned cp hcp := reached_answer inv.regular (inv.returned cp hcp) call
  holders i h hi := (inv.holders i h hi).mono fun _ hs => reached_answer inv.regular hs call

theorem play (inv : Invariant id σ) (e : Event) : Invariant id (σ.play id e) := by
  cases e with
  | opens i genesis =>
    unfold State.play
    simp only
    split
    · exact inv.hold (.resting rfl nofun)
    · exact inv
  | begins i op =>
    unfold State.play
    simp only
    split
    · next c hc =>
      cases inv.holders i _ hc with
      | resting own behind => exact inv.hold (.working own behind (going_begin behind own op))
    · exact inv
  | goesOn i now =>
    unfold State.play
    simp only
    split
    · next h hh =>
      obtain ⟨hledger, behind⟩ := (inv.holders i h hh).goOn inv.regular now
      have hnext : Invariant id { σ with ledger := (h.goOn σ.ledger now).1 } := by
        rcases hledger with hsame | ⟨call, hcall⟩
        · rwa [hsame]
        · rw [hcall]
          exact inv.answer now call
      exact hnext.hold behind
    · exact inv
  | told i cp =>
    unfold State.play
    simp only
    split
    · next c hc =>
      split
      · next hcp =>
        cases inv.holders i _ hc with
        | resting own behind =>
          refine inv.hold (.resting own fun slot hslot => ?_)
          cases hslot
          exact inv.returned cp hcp
      · exact inv
    · exact inv
  | forgets i =>
    unfold State.play
    simp only
    split
    · next c hc =>
      cases inv.holders i _ hc with
      | resting own behind => exact inv.hold (.resting own nofun)
    · exact inv
  | call now call =>
    have hcalled := inv.answer now call
    refine ⟨hcalled.regular, fun cp hcp => ?_, hcalled.holders⟩
    rcases List.mem_append.1 hcp with hnew | hold
    · exact reached_returned hnew
    · exact hcalled.returned cp hold

theorem playAll (inv : Invariant id σ) (events : List Event) :
    Invariant id (σ.playAll id events) := by
  induction events generalizing σ with
  | nil => exact inv
  | cons e rest ih => exact ih (inv.play e)

theorem idle : Invariant id (.idle .empty) :=
  ⟨Ledger.holds_empty, nofun, nofun⟩

end Invariant

/-- Without a move in between, what an advance has read is what its call finds. -/
theorem Ended.recovers {target : Slot} {a r : Asked} {x : Except Failure Slot × Cursor}
    (ended : Ended id c (.advance target) [a, r] x)
    (unmoved : a.before.checkpoints[id]? = r.after.checkpoints[id]?)
    (forward : ∃ stored, a.before.checkpoints[id]? = some stored ∧ stored.slot < target) :
    x.1 = .ok target := by
  cases ended with
  | advanced viewed compares =>
    obtain ⟨stored, hstored, hforward⟩ := forward
    cases compares.found.symm.trans hstored
    cases viewed with
    | read _ reads =>
      obtain ⟨cp, hcp, rfl⟩ := reads.found
      rw [← unmoved, hstored] at hcp
      cases hcp
      exact compares.succeeds_iff.2 ⟨rfl, hforward⟩

theorem Invariant.sound {σ : State} (inv : Invariant id σ) : Sound id σ := by
  have going : ∀ {i c op past rest}, σ.holders i = some (.working c op past rest) →
      Going id σ.ledger c op past rest := by
    intro i c op past rest hi
    cases inv.holders i _ hi with
    | working own behind going => exact going
  have ends : ∀ i c op past x, σ.holders i = some (.working c op past (.done x)) →
      Ended id c op past x := by
    exact fun i c op past x hi => (going hi).ends.1
  exact ⟨fun i h hi => (inv.holders i h hi).cursor, ends,
    fun i c op past rest hi => (going hi).brief,
    fun i c target a r x hi => (ends i c _ _ x hi).recovers⟩

/-- Whatever the cursors of a pipeline do with an empty store and whoever else calls it. -/
theorem cursors_sound (id : String) (events : List Event) :
    Sound id ((State.idle .empty).playAll id events) :=
  (Invariant.idle.playAll events).sound

/-- An advance to a slot before genesis. It creates the checkpoint, and is stale. -/
def tooLow : List Event :=
  [.opens 0 100, .begins 0 (.advance 50), .goesOn 0 7, .goesOn 0 7]

/-- A stale advance may have changed the store. -/
theorem stale_advance_creates : ∃ c past,
    ((State.idle .empty).playAll "r" tooLow).holders 0 =
      some (.working c (.advance 50) past (.done (.error (.staleCheckpoint 100 50), c))) ∧
    ∃ a ∈ past, a.before.checkpoints["r"]? = none ∧
      a.after.checkpoints["r"]? = some ⟨"r", 100, 0, 7⟩ := by
  refine ⟨_, _, rfl, _, List.mem_cons_of_mem _ (List.mem_cons_self ..), ?_, ?_⟩
  · decide +kernel
  · decide +kernel

end SharedCursors

end RouterHistory
