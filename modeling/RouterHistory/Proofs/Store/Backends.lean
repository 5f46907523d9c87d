import RouterHistory.Proofs.Store.LedgerTables
import RouterHistory.Store.Backend

/-!
A history in memory and one in a database with whole seconds answer the same calls alike, also
when the calls come at other times. A time only ever becomes the date of a checkpoint, so a ledger
without dates answers as the ledger does, up to the dates; and a database answers as the ledger
that its tables hold.
-/
namespace RouterHistory

def Checkpoint.undated (c : Checkpoint) : Checkpoint := { c with updatedAt := 0 }

def StoreCall.undated : (call : StoreCall) → call.Answer → call.Answer
  | .checkpoint _, found => found.map Checkpoint.undated
  | .start _ _, c => c.undated
  | .advance _, c => c.undated
  | .commit _, receipt => { receipt with checkpoint := receipt.checkpoint.map Checkpoint.undated }
  | _, answer => answer

/-- Names slots that leave the sign bit free, and writes times without fractions of a second. -/
structure StoreCall.Plain (call : StoreCall) : Prop where
  whole : ∀ row ∈ call.records, row.timestamp.IsWhole
  fits : ∀ slot ∈ call.slots, slot.FitsColumn

theorem StoreCall.undated_undated (call : StoreCall) (answer : call.Answer) :
    call.undated (call.undated answer) = call.undated answer := by
  cases call with
  | checkpoint id => cases answer <;> rfl
  | commit batch =>
    obtain ⟨tally, checkpoint⟩ := answer
    cases checkpoint <;> rfl
  | _ => rfl

/-- There are no dates in failures. -/
theorem StoreCall.map_undated_undated (call : StoreCall) (result : Except Failure call.Answer) :
    (result.map call.undated).map call.undated = result.map call.undated := by
  cases result with
  | error f => rfl
  | ok answer => exact congrArg Except.ok (call.undated_undated answer)

namespace Checkpoints

variable (cs : Checkpoints)

def undated : Checkpoints := cs.map fun _ c => c.undated

theorem getElem?_undated (id : String) : cs.undated[id]? = cs[id]?.map Checkpoint.undated :=
  Std.ExtTreeMap.getElem?_map

theorem insert_undated (id : String) (c : Checkpoint) :
    undated (cs.insert id c) = cs.undated.insert id c.undated :=
  map_insert cs _ id c

theorem start_undated (id : String) (genesis : Slot) (now : Int) :
    cs.undated.start id genesis 0 =
      ((cs.start id genesis now).1.undated, undated (cs.start id genesis now).2) := by
  unfold start
  rw [getElem?_undated]
  cases cs[id]? with
  | some c => rfl
  | none =>
    exact congrArg (Checkpoint.genesis id genesis 0, ·)
      (insert_undated cs id (.genesis id genesis now)).symm

theorem after_undated (m : Move) (now : Int) :
    cs.undated.after m 0 = (cs.after m now).map Checkpoint.undated := by
  unfold after
  rw [getElem?_undated]
  cases cs[m.pipelineId]? with
  | none => rfl
  | some c =>
    simp only [Option.map_some, Checkpoint.moved, Checkpoint.undated]
    split <;> rfl

theorem advance_undated (m : Move) (now : Int) :
    cs.undated.advance m 0 =
      ((cs.advance m now).1.map Checkpoint.undated, undated (cs.advance m now).2) := by
  unfold advance
  rw [after_undated cs m now]
  cases cs.after m now with
  | error f => rfl
  | ok c => exact congrArg (Except.ok c.undated, ·) (insert_undated cs m.pipelineId c).symm

end Checkpoints

namespace Ledger

variable (l : Ledger)

def undated : Ledger := l.onto l.checkpoints.undated

variable {l} in
theorem undated_eq_onto {l' : Ledger} (h : l'.checkpoints = l.checkpoints) :
    l'.undated = l'.onto l.checkpoints.undated := by
  unfold undated
  rw [h]

theorem upsert_undated (e : Entry) :
    l.undated.upsert e = ((l.upsert e).1, (l.upsert e).2.undated) := by
  rw [undated_eq_onto (l.checkpoints_upsert e)]
  exact upsert_onto _ e

theorem upsertAll_undated (entries : List Entry) :
    l.undated.upsertAll entries = ((l.upsertAll entries).1, (l.upsertAll entries).2.undated) := by
  have hkept : (l.upsertAll entries).2.checkpoints = l.checkpoints := by
    rw [upsertAll_snd, checkpoints_written]
  rw [undated_eq_onto hkept]
  exact upsertFrom_onto _ entries .zero

theorem moveMark_undated (S : Signature) (slot : Slot) :
    l.undated.moveMark S slot = (l.moveMark S slot).undated := by
  rw [undated_eq_onto (l.checkpoints_moveMark S slot)]
  exact moveMark_onto _ S slot

theorem orphan_undated (S : Signature) (slot : Slot) :
    l.undated.orphan S slot = ((l.orphan S slot).1, (l.orphan S slot).2.undated) := by
  by_cases hmark : l.marks[S]? = some slot
  · unfold orphan
    rw [if_pos hmark]
    exact if_pos hmark
  · rw [l.orphan_of_ne hmark]
    exact l.undated.orphan_of_ne hmark

theorem storeCheckpoint_undated (next : Option Checkpoint) :
    l.undated.storeCheckpoint (next.map Checkpoint.undated) =
      (l.storeCheckpoint next).undated := by
  cases next with
  | none => rfl
  | some c => exact congrArg l.onto (Checkpoints.insert_undated l.checkpoints _ c).symm

theorem checkMove_undated (now : Int) (move : Option Move) :
    l.undated.checkMove 0 move = (l.checkMove now move).map (Option.map Checkpoint.undated) := by
  cases move with
  | none => rfl
  | some m =>
    change Except.map some (l.checkpoints.undated.after m 0) =
      Except.map _ (Except.map some (l.checkpoints.after m now))
    rw [Checkpoints.after_undated l.checkpoints m now]
    cases l.checkpoints.after m now <;> rfl

theorem commit_undated (now : Int) (c : Commit) :
    l.undated.commit 0 c =
      ((l.commit now c).1.map (StoreCall.commit c).undated, (l.commit now c).2.undated) := by
  unfold commit
  rw [l.checkMove_undated now]
  cases l.checkMove now c.move with
  | error f => rfl
  | ok next =>
    simp only [Except.map, upsertAll_undated]
    exact Prod.ext rfl (storeCheckpoint_undated
      ((l.upsertAll c.entries).2.quarantineAll c.quarantined) next)

/-- Without dates a call has the same answer at time zero, without dates. -/
theorem answer_undated (now : Int) (call : StoreCall) :
    l.undated.answer 0 call =
      ((l.answer now call).1.map call.undated, (l.answer now call).2.undated) := by
  cases call with
  | checkpoint id =>
    exact congrArg (Except.ok ·, l.undated) (Checkpoints.getElem?_undated l.checkpoints id)
  | start id genesis =>
    exact congrArg (fun started => (Except.ok started.1, l.onto started.2))
      (Checkpoints.start_undated l.checkpoints id genesis now)
  | advance m =>
    exact congrArg (fun moved => (moved.1, l.onto moved.2))
      (Checkpoints.advance_undated l.checkpoints m now)
  | upsert e =>
    exact congrArg (fun written => (Except.ok written.1, written.2)) (l.upsert_undated e)
  | upsertAll entries =>
    exact congrArg (fun written => (Except.ok written.1, written.2)) (l.upsertAll_undated entries)
  | commit c => exact l.commit_undated now c
  | moveMark S slot => exact congrArg (Except.ok (), ·) (l.moveMark_undated S slot)
  | orphan S slot =>
    exact congrArg (fun removed => (Except.ok removed.1, removed.2)) (l.orphan_undated S slot)
  | _ => rfl

end Ledger

namespace Backend

def replies : Backend → List (Int × StoreCall) →
    List ((call : StoreCall) × Except Failure call.Answer)
  | _, [] => []
  | b, (now, call) :: rest =>
      ⟨call, (b.answer now call).1.map call.undated⟩ :: (b.answer now call).2.replies rest

/-- It does not matter when the calls are made. -/
theorem replies_memory (l : Ledger) (calls : List (Int × StoreCall)) :
    (memory l).replies calls =
      (memory l.undated).replies ((calls.map Prod.snd).map fun call => (0, call)) := by
  induction calls generalizing l with
  | nil => rfl
  | cons first rest ih =>
    obtain ⟨now, call⟩ := first
    change ⟨call, (l.answer now call).1.map call.undated⟩ ::
        (memory (l.answer now call).2).replies rest =
      ⟨call, (l.undated.answer 0 call).1.map call.undated⟩ ::
        (memory (l.undated.answer 0 call).2).replies _
    rw [l.answer_undated now call, call.map_undated_undated, ih]

theorem replies_database {l : Ledger} (h : l.Plain) {calls : List (Int × StoreCall)}
    (plain : ∀ timed ∈ calls, timed.2.Plain) :
    (database .seconds l.tables).replies calls = (memory l).replies calls := by
  induction calls generalizing l with
  | nil => rfl
  | cons first rest ih =>
    obtain ⟨now, call⟩ := first
    have hcall : call.Plain := plain _ (List.mem_cons_self ..)
    have hafter : (l.answer now call).2.Plain := h.answer now hcall.whole hcall.fits
    change ⟨call, (l.tables.answer .seconds now call).1.map call.undated⟩ ::
        (database .seconds (l.tables.answer .seconds now call).2).replies rest =
      ⟨call, (l.answer now call).1.map call.undated⟩ ::
        (memory (l.answer now call).2).replies rest
    rw [h.answer_tables now hcall.whole hcall.fits,
      ih hafter fun timed htimed => plain timed (List.mem_cons_of_mem _ htimed)]

/-- Of two empty stores, one in memory and one in a database with whole seconds, each call is
answered alike, whenever it is made: the answers and the errors are the same but for dates. -/
theorem database_answers_as_memory {early late : List (Int × StoreCall)}
    (same : early.map Prod.snd = late.map Prod.snd) (plain : ∀ timed ∈ late, timed.2.Plain) :
    (memory .empty).replies early = (database .seconds .empty).replies late := by
  have hholds : Ledger.empty.Plain := Ledger.holds_empty
  have hdatabase := replies_database hholds plain
  rw [Ledger.tables_empty] at hdatabase
  rw [hdatabase, replies_memory, same, ← replies_memory]

/-- A batch, a move that comes too late, and what is left after the row was removed again. -/
def someCalls : List StoreCall :=
  [.start "p" 0,
    .commit ⟨[⟨⟨⟨"a"⟩, .epoch, true, 1⟩, 1⟩], [⟨⟨"b"⟩, 1, "odd", 5⟩], some ⟨"p", 0, 1⟩⟩,
    .advance ⟨"p", 0, 2⟩, .provisionalAfter 0, .orphan ⟨"a"⟩ 1, .record ⟨"a"⟩, .quarantined]

theorem someCalls_answered_alike :
    (memory .empty).replies (someCalls.map fun call => (1, call)) =
      (database .seconds .empty).replies (someCalls.map fun call => (2, call)) := by
  refine database_answers_as_memory (by simp) fun timed htimed => ?_
  have plain : (someCalls.all fun call => call.records.all (fun row => row.timestamp.IsWhole) &&
      call.slots.all fun slot => slot.FitsColumn) = true := by
    decide +kernel
  simp only [List.all_eq_true, Bool.and_eq_true, decide_eq_true_eq] at plain
  obtain ⟨call, hcall, rfl⟩ := List.mem_map.1 htimed
  exact ⟨(plain call hcall).1, (plain call hcall).2⟩

end Backend

end RouterHistory
