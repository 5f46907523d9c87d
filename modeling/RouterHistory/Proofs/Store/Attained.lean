import RouterHistory.Proofs.Shared.Play
import RouterHistory.Proofs.Store.Standing

/-!
Ledgers that calls lead to from the empty one. In each of them a marked signature has a row, and
rows, quarantine entries and checkpoints are kept under their own names. The rows and slots are
those that the calls brought, so what holds of these holds of all that is kept.
-/
namespace RouterHistory

namespace StoreCall

def slots : StoreCall → List Slot
  | .start _ genesis => [genesis]
  | .advance m => [m.expected, m.target]
  | .upsert e => [e.slot]
  | .upsertAll entries => entries.map Entry.slot
  | .commit c => c.entries.map Entry.slot ++ c.quarantined.map Quarantined.slot ++
      c.move.toList.flatMap fun m => [m.expected, m.target]
  | .provisionalAfter boundary => [boundary]
  | .finalizeThrough boundary => [boundary]
  | .moveMark _ slot => [slot]
  | .orphan _ slot => [slot]
  | _ => []

def records : StoreCall → List Record
  | .upsert e => [e.record]
  | .upsertAll entries => entries.map Entry.record
  | .commit c => c.entries.map Entry.record
  | _ => []

end StoreCall

namespace Ledger

/-- Rows and slots with these properties, each kept under its name. -/
structure Holds (rows : Record → Prop) (slots : Slot → Prop) (l : Ledger) : Prop where
  marked : ∀ S : Signature, S ∈ l.marks → S ∈ l.rows
  row : ∀ (S : Signature) (row : Record), l.rows[S]? = some row → row.signature = S ∧ rows row
  mark : ∀ (S : Signature) (slot : Slot), l.marks[S]? = some slot → slots slot
  entry : ∀ (S : Signature) (q : Quarantined), l.quarantine[S]? = some q →
    q.signature = S ∧ slots q.slot
  checkpoint : ∀ (id : String) (c : Checkpoint), l.checkpoints[id]? = some c →
    c.pipelineId = id ∧ slots c.slot

variable {l : Ledger} {rows : Record → Prop} {slots : Slot → Prop}

theorem mem_marks_moveMark (l : Ledger) (S T : Signature) (s : Slot) :
    T ∈ (l.moveMark S s).marks ↔ T ∈ l.marks := by
  rw [Std.ExtTreeMap.mem_iff_isSome_getElem?, Std.ExtTreeMap.mem_iff_isSome_getElem?]
  by_cases h : S = T
  · subst h
    rw [marks_moveMark_self, Option.isSome_map]
  · rw [marks_moveMark_of_ne l h]

theorem Holds.moveMark (h : l.Holds rows slots) (S : Signature) {s : Slot} (hs : slots s) :
    (l.moveMark S s).Holds rows slots := by
  refine ⟨fun T hT => ?_, ?_, fun T t ht => ?_, ?_, ?_⟩
  · rw [rows_moveMark]
    exact h.marked T ((l.mem_marks_moveMark S T s).1 hT)
  · rw [rows_moveMark]
    exact h.row
  · by_cases hsame : S = T
    · rw [← hsame, marks_moveMark_self, Option.map_eq_some_iff] at ht
      obtain ⟨-, -, rfl⟩ := ht
      exact hs
    · rw [l.marks_moveMark_of_ne hsame] at ht
      exact h.mark T t ht
  · rw [quarantine_moveMark]
    exact h.entry
  · rw [checkpoints_moveMark]
    exact h.checkpoint

theorem Holds.upsert (h : l.Holds rows slots) {e : Entry} (hrow : rows e.record)
    (hslot : slots e.slot) : (l.upsert e).2.Holds rows slots := by
  refine ⟨fun S hS => ?_, fun S row hS => ?_, fun S s hS => ?_, ?_, ?_⟩
  · rw [l.mem_rows_upsert e]
    by_cases hsame : e.signature = S
    · exact .inl hsame
    · rw [Std.ExtTreeMap.mem_iff_isSome_getElem?, l.marks_upsert_of_ne hsame,
        ← Std.ExtTreeMap.mem_iff_isSome_getElem?] at hS
      exact .inr (h.marked S hS)
  · rw [rows_upsert] at hS
    split at hS
    · next hsame =>
      cases hS
      exact ⟨hsame, hrow⟩
    · exact h.row S row hS
  · by_cases hsame : e.signature = S
    · rw [← hsame, marks_upsert_self] at hS
      split at hS
      · cases hS
      · cases hS
        exact hslot
    · rw [l.marks_upsert_of_ne hsame] at hS
      exact h.mark S s hS
  · rw [quarantine_upsert]
    exact h.entry
  · rw [checkpoints_upsert]
    exact h.checkpoint

theorem Holds.written (h : l.Holds rows slots) {entries : List Entry}
    (hrows : ∀ e ∈ entries, rows e.record) (hslots : ∀ e ∈ entries, slots e.slot) :
    (l.written entries).Holds rows slots := by
  induction entries generalizing l with
  | nil => exact h
  | cons e rest ih =>
    have hfirst : (l.upsert e).2.Holds rows slots :=
      h.upsert (hrows e (List.mem_cons_self ..)) (hslots e (List.mem_cons_self ..))
    exact ih hfirst (fun e' he' => hrows e' (List.mem_cons_of_mem e he'))
      fun e' he' => hslots e' (List.mem_cons_of_mem e he')

theorem Holds.quarantineAll (h : l.Holds rows slots) {entries : List Quarantined}
    (hslots : ∀ q ∈ entries, slots q.slot) : (l.quarantineAll entries).Holds rows slots := by
  refine ⟨h.marked, h.row, h.mark, fun S q hq => ?_, h.checkpoint⟩
  rcases l.getElem?_quarantineAll hq with ⟨hmem, hsame⟩ | hold
  · exact ⟨hsame, hslots q hmem⟩
  · exact h.entry S q hold

theorem Holds.insertCheckpoint (h : l.Holds rows slots) {c : Checkpoint} (hslot : slots c.slot) :
    Holds rows slots { l with checkpoints := l.checkpoints.insert c.pipelineId c } := by
  refine ⟨h.marked, h.row, h.mark, h.entry, fun id c' hc' => ?_⟩
  rw [Std.ExtTreeMap.getElem?_insert] at hc'
  by_cases hsame : c.pipelineId = id
  · rw [if_pos (Std.compare_eq_iff_eq.2 hsame)] at hc'
    cases hc'
    exact ⟨hsame, hslot⟩
  · rw [if_neg (mt Std.compare_eq_iff_eq.1 hsame)] at hc'
    exact h.checkpoint id c' hc'

theorem Holds.start (h : l.Holds rows slots) (id : String) {genesis : Slot}
    (hslot : slots genesis) (now : Int) :
    Holds rows slots { l with checkpoints := (l.checkpoints.start id genesis now).2 } := by
  unfold Checkpoints.start
  split
  · exact h
  · exact h.insertCheckpoint (c := .genesis id genesis now) hslot

/-- A move leads to a checkpoint of its own pipeline, at its target. -/
theorem Holds.of_after (h : l.Holds rows slots) {now : Int} {m : Move} {c : Checkpoint}
    (hc : l.checkpoints.after m now = .ok c) :
    c.pipelineId = m.pipelineId ∧ c.slot = m.target := by
  unfold Checkpoints.after at hc
  split at hc
  · cases hc
  · next old hold =>
    unfold Checkpoint.moved at hc
    split at hc
    · cases hc
      exact ⟨(h.checkpoint _ old hold).1, rfl⟩
    · cases hc

theorem Holds.advance (h : l.Holds rows slots) {m : Move} (hslot : slots m.target) (now : Int) :
    Holds rows slots { l with checkpoints := (l.checkpoints.advance m now).2 } := by
  unfold Checkpoints.advance
  split
  · next c hc =>
    obtain ⟨hsame, htarget⟩ := h.of_after hc
    rw [← hsame]
    exact h.insertCheckpoint (htarget ▸ hslot)
  · exact h

theorem Holds.storeCheckpoint (h : l.Holds rows slots) {next : Option Checkpoint}
    (hslot : ∀ c ∈ next, slots c.slot) : (l.storeCheckpoint next).Holds rows slots := by
  cases next with
  | none => exact h
  | some c => exact h.insertCheckpoint (hslot c rfl)

/-- A commit moves a checkpoint to its target. -/
theorem slot_of_checkMove {now : Int} {move : Option Move} {next : Option Checkpoint}
    (h : l.checkMove now move = .ok next) (hslots : ∀ m ∈ move, slots m.target) :
    ∀ c ∈ next, slots c.slot := by
  intro c hc
  cases hc
  cases move with
  | none => cases h
  | some m =>
    obtain ⟨old, -, -, -, hmoved⟩ := l.checkMove_eq_ok.1 h
    cases hmoved
    exact hslots m rfl

theorem Holds.commit (h : l.Holds rows slots) (now : Int) {c : Commit}
    (hrows : ∀ e ∈ c.entries, rows e.record)
    (hslots : ∀ s ∈ (StoreCall.commit c).slots, slots s) :
    (l.commit now c).2.Holds rows slots := by
  simp only [StoreCall.slots, List.mem_append, List.mem_map, List.mem_flatMap,
    Option.mem_toList] at hslots
  cases hmove : l.checkMove now c.move with
  | error f => rwa [l.commit_of_error hmove]
  | ok next =>
    have hwritten : (l.written c.entries).Holds rows slots :=
      h.written hrows fun e he => hslots _ (.inl (.inl ⟨e, he, rfl⟩))
    have hquarantined := hwritten.quarantineAll fun q hq => hslots _ (.inl (.inr ⟨q, hq, rfl⟩))
    rw [l.commit_of_ok hmove]
    refine hquarantined.storeCheckpoint (slot_of_checkMove hmove fun m hm => ?_)
    exact hslots _ (.inr ⟨m, hm, by simp⟩)

theorem Holds.finalizeThrough (h : l.Holds rows slots) (boundary : Slot) :
    (l.finalizeThrough boundary).2.Holds rows slots := by
  refine ⟨fun S hS => h.marked S (Std.ExtTreeMap.mem_of_mem_filter hS), h.row, fun S s hS => ?_,
    h.entry, h.checkpoint⟩
  have hmarks : (l.finalizeThrough boundary).2.marks =
      l.marks.filter fun _ slot => boundary < slot := rfl
  rw [hmarks, Std.ExtTreeMap.getElem?_filter', Option.filter_eq_some_iff] at hS
  exact h.mark S s hS.1

theorem Holds.orphan (h : l.Holds rows slots) (S : Signature) (s : Slot) :
    (l.orphan S s).2.Holds rows slots := by
  by_cases hmark : l.marks[S]? = some s
  · rw [l.orphan_of_eq hmark]
    refine ⟨fun T hT => ?_, fun T row hrow => ?_, fun T t ht => ?_, h.entry, h.checkpoint⟩
    · obtain ⟨hne, hT⟩ := Std.ExtTreeMap.mem_erase.1 hT
      exact Std.ExtTreeMap.mem_erase.2 ⟨hne, h.marked T hT⟩
    · rw [Std.ExtTreeMap.getElem?_erase] at hrow
      split at hrow
      · cases hrow
      · exact h.row T row hrow
    · rw [Std.ExtTreeMap.getElem?_erase] at ht
      split at ht
      · cases ht
      · exact h.mark T t ht
  · rwa [l.orphan_of_ne hmark]

/-- Everything that is kept was brought by some call. -/
theorem Holds.answer (h : l.Holds rows slots) (now : Int) {call : StoreCall}
    (hrows : ∀ row ∈ call.records, rows row) (hslots : ∀ s ∈ call.slots, slots s) :
    (l.answer now call).2.Holds rows slots := by
  cases call with
  | start id genesis => exact h.start id (hslots _ (List.mem_cons_self ..)) now
  | advance m => exact h.advance (hslots _ (by simp [StoreCall.slots])) now
  | upsert e =>
    exact h.upsert (hrows _ (List.mem_cons_self ..)) (hslots _ (List.mem_cons_self ..))
  | upsertAll entries =>
    change (l.upsertAll entries).2.Holds rows slots
    rw [upsertAll_snd]
    exact h.written (fun e he => hrows _ (List.mem_map_of_mem he))
      fun e he => hslots _ (List.mem_map_of_mem he)
  | commit c => exact h.commit now (fun e he => hrows _ (List.mem_map_of_mem he)) hslots
  | moveMark S s => exact h.moveMark S (hslots _ (List.mem_cons_self ..))
  | orphan S s => exact h.orphan S s
  | finalizeThrough boundary => exact h.finalizeThrough boundary
  | _ => exact h

theorem holds_empty : Ledger.empty.Holds rows slots := by
  constructor <;> simp [Ledger.empty]

inductive Attained : Ledger → Prop
  | empty : Attained .empty
  | answer {l : Ledger} (before : Attained l) (now : Int) (call : StoreCall) :
      Attained (l.answer now call).2

abbrev Regular (l : Ledger) : Prop := l.Holds (fun _ => True) fun _ => True

theorem Attained.regular (h : l.Attained) : l.Regular := by
  induction h with
  | empty => exact holds_empty
  | answer before now call ih => exact ih.answer now (fun _ _ => trivial) fun _ _ => trivial

/-- A program that runs alone only calls. -/
theorem Attained.run {α : Type} (h : l.Attained) (host : Shared.Host) (p : Program α) :
    (host.around.run l p).2.Attained := by
  induction p generalizing l with
  | done a => exact h
  | ask r next ih =>
    cases r with
    | store call => exact ih _ (h.answer host.now call)
    | _ => exact ih _ h

def afterCalls (l : Ledger) (now : Int) (calls : List StoreCall) : Ledger :=
  calls.foldl (fun l call => (l.answer now call).2) l

theorem Attained.afterCalls (h : l.Attained) (now : Int) (calls : List StoreCall) :
    (l.afterCalls now calls).Attained := by
  induction calls generalizing l with
  | nil => exact h
  | cons call rest ih => exact ih (h.answer now call)

end Ledger

theorem Instant.inRange_zero : Instant.InRange 0 := by decide

theorem Instant.nanosFit_zero : Instant.NanosFit 0 0 := by decide

def Instant.epoch : Instant := ⟨0, 0, inRange_zero, nanosFit_zero⟩

end RouterHistory
