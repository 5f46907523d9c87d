import RouterHistory.Proofs.Shared.Law
import RouterHistory.Proofs.Shared.Play
import RouterHistory.Proofs.Store.Standing

/-!
Observations that a cycle does not know of. A cycle reads a transaction from the source and writes
it later, and a pipeline may store a newer observation in between. The removal of a row is
conditional on the slot of its mark, but the other writes of a cycle are not: what the cycle still
writes for the signature is what it read before, at most once, and the newer observation is kept
if and only if that is the same.
-/
namespace RouterHistory.Reconciliation

open Shared Reconciler

/-- Any pipelines and cycles over a source that may change its answers at any time, as long as it
resolves a signature as a transaction of that signature. Calls may fail without effect. -/
def reorganising : Site where
  source
    | .resolve S => fun verdict => ∀ tx, verdict = Verdict.canonical tx → tx.signature = S
    | _ => fun _ => True
  failing := True
  lossy := False
  settings _ := True
  reconcilers _ := True

/-- The source told of a transaction with this signature: it resolved the signature as this
transaction, or delivered it in slots that were fetched again. -/
inductive Told (past : List Call) (S : Signature) (tx : Transaction) : Prop
  | resolved {l : Ledger}
      (mem : ⟨.source (.resolve S), Except.ok (Verdict.canonical tx), l⟩ ∈ past)
  | delivered {first last : Slot} {programIds : List String} {raw : List Delivery} {l : Ledger}
      (mem : ⟨.source (.slots first last programIds), Except.ok raw, l⟩ ∈ past)
      (held : tx ∈ Gapless.transactions first last raw) (same : tx.signature = S)

/-- The row and the slot that a call gives to a signature; moving a mark gives no row. -/
inductive Puts (S : Signature) : StoreCall → Option Record → Slot → Prop
  | upsert {row : Record} {slot : Slot} (same : row.signature = S) :
      Puts S (.upsert ⟨row, slot⟩) (some row) slot
  | moveMark (slot : Slot) : Puts S (.moveMark S slot) none slot
  | commit {batch : Commit} {e : Entry} (mem : e ∈ batch.entries) (same : e.signature = S) :
      Puts S (.commit batch) (some e.record) e.slot

def Writes (S : Signature) (c : Call) (v : Option Record) (t : Slot) : Prop :=
  ∃ call a l, c = ⟨.store call, Except.ok a, l⟩ ∧ Puts S call v t

abbrev Cycle (r : Reconciler) (past : List Call) (l : Ledger) : Prop :=
  Recorded .none reorganising r.CycleRule past l

variable {r : Reconciler} {past older q : List Call} {S : Signature} {l l' : Ledger} {c : Call}

theorem Told.of_suffix {tx : Transaction} (h : Told past S tx) (hq : past <:+ q) :
    Told q S tx := by
  cases h with
  | resolved mem => exact .resolved (hq.subset mem)
  | delivered mem held same => exact .delivered (hq.subset mem) held same

/-- The latest call is not what told it, if it is one of the store. -/
theorem Told.of_cons {tx : Transaction} {call : StoreCall}
    {a : (Request.store call).Answer} (h : Told (⟨.store call, a, l⟩ :: older) S tx) :
    Told older S tx := by
  cases h with
  | resolved mem =>
    rcases List.mem_cons.1 mem with heq | mem
    · cases heq
    · exact .resolved mem
  | delivered mem held same =>
    rcases List.mem_cons.1 mem with heq | mem
    · cases heq
    · exact .delivered mem held same

/-- As long as no slots were fetched again, a signature is resolved as the transaction that the
cycle was told of. -/
theorem Cycle.verdict_eq (h : Cycle r past l) (unfetched : Unfetched past) {tx : Transaction}
    (told : Told past S tx) {mark : Mark} {verdict : Verdict}
    (resolved : Resolution past mark verdict) (hS : mark.signature = S) :
    verdict = .canonical tx := by
  subst hS
  cases told with
  | delivered mem held same => exact absurd rfl (unfetched _ _ _ _ mem)
  | resolved mem =>
    obtain ⟨newer, l₀, older, -, rfl⟩ := resolved
    have hcall := h.unique CycleRule.once_of_resolve mem
      (List.mem_append_right newer (List.mem_cons_self ..)) rfl rfl
    simp only [Call.mk.injEq, heq_eq_eq, Except.ok.injEq, true_and] at hcall
    exact hcall.1.symm

theorem Cycle.signature_eq (h : Cycle r past l) {mark : Mark} {tx : Transaction}
    (resolved : Resolution past mark (.canonical tx)) : tx.signature = mark.signature := by
  obtain ⟨newer, l₀, older, -, rfl⟩ := resolved
  exact h.told_by_source (List.mem_append_right newer (List.mem_cons_self ..)) tx rfl

/-- Holds of a call that gives a signature at most one row and slot. -/
def Plain : StoreCall → Prop
  | .commit batch => (batch.entries.map Entry.signature).Nodup ∧ batch.move = none
  | _ => True

theorem plain_of_rule {call : StoreCall} (h : r.CycleRule past (.store call)) : Plain call := by
  cases h with
  | commit now unrecorded nodup hsome => exact ⟨Sorted.nodup_entries nodup, rfl⟩
  | _ => trivial

theorem Puts.touches {call : StoreCall} {v : Option Record} {t : Slot} (h : Puts S call v t) :
    call.Touches S := by
  cases h with
  | upsert same => exact same
  | moveMark => rfl
  | commit mem same => exact ⟨_, mem, same⟩

theorem Puts.unique {call : StoreCall} {v v' : Option Record} {t t' : Slot} (plain : Plain call)
    (h : Puts S call v t) (h' : Puts S call v' t') : v' = v ∧ t' = t := by
  cases h with
  | upsert same => cases h'; exact ⟨rfl, rfl⟩
  | moveMark => cases h'; exact ⟨rfl, rfl⟩
  | commit mem same =>
    cases h' with
    | commit mem' same' =>
      rw [List.inj_on_of_nodup_map plain.1 mem' mem (same'.trans same.symm)]
      exact ⟨rfl, rfl⟩

/-- It takes effect on a signature that is provisional. -/
theorem Puts.standing {call : StoreCall} {v : Option Record} {t : Slot} (plain : Plain call)
    (h : Puts S call v t) {row : Record} {slot : Slot}
    (hl : l.standing S = (some row, some slot)) (now : Int) :
    (l.answer now call).2.standing S = (some (v.getD row), some t) := by
  have hmark : l.marks[S]? = some slot := (Prod.mk.inj hl).2
  cases h with
  | @upsert row' t same =>
    subst same
    have hnodup : ([Entry.mk row' t].map Entry.signature).Nodup := List.nodup_singleton _
    exact Ledger.standing_written_of_provisional hnodup (List.mem_singleton_self _) hmark
  | moveMark => exact Ledger.standing_moveMark hl t
  | @commit batch e mem same =>
    subst same
    have hmove : l.checkMove now batch.move = .ok none := by
      rw [plain.2]
      rfl
    exact (Ledger.standing_commit hmove _).trans
      (Ledger.standing_written_of_provisional plain.1 mem hmark)

/-- What a write of a cycle rests on: the row was looked up just before, after the signature was
resolved, or the signature was delivered and found unseen. -/
inductive Basis (r : Reconciler) (S : Signature) (past : List Call) (v : Option Record)
    (t : Slot) :
    Prop
  | applied {a : (Request.store (.record S)).Answer} {l : Ledger} {before : List Call}
      {mark : Mark} {tx : Transaction} (read : past = ⟨.store (.record S), a, l⟩ :: before)
      (resolved : Resolution before mark (.canonical tx)) (same : mark.signature = S)
      (slot : tx.slot = t) (row : ∀ row, v = some row → r.classifier.classify tx = .ok row)
  | recovered {tx : Transaction} (unrecorded : Unrecorded r past tx) (same : tx.signature = S)
      (slot : tx.slot = t) (row : ∀ row, v = some row → r.classifier.classify tx = .ok row)

theorem Cycle.basis (h : Cycle r past l) {call : StoreCall}
    (inOrder : r.CycleRule past (.store call)) {v : Option Record} {t : Slot}
    (hputs : Puts S call v t) : Basis r S past v t := by
  cases inOrder with
  | moveMark read resolved classified moved =>
    cases hputs
    refine .applied read resolved rfl rfl ?_
    intro row heq
    cases heq
  | upsert read resolved classified differs =>
    cases hputs with
    | upsert same =>
      have hsame := Cycle.signature_eq (read ▸ h).latest.before resolved
      have hmark : _ = S := (hsame.symm.trans
        (Classifier.signature_of_classify classified).symm).trans same
      subst hmark
      refine .applied read resolved rfl rfl ?_
      intro row heq
      cases heq
      exact classified
  | commit now unrecorded nodup hsome =>
    cases hputs with
    | commit mem same =>
      obtain ⟨tx, htx, row, hrow, rfl⟩ := Sorted.mem_entries.1 mem
      have hsame : row.signature = tx.signature := Classifier.signature_of_classify hrow
      refine .recovered (unrecorded tx htx) (hsame.symm.trans same) rfl ?_
      intro row' heq
      cases heq
      exact hrow
  | _ => cases hputs

/-- After the cycle was told of a signature, it touches it only to write it. -/
theorem Cycle.puts_of_touches (h : Cycle r past l) {call : StoreCall}
    (inOrder : r.CycleRule past (.store call)) (htouches : call.Touches S) {tx : Transaction}
    (told : Told past S tx) : ∃ v t, Puts S call v t := by
  cases inOrder with
  | finalizeThrough heard =>
    subst heard
    cases told with
    | resolved mem => cases List.mem_singleton.1 mem
    | delivered mem held same => cases List.mem_singleton.1 mem
  | orphan resolved unfetched => cases Cycle.verdict_eq h unfetched told resolved htouches
  | moveMark read resolved classified moved =>
    have hS : _ = S := htouches
    subst hS
    exact ⟨_, _, .moveMark _⟩
  | upsert read resolved classified differs => exact ⟨_, _, .upsert htouches⟩
  | commit now unrecorded nodup hsome =>
    obtain ⟨e, he, hsame⟩ := htouches
    exact ⟨_, _, .commit he hsame⟩
  | _ => exact absurd htouches id

/-- A write that rests on a look-up is the first of its signature in the cycle. -/
theorem Cycle.not_writes_of_read {a : (Request.store (.record S)).Answer} {l₀ : Ledger}
    {before : List Call} (h : Cycle r (⟨.store (.record S), a, l₀⟩ :: before) l)
    (hc : c ∈ (⟨.store (.record S), a, l₀⟩ :: before : List Call)) (v : Option Record)
    (t : Slot) :
    ¬ Writes S c v t := by
  intro hwrites
  obtain ⟨call, a', l', rfl, hputs⟩ := hwrites
  obtain ⟨once, unfetched⟩ := h.latest.inOrder.once_of_record
  rcases List.mem_cons.1 hc with heq | hc
  · cases heq
    cases hputs
  · obtain ⟨older, hsuffix, hentry⟩ := h.latest.before.entry_of_mem hc
    cases Cycle.basis hentry.before hentry.inOrder hputs with
    | applied read resolved same slot row =>
      subst read
      exact once _ (hsuffix.subset (List.mem_cons_self ..)) rfl
    | recovered unrecorded same slot row =>
      obtain ⟨newer, l₁, older', ⟨newer', listed, l₂, older'', hdelivered, -, rfl⟩, -, rfl⟩ :=
        unrecorded
      obtain ⟨first, last, raw, l₃, -, hraw, -⟩ := hdelivered
      have hfetched := hsuffix.subset (List.mem_append_right newer (List.mem_cons_of_mem _
        (List.mem_append_right newer' (List.mem_cons_of_mem _ hraw))))
      exact unfetched _ _ _ _ hfetched rfl

/-- If the row was there since some point, a signature that the cycle found unseen was looked up
before that point, and since then the cycle only looked. -/
theorem Cycle.looks_of_unrecorded {new : List Call} (h : Cycle r (new ++ past) l)
    (seen : ∀ c ∈ new, S ∈ c.ledger.rows) {tx : Transaction}
    (unrecorded : Unrecorded r (new ++ past) tx) (same : tx.signature = S) :
    (∀ c ∈ new, Looks c.request) ∧ Told past S tx := by
  subst same
  obtain ⟨newer, l₀, older, hunlisted, hlooks, hsplit⟩ := unrecorded
  have hunseen : tx.signature ∉ l₀.rows := by
    obtain ⟨now, htold⟩ := (hsplit ▸ h).entry.told_by_store
    exact ((Ledger.lifecycle_eq_unseen l₀).1 (Except.ok.inj htold)).2
  have htold : Told older tx.signature tx := by
    obtain ⟨newer', listed, l₁, older', ⟨first, last, raw, l₂, -, hraw, hheld, -⟩, -, rfl⟩ :=
      hunlisted
    exact .delivered (List.mem_append_right _ (List.mem_cons_of_mem _ hraw)) hheld rfl
  rcases List.append_eq_append_iff.1 hsplit with ⟨gap, hnewer, hpast⟩ | ⟨gap, hnew, hrest⟩
  · refine ⟨fun c hc => hlooks c (hnewer ▸ List.mem_append_left _ hc), htold.of_suffix ?_⟩
    rw [hpast]
    exact (List.suffix_cons _ older).trans (List.suffix_append gap _)
  · cases gap with
    | nil =>
      rw [List.append_nil] at hnew
      rw [List.nil_append] at hrest
      refine ⟨fun c hc => hlooks c (hnew ▸ hc), htold.of_suffix ?_⟩
      rw [← hrest]
      exact List.suffix_cons _ older
    | cons c gap =>
      rw [List.cons_append, List.cons.injEq] at hrest
      obtain ⟨rfl, -⟩ := hrest
      have hc := seen _ (hnew ▸ List.mem_append_right newer (List.mem_cons_self ..))
      exact absurd hc hunseen

inductive Stands (S : Signature) (row : Record) (slot : Slot) (new : List Call) (l : Ledger) :
    Prop
  | untouched (nothing : ∀ c ∈ new, ∀ v t, ¬ Writes S c v t)
      (standing : l.standing S = (some row, some slot))
  | written {c : Call} {v : Option Record} {t : Slot} (mem : c ∈ new) (writes : Writes S c v t)
      (only : ∀ c' ∈ new, ∀ v' t', Writes S c' v' t' → v' = v ∧ t' = t)
      (standing : l.standing S = (some (v.getD row), some t))

structure Since (r : Reconciler) (past : List Call) (S : Signature) (row : Record) (slot : Slot)
    (new : List Call) (l : Ledger) : Prop where
  seen : ∀ c ∈ new, S ∈ c.ledger.rows
  told : ∀ c ∈ new, ∀ v t, Writes S c v t → ∃ tx, Told past S tx ∧ tx.slot = t ∧
    ∀ row, v = some row → r.classifier.classify tx = .ok row
  stands : Stands S row slot new l

section Since

variable {row : Record} {slot : Slot} {new : List Call}

theorem Stands.present (h : Stands S row slot new l) : S ∈ l.rows := by
  have hrow : ∃ row', l.rows[S]? = some row' := by
    cases h with
    | untouched nothing standing => exact ⟨row, (Prod.mk.inj standing).1⟩
    | @written c v t mem writes only standing => exact ⟨v.getD row, (Prod.mk.inj standing).1⟩
  obtain ⟨row', hrow⟩ := hrow
  rw [Std.ExtTreeMap.mem_iff_isSome_getElem?, hrow]
  rfl

theorem Stands.of_standing (h : Stands S row slot new l) (hl : l'.standing S = l.standing S) :
    Stands S row slot new l' := by
  cases h with
  | untouched nothing standing => exact .untouched nothing (hl.trans standing)
  | written mem writes only standing => exact .written mem writes only (hl.trans standing)

/-- A call that leaves the signature alone changes nothing of this. -/
theorem Since.of_not_writes (h : Since r past S row slot new l) {q : Request} {a : q.Answer}
    (hno : ∀ v t, ¬ Writes S ⟨q, a, l⟩ v t) (hl : l'.standing S = l.standing S) :
    Since r past S row slot (⟨q, a, l⟩ :: new) l' := by
  refine ⟨fun c hc => ?_, fun c hc v t hw => ?_, ?_⟩
  · rcases List.mem_cons.1 hc with rfl | hc
    · exact h.stands.present
    · exact h.seen c hc
  · rcases List.mem_cons.1 hc with rfl | hc
    · exact absurd hw (hno v t)
    · exact h.told c hc v t hw
  · cases h.stands with
    | untouched nothing standing =>
      refine .untouched (fun c hc v t hw => ?_) (hl.trans standing)
      rcases List.mem_cons.1 hc with rfl | hc
      · exact hno v t hw
      · exact nothing c hc v t hw
    | @written w v t mem writes only standing =>
      refine .written (List.mem_cons_of_mem _ mem) writes (fun c hc v' t' hw => ?_)
        (hl.trans standing)
      rcases List.mem_cons.1 hc with rfl | hc
      · exact absurd hw (hno v' t')
      · exact only c hc v' t' hw

/-- Whatever a write rests on, the cycle did not write the signature since the observation, and
what it writes is what it was told before. -/
theorem Since.first_write (h : Since r past S row slot new l) (hcycle : Cycle r (new ++ past) l)
    {tx₀ : Transaction} (told : Told past S tx₀) {call : StoreCall}
    (inOrder : r.CycleRule (new ++ past) (.store call)) {v : Option Record} {t : Slot}
    (hputs : Puts S call v t) :
    (∀ c ∈ new, ∀ v t, ¬ Writes S c v t) ∧ ∃ tx, Told past S tx ∧ tx.slot = t ∧
      ∀ row, v = some row → r.classifier.classify tx = .ok row := by
  cases Cycle.basis hcycle inOrder hputs with
  | @applied a l₀ before mark tx read resolved same htx hrow =>
    rw [read] at hcycle
    constructor
    · intro c hc
      exact Cycle.not_writes_of_read hcycle (read ▸ List.mem_append_left past hc)
    · have hfetched := hcycle.latest.inOrder.once_of_record.2
      have htold : Told before S tx₀ :=
        Told.of_cons (read ▸ told.of_suffix (List.suffix_append new past))
      cases Cycle.verdict_eq hcycle.latest.before hfetched htold resolved same
      exact ⟨_, told, htx, hrow⟩
  | @recovered tx unrecorded same htx hrow =>
    obtain ⟨hlooks, htold⟩ := Cycle.looks_of_unrecorded hcycle h.seen unrecorded same
    refine ⟨?_, tx, htold, htx, hrow⟩
    intro c hc v' t' hwrites
    obtain ⟨call', a', l₀, rfl, hputs'⟩ := hwrites
    have hlook := hlooks _ hc
    cases hputs' with
    | _ => cases hlook

/-- The cycle writes the signature at most once more. -/
theorem Since.writes (h : Since r past S row slot new l) (hcycle : Cycle r (new ++ past) l)
    {tx₀ : Transaction} (told : Told past S tx₀) {call : StoreCall}
    (inOrder : r.CycleRule (new ++ past) (.store call)) {v : Option Record} {t : Slot}
    (hputs : Puts S call v t) (now : Int) {a : call.Answer} :
    Since r past S row slot (⟨.store call, Except.ok a, l⟩ :: new) (l.answer now call).2 := by
  have hplain := plain_of_rule inOrder
  obtain ⟨hnothing, htold⟩ := h.first_write hcycle told inOrder hputs
  have hstanding : l.standing S = (some row, some slot) := by
    cases h.stands with
    | untouched nothing standing => exact standing
    | @written c v' t' mem writes only standing => exact absurd writes (hnothing c mem v' t')
  have hsame : ∀ v' t', Writes S ⟨.store call, Except.ok a, l⟩ v' t' → v' = v ∧ t' = t := by
    intro v' t' hwrites
    obtain ⟨call', a', l₀, heq, hputs'⟩ := hwrites
    cases heq
    exact hputs.unique hplain hputs'
  refine ⟨fun c hc => ?_, fun c hc v' t' hw => ?_, ?_⟩
  · rcases List.mem_cons.1 hc with rfl | hc
    · exact h.stands.present
    · exact h.seen c hc
  · rcases List.mem_cons.1 hc with rfl | hc
    · obtain ⟨rfl, rfl⟩ := hsame v' t' hw
      exact htold
    · exact absurd hw (hnothing c hc v' t')
  · refine .written (List.mem_cons_self ..) ⟨call, a, l, rfl, hputs⟩ (fun c hc v' t' hw => ?_)
      (hputs.standing hplain hstanding now)
    rcases List.mem_cons.1 hc with rfl | hc
    · exact hsame v' t' hw
    · exact absurd hw (hnothing c hc v' t')

/-- The signature stands as observed if and only if what was written agrees. -/
theorem Stands.kept_iff (h : Stands S row slot new l) :
    l.standing S = (some row, some slot) ↔
      ∀ c ∈ new, ∀ v t, Writes S c v t → v.getD row = row ∧ t = slot := by
  cases h with
  | untouched nothing standing =>
    exact ⟨fun _ c hc v t hw => absurd hw (nothing c hc v t), fun _ => standing⟩
  | @written c v t mem writes only standing =>
    rw [standing]
    constructor
    · intro heq c' hc' v' t' hw
      obtain ⟨rfl, rfl⟩ := only c' hc' v' t' hw
      simpa using heq
    · intro hagrees
      obtain ⟨hrow, hslot⟩ := hagrees c mem v t writes
      rw [hrow, hslot]

end Since

/-- The cycle at a place goes on, and nobody else moves the signature. -/
inductive Undisputed (site : Site) (i : Nat) (S : Signature) : State → State → Prop
  | refl (σ : State) : Undisputed site i S σ σ
  | step {σ σ' σ'' : State} {j : Nat} (before : Undisputed site i S σ σ')
      (h : Step site σ' j σ'') (stays : σ''.workers i ≠ none)
      (aside : j ≠ i → σ''.ledger.standing S = σ'.ledger.standing S) :
      Undisputed site i S σ σ''

structure Continues (r : Reconciler) (past : List Call) (S : Signature) (row : Record)
    (slot : Slot)
    (i : Nat) (new : List Call) (rest : Program (Except Failure CycleReport)) (σ : State) :
    Prop where
  busy : σ.workers i = some (.cycling (new ++ past) rest)
  cycle : Cycle r (new ++ past) σ.ledger
  follows : rest.Follows reorganising r.CycleRule (fun _ _ => True) (new ++ past)
  since : Since r past S row slot new σ.ledger

variable {row : Record} {slot : Slot} {i j : Nat} {σ σ' : State}

theorem Puts.succeeds {call : StoreCall} {v : Option Record} {t : Slot} (plain : Plain call)
    (h : Puts S call v t) (now : Int) : ∃ a, (l.answer now call).1 = .ok a := by
  cases h with
  | upsert same => exact ⟨_, rfl⟩
  | moveMark => exact ⟨_, rfl⟩
  | @commit batch e mem same =>
    have hmove : l.checkMove now batch.move = .ok none := by
      rw [plain.2]
      rfl
    obtain ⟨tally, hcommit⟩ := l.exists_receipt hmove
    exact ⟨_, congrArg Prod.fst hcommit⟩

/-- One more call of the cycle. -/
theorem Since.call {new : List Call} (h : Since r past S row slot new l)
    (hcycle : Cycle r (new ++ past) l) {tx : Transaction} (told : Told past S tx) {q : Request}
    {a : q.Answer} (inOrder : r.CycleRule (new ++ past) q)
    (answered : Answered reorganising l q a l') :
    Since r past S row slot (⟨q, a, l⟩ :: new) l' := by
  cases answered with
  | @store call now =>
    by_cases htouches : call.Touches S
    · obtain ⟨v, t, hputs⟩ := Cycle.puts_of_touches hcycle inOrder htouches
        (told.of_suffix (List.suffix_append new past))
      obtain ⟨a, ha⟩ := hputs.succeeds (l := l) (plain_of_rule inOrder) now
      rw [ha]
      exact h.writes hcycle told inOrder hputs now
    · refine h.of_not_writes ?_ (Ledger.standing_answer htouches)
      intro v t hwrites
      obtain ⟨call', a', l₀, heq, hputs⟩ := hwrites
      simp only [Call.mk.injEq, Request.store.injEq] at heq
      obtain ⟨rfl, -, -⟩ := heq
      exact htouches hputs.touches
  | receiptLost now reason lossy => exact lossy.elim
  | _ =>
    refine h.of_not_writes ?_ rfl
    intro v t hwrites
    obtain ⟨call', a', l₀, heq, hputs⟩ := hwrites
    cases heq

/-- A step at one place leaves the workers at the others alone. -/
theorem workers_of_ne {site : Site} (h : Step site σ j σ') (hji : j ≠ i) :
    σ'.workers i = σ.workers i := by
  cases h with
  | _ => exact Function.update_of_ne (Ne.symm hji) _ _

theorem Continues.step {new : List Call} {rest : Program (Except Failure CycleReport)}
    (h : Continues r past S row slot i new rest σ) {tx : Transaction} (told : Told past S tx)
    (step : Step reorganising σ j σ') (stays : σ'.workers i ≠ none)
    (aside : j ≠ i → σ'.ledger.standing S = σ.ledger.standing S) :
    ∃ new' rest', Continues r past S row slot i new' rest' σ' := by
  by_cases hji : j = i
  · subst hji
    cases step with
    | joins window free allowed => rw [h.busy] at free; cases free
    | cycles turns free allowed => rw [h.busy] at free; cases free
    | leaves => exact absurd (Function.update_self ..) stays
    | moves busy move =>
      rw [h.busy] at busy
      cases busy
      cases move with
      | cycleAsks answered =>
        obtain ⟨inOrder, hnext⟩ := h.follows
        exact ⟨_ :: new, _, Function.update_self ..,
          .call h.cycle inOrder trivial answered trivial trivial, hnext _ _ _ answered,
          h.since.call h.cycle told inOrder answered⟩
  · have hsame := aside hji
    refine ⟨new, rest, (workers_of_ne step hji).trans h.busy, h.cycle.grow trivial, h.follows,
      h.since.seen, h.since.told, h.since.stands.of_standing hsame⟩

theorem Continues.run {new : List Call} {rest : Program (Except Failure CycleReport)}
    (h : Continues r past S row slot i new rest σ) {tx : Transaction} (told : Told past S tx)
    (run : Undisputed reorganising i S σ σ') :
    ∃ new' rest', Continues r past S row slot i new' rest' σ' := by
  induction run with
  | refl => exact ⟨new, rest, h⟩
  | step before hstep stays aside ih =>
    obtain ⟨new', rest', h'⟩ := ih
    exact h'.step told hstep stays aside

/-- An ingestion commit that moves a signature leaves it provisional. -/
theorem provisional_of_ingested {l₀ : Ledger} (reached : Reachable reorganising l₀ σ)
    {past' : List Call} {rest' : Program (Except Failure StepOutcome × Pipeline)}
    (ingests : σ.workers j = some (.stepping past' rest')) (step : Step reorganising σ j σ')
    (wrote : σ'.ledger.standing S ≠ σ.ledger.standing S) :
    ∃ row slot, σ'.ledger.standing S = (some row, some slot) := by
  cases step with
  | joins | cycles | leaves => exact absurd rfl wrote
  | moves busy move =>
    have conducted := reached.conducted busy
    rw [ingests] at busy
    cases busy
    cases move with
    | rests => exact absurd rfl wrote
    | asks answered =>
      cases conducted with
      | @stepping _ _ s allowed recorded follows =>
        have inOrder := follows.1
        cases answered with
        | receiptLost now reason lossy => exact lossy.elim
        | @store call now =>
          by_cases htouches : call.Touches S
          · cases inOrder with
            | start => exact htouches.elim
            | @commit position last raw stamp fetched =>
              obtain ⟨e, he, rfl⟩ := htouches
              have hnodup : ((s.commitOf position last raw stamp).entries.map
                  Entry.signature).Nodup := Sorted.nodup_entries Settings.nodup_transactionsOf
              rcases Ledger.standing_commit_of_mem (l := σ.ledger) now hnodup he with hput | hsame
              · exact ⟨_, _, hput⟩
              · exact absurd hsame wrote
          · exact absurd (Ledger.standing_answer htouches) wrote
        | _ => exact absurd rfl wrote

/-- Right after the observation the cycle has done nothing yet. -/
theorem exists_continues {l₀ : Ledger} (reached : Reachable reorganising l₀ σ)
    {rest : Program (Except Failure CycleReport)}
    (cycles : σ.workers i = some (.cycling past rest))
    (step : Step reorganising σ j σ') (hji : j ≠ i)
    (hstanding : σ'.ledger.standing S = (some row, some slot)) :
    ∃ r, Continues r past S row slot i [] rest σ' := by
  cases reached.conducted cycles with
  | @cycling _ _ r allowed recorded follows =>
    refine ⟨r, (workers_of_ne step hji).trans cycles, recorded.grow trivial,
      Program.follows_imp follows fun _ _ _ => trivial, ?_⟩
    exact ⟨by simp, by simp, .untouched (by simp) hstanding⟩

/-- When a pipeline stores a newer observation of a signature that the cycle was told of, and
nobody else moves the signature afterwards, the observation is kept if and only if each later
write of the cycle for the signature agrees with it, and what the cycle writes is what it was
told before. -/
theorem observation_kept_iff_agrees {l₀ : Ledger} {σ₁ σ₂ σ₃ : State}
    (reached : Reachable reorganising l₀ σ₁) {rest : Program (Except Failure CycleReport)}
    (cycles : σ₁.workers i = some (.cycling past rest)) {tx : Transaction}
    (told : Told past S tx) {past' : List Call}
    {rest' : Program (Except Failure StepOutcome × Pipeline)}
    (ingests : σ₁.workers j = some (.stepping past' rest')) (commits : Step reorganising σ₁ j σ₂)
    (wrote : σ₂.ledger.standing S ≠ σ₁.ledger.standing S)
    (run : Undisputed reorganising i S σ₂ σ₃) {result : Except Failure CycleReport}
    (ended : σ₃.workers i = some (.cycling q (.done result))) :
    ∃ new row slot, q = new ++ past ∧ σ₂.ledger.standing S = (some row, some slot) ∧
      (σ₃.ledger.standing S = (some row, some slot) ↔
        ∀ c ∈ new, ∀ v t, Writes S c v t → v.getD row = row ∧ t = slot) ∧
      ∃ k : Classifier, ∀ c ∈ new, ∀ v t, Writes S c v t → ∃ tx, Told past S tx ∧ tx.slot = t ∧
        ∀ row, v = some row → k.classify tx = .ok row := by
  obtain ⟨row, slot, hstanding⟩ := provisional_of_ingested reached ingests commits wrote
  have hji : j ≠ i := by
    intro hsame
    subst hsame
    rw [cycles] at ingests
    cases ingests
  obtain ⟨r, hstart⟩ := exists_continues reached cycles commits hji hstanding
  obtain ⟨new, rest₃, hend⟩ := hstart.run told run
  have hq : q = new ++ past := by
    have hbusy := hend.busy
    rw [ended] at hbusy
    cases hbusy
    rfl
  exact ⟨new, row, slot, hq, hstanding, hend.since.stands.kept_iff, r.classifier, hend.since.told⟩

def isToldOf (S : Signature) : Option Worker → Bool
  | some (.cycling past _) => past.any fun
      | ⟨.source (.resolve T), .ok (.canonical _), _⟩ => T = S
      | _ => false
  | _ => false

theorem told_of_isToldOf {w : Option Worker} (h : isToldOf S w = true) :
    ∃ past rest tx, w = some (.cycling past rest) ∧ Told past S tx := by
  unfold isToldOf at h
  split at h
  · next past rest =>
    obtain ⟨c, hc, hcall⟩ := List.any_eq_true.1 h
    split at hcall
    · next T tx l =>
      have hT : T = S := by simpa using hcall
      subst hT
      exact ⟨past, rest, tx, rfl, .resolved hc⟩
    · cases hcall
  · cases h

def isIngesting : Option Worker → Bool
  | some (.stepping _ _) => true
  | _ => false

theorem stepping_of_isIngesting {w : Option Worker} (h : isIngesting w = true) :
    ∃ past rest, w = some (.stepping past rest) := by
  unfold isIngesting at h
  split at h
  · exact ⟨_, _, rfl⟩
  · cases h

/-- Letting the cycle go on by itself disputes nothing. -/
theorem Undisputed.goOn {site : Site} {host : Host} (suits : host.Suits site)
    (before : Undisputed site i S σ σ') (busy : σ'.workers i ≠ none) (n : Nat) :
    Undisputed site i S σ (σ'.playAll (List.replicate n (i, .goOn host))) := by
  induction n generalizing σ' with
  | zero => exact before
  | succ n ih =>
    have hbusy : (σ'.play i (.goOn host)).workers i ≠ none := State.busy_goOn busy
    refine ih ?_ hbusy
    have suits' : (Action.goOn host).Suits site := suits
    rcases σ'.play_step i suits' with hsame | hstep
    · rw [hsame]
      exact before
    · exact .step before hstep hbusy fun hne => absurd rfl hne

def movingSignature : Signature := ⟨String.ofList (List.replicate 64 '1')⟩

def chainTo (slot : Slot) (time : Int) : Host where
  source
    | .head => slot
    | .slots _ _ _ => ([⟨slot, some "b", none, some time,
        [⟨movingSignature, slot, some time, none, [⟨"router", "2"⟩], []⟩]⟩] : List Delivery)
    | .resolve S => .canonical ⟨S, slot, some time, none, [⟨"router", "2"⟩], []⟩
  now := 0

/-- The transaction is ingested in slot one and resolved there by a cycle; then it is in slot two,
and the pipeline is about to store that. -/
def observing : State :=
  let early (i : Nat) : Nat × Action := (i, .goOn (chainTo 1 1700000001))
  let late (i : Nat) : Nat × Action := (i, .goOn (chainTo 2 1700000002))
  (State.idle .empty).playAll ([(0, .join slotwise ⟨1, []⟩)] ++ List.replicate 7 (early 0) ++
    [(1, .cycle (.ofSettings slotwise))] ++ List.replicate 4 (early 1) ++
      List.replicate 3 (late 0))

def observed : State := observing.play 0 (.goOn (chainTo 2 1700000002))

def reverted : State :=
  observed.playAll (List.replicate 8 (1, .goOn (chainTo 2 1700000002)))

theorem suits_chainTo (slot : Slot) (time : Int) : (chainTo slot time).Suits reorganising := by
  intro call
  cases call with
  | resolve S =>
    intro tx htx
    cases htx
    rfl
  | _ => trivial

theorem reachable_observing : Reachable reorganising .empty observing := by
  have settings : reorganising.settings slotwise := trivial
  have reconcilers : reorganising.reconcilers (.ofSettings slotwise) := trivial
  refine Reachable.idle.playAll ?_
  simp [or_imp, forall_and, Action.Suits, settings, reconcilers, suits_chainTo]

theorem standing_observed_ne :
    observed.ledger.standing movingSignature ≠ observing.ledger.standing movingSignature := by
  decide +kernel

theorem step_observed : Step reorganising observing 0 observed := by
  have suits : (Action.goOn (chainTo 2 1700000002)).Suits reorganising := suits_chainTo _ _
  rcases observing.play_step 0 suits with hsame | hstep
  · exact absurd (congrArg (fun σ => σ.ledger.standing movingSignature) hsame)
      standing_observed_ne
  · exact hstep

theorem undisputed_reverted : Undisputed reorganising 1 movingSignature observed reverted := by
  refine .goOn (suits_chainTo _ _) (.refl observed) ?_ 8
  have hbusy : (observed.workers 1).isSome := by decide +kernel
  exact Option.isSome_iff_ne_none.1 hbusy

theorem told_observing : ∃ past rest tx, observing.workers 1 = some (.cycling past rest) ∧
    Told past movingSignature tx :=
  told_of_isToldOf (by decide +kernel)

theorem ingests_observing : ∃ past rest, observing.workers 0 = some (.stepping past rest) :=
  stepping_of_isIngesting (by decide +kernel)

theorem ended_reverted : ∃ past report,
    reverted.workers 1 = some (.cycling past (.done (.ok report))) := by
  have hdone : ((reverted.workers 1).bind Worker.report?).isSome := by decide +kernel
  obtain ⟨report, hreport⟩ := Option.isSome_iff_exists.1 hdone
  obtain ⟨w, hw, hwreport⟩ := Option.bind_eq_some_iff.1 hreport
  obtain ⟨past, rfl⟩ := Worker.report?_eq_some.1 hwreport
  exact ⟨past, report, hw⟩

theorem standing_reverted : reverted.ledger.standing movingSignature =
    observing.ledger.standing movingSignature := by
  decide +kernel

theorem standing_reverted_ne :
    reverted.ledger.standing movingSignature ≠ observed.ledger.standing movingSignature := by
  rw [standing_reverted]
  exact standing_observed_ne.symm

/-- The cycle puts back what it read before the newer observation. -/
theorem newer_observation_reverted : ∃ past rest tx past' rest' q result,
    Reachable reorganising .empty observing ∧
    observing.workers 1 = some (.cycling past rest) ∧ Told past movingSignature tx ∧
    observing.workers 0 = some (.stepping past' rest') ∧ Step reorganising observing 0 observed ∧
    observed.ledger.standing movingSignature ≠ observing.ledger.standing movingSignature ∧
    Undisputed reorganising 1 movingSignature observed reverted ∧
    reverted.workers 1 = some (.cycling q (.done result)) ∧
    reverted.ledger.standing movingSignature ≠ observed.ledger.standing movingSignature ∧
    reverted.ledger.standing movingSignature = observing.ledger.standing movingSignature := by
  obtain ⟨past, rest, tx, hcycles, htold⟩ := told_observing
  obtain ⟨past', rest', hingests⟩ := ingests_observing
  obtain ⟨q, report, hended⟩ := ended_reverted
  exact ⟨past, rest, tx, past', rest', q, .ok report, reachable_observing, hcycles, htold,
    hingests, step_observed, standing_observed_ne, undisputed_reverted, hended,
    standing_reverted_ne, standing_reverted⟩

theorem reverting_write_disagrees : ∃ past report row slot,
    reverted.workers 1 = some (.cycling past (.done (.ok report))) ∧
    observed.ledger.standing movingSignature = (some row, some slot) ∧
    ∃ c ∈ past, ∃ v t, Writes movingSignature c v t ∧ ¬ (v.getD row = row ∧ t = slot) := by
  obtain ⟨past, rest, tx, hcycles, htold⟩ := told_observing
  obtain ⟨past', rest', hingests⟩ := ingests_observing
  obtain ⟨q, report, hended⟩ := ended_reverted
  obtain ⟨new, row, slot, rfl, hstanding, hkept, -⟩ :=
    observation_kept_iff_agrees reachable_observing hcycles htold hingests step_observed
      standing_observed_ne undisputed_reverted hended
  refine ⟨new ++ past, report, row, slot, hended, hstanding, ?_⟩
  by_contra hagrees
  refine standing_reverted_ne ((hkept.2 fun c hc v t hw => ?_).trans hstanding.symm)
  by_contra hdiffers
  exact hagrees ⟨c, List.mem_append_left past hc, v, t, hw, hdiffers⟩

end RouterHistory.Reconciliation
