import RouterHistory.Proofs.Batch.Condensed

/-!
The block times of gapless slots. A transaction without a time of its own takes over the time of
the delivery that speaks for its slot, which need not be the delivery that it came in. If that one
alone has a time, the transaction is left without.
-/
namespace RouterHistory.Gapless

def leadingTime (raw : List Delivery) (slot : Slot) : Option Int :=
  (leading (delivered raw slot)).bind Delivery.blockTime

/-- Where a transaction comes from: the first delivery of its slot that has a copy, and the first
copy in there. -/
structure Origin (raw : List Delivery) (tx : Transaction) (d : Delivery) (copy : Transaction) :
    Prop where
  first : ∃ earlier later, delivered raw tx.slot = earlier ++ d :: later ∧
    ∀ e ∈ earlier, ∀ other ∈ e.transactions, other.signature ≠ tx.signature
  copy : d.transactions.find? (·.signature = tx.signature) = some copy

variable {first last : Slot} {raw : List Delivery} {tx copy : Transaction} {d : Delivery}

/-- The first copy in all deliveries of a slot is the first in the first delivery that has one. -/
theorem find?_copies_eq_some {slot : Slot} {S : Signature} :
    (copies raw slot).find? (·.signature = S) = some copy ↔
      ∃ earlier d later, delivered raw slot = earlier ++ d :: later ∧
        d.transactions.find? (·.signature = S) = some copy ∧
        ∀ e ∈ earlier, ∀ other ∈ e.transactions, other.signature ≠ S := by
  unfold copies
  rw [List.find?_flatMap, List.findSome?_eq_some_iff]
  simp only [List.find?_eq_none, decide_eq_true_eq, ne_eq]

theorem Origin.find?_copies (h : Origin raw tx d copy) :
    (copies raw tx.slot).find? (·.signature = tx.signature) = some copy := by
  obtain ⟨earlier, later, hdelivered, hearlier⟩ := h.first
  exact find?_copies_eq_some.2 ⟨earlier, d, later, hdelivered, h.copy, hearlier⟩

theorem blockTime_joined (raw : List Delivery) (slot : Slot) :
    (joined slot (delivered raw slot)).blockTime = leadingTime raw slot := by
  have htime := congrArg (fun header => header.2.2) (header_joined raw slot)
  refine htime.trans ?_
  unfold leadingTime
  cases leading (delivered raw slot) <;> rfl

/-- A transaction is the first copy in its slot, as it stands there. -/
theorem exists_copy_of_mem (htx : tx ∈ transactions first last raw) :
    ∃ copy, (copies raw tx.slot).find? (·.signature = tx.signature) = some copy ∧
      tx.blockTime = (copy.blockTime <|> leadingTime raw tx.slot) := by
  have hfound := mem_transactions_iff.1 htx
  obtain ⟨slot, -, hcopy, -⟩ :=
    (findSome?_eq_some_iff_lowest (Slot.pairwise_through first last)).1 hfound
  have hslot : tx.slot = slot := (signature_of_copy? hcopy).2.trans (slot_joined raw slot)
  obtain ⟨copy, hfirst, hplaced⟩ := Option.map_eq_some_iff.1 hcopy
  refine ⟨copy, ?_, ?_⟩
  · rw [hslot, ← transactions_joined]
    exact hfirst
  · rw [hslot, ← blockTime_joined, ← hplaced]
    rfl

theorem exists_origin (htx : tx ∈ transactions first last raw) :
    ∃ d copy, Origin raw tx d copy := by
  obtain ⟨copy, hcopy, -⟩ := exists_copy_of_mem htx
  obtain ⟨earlier, d, later, hdelivered, hfirst, hearlier⟩ := find?_copies_eq_some.1 hcopy
  exact ⟨d, copy, ⟨earlier, later, hdelivered, hearlier⟩, hfirst⟩

theorem Origin.blockTime_eq (h : Origin raw tx d copy) (htx : tx ∈ transactions first last raw) :
    tx.blockTime = (copy.blockTime <|> leadingTime raw tx.slot) := by
  obtain ⟨copy', hcopy, htime⟩ := exists_copy_of_mem htx
  rwa [Option.some.inj (h.find?_copies.symm.trans hcopy)]

/-- A transaction that came with a time, its own or the one of its delivery, is left without
exactly if only its delivery had one and the delivery that speaks for the slot has none. -/
theorem time_kept_iff (htx : tx ∈ transactions first last raw) :
    (∃ d copy, Origin raw tx d copy) ∧
    ∀ d copy, Origin raw tx d copy →
      tx.blockTime = (copy.blockTime <|> leadingTime raw tx.slot) ∧
      ((copy.blockTime.isSome ∨ d.blockTime.isSome → tx.blockTime.isSome) ↔
        ¬ (copy.blockTime = none ∧ d.blockTime.isSome ∧ leadingTime raw tx.slot = none)) := by
  refine ⟨exists_origin htx, fun d copy origin => ?_⟩
  have htime := origin.blockTime_eq htx
  refine ⟨htime, ?_⟩
  rw [htime]
  cases copy.blockTime with
  | some time => simp
  | none =>
    cases leadingTime raw tx.slot with
    | some time => simp
    | none => simp

def early : Transaction := ⟨⟨"a"⟩, 1, none, none, [], []⟩

def late : Transaction := ⟨⟨"b"⟩, 2, none, none, [], []⟩

/-- Both slots are delivered twice. The first has its transaction and its time in the second
delivery only; the second has both in its first delivery, which knows of no block yet. -/
def retold : List Delivery :=
  [⟨1, some "b1", none, none, []⟩, ⟨1, some "b1", none, some 1700000001, [early]⟩,
    ⟨2, none, none, some 1700000002, [late]⟩, ⟨2, some "b2", some "b1", none, []⟩]

theorem transactions_retold : transactions 1 2 retold = [early, late] := rfl

theorem origin_early :
    Origin retold early ⟨1, some "b1", none, some 1700000001, [early]⟩ early :=
  ⟨⟨[⟨1, some "b1", none, none, []⟩], [], rfl, by simp⟩, rfl⟩

theorem origin_late : Origin retold late ⟨2, none, none, some 1700000002, [late]⟩ late :=
  ⟨⟨[], [⟨2, some "b2", some "b1", none, []⟩], rfl, by simp⟩, rfl⟩

theorem retold_time_not_kept : ∃ d copy, Origin retold early d copy ∧
    ¬ (copy.blockTime.isSome ∨ d.blockTime.isSome → early.blockTime.isSome) := by
  have hmem : early ∈ transactions 1 2 retold := by
    rw [transactions_retold]
    exact List.mem_cons_self ..
  obtain ⟨-, hkept⟩ := (time_kept_iff hmem).2 _ _ origin_early
  exact ⟨_, _, origin_early, fun h => hkept.1 h ⟨rfl, rfl, rfl⟩⟩

theorem retold_times_are_lost :
    transactions 1 2 retold = [early, late] ∧
    (∃ d copy, Origin retold early d copy ∧ d.blockTime.isSome ∧ early.blockTime = none) ∧
    ∃ d copy, Origin retold late d copy ∧ d.blockTime.isSome ∧ late.blockTime = none :=
  ⟨transactions_retold, ⟨_, _, origin_early, rfl, rfl⟩, _, _, origin_late, rfl, rfl⟩

end RouterHistory.Gapless
