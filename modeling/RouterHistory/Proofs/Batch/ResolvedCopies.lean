import Mathlib.Data.List.Find
import RouterHistory.Proofs.Batch.Condensed
import RouterHistory.Proofs.Store.LedgerWrites
import RouterHistory.Source

/-!
The two ways to the transaction of a signature in a recording: resolving the signature, and
fetching slots and making them gapless. Both take the first copy in the lowest slot that has one,
and the block time of that slot where the copy has none of its own. Only gapless slots also put
the slot into it, so the two agree on the copies that carry the slot that they are recorded in.
-/
namespace RouterHistory

namespace Recording

inductive Edit where
  | push (d : Delivery)
  | pin (head : Slot)
  | orphan (S : Signature)
  | reinclude (tx : Transaction)

def Edit.apply (r : Recording) : Edit → Recording
  | .push d => r.push d
  | .pin head => r.withHead head
  | .orphan S => (r.orphan S).2
  | .reinclude tx => r.reinclude tx

def edited (edits : List Edit) : Recording := edits.foldl Edit.apply empty

def Filed (r : Recording) : Prop :=
  ∀ (slot : Slot) (d : Delivery), r.deliveries[slot]? = some d → d.slot = slot

variable {r : Recording}

theorem Filed.insert (h : r.Filed) {slot : Slot} {d : Delivery} (hd : d.slot = slot) :
    Filed { r with deliveries := r.deliveries.insert slot d } := by
  intro slot' d' hd'
  rw [Std.ExtTreeMap.getElem?_insert] at hd'
  split at hd'
  · next hsame =>
    obtain rfl : slot = slot' := Std.compare_eq_iff_eq.1 hsame
    obtain rfl : d = d' := Option.some.inj hd'
    exact hd
  · exact h slot' d' hd'

theorem Filed.orphan (h : r.Filed) (S : Signature) : (r.orphan S).2.Filed := by
  intro slot d hd
  change (r.deliveries.map _)[slot]? = some d at hd
  rw [Std.ExtTreeMap.getElem?_map] at hd
  obtain ⟨d', hd', rfl⟩ := Option.map_eq_some_iff.1 hd
  exact h slot d' hd'

theorem Filed.apply (h : r.Filed) (edit : Edit) : (edit.apply r).Filed := by
  cases edit with
  | push d => exact h.insert rfl
  | pin head => exact h
  | orphan S => exact h.orphan S
  | reinclude tx =>
    refine (h.orphan tx.signature).insert ?_
    change ((r.orphan tx.signature).2.deliveries[tx.slot]?.getD (.skipped tx.slot)).slot = tx.slot
    cases hd : (r.orphan tx.signature).2.deliveries[tx.slot]? with
    | none => rfl
    | some d => exact h.orphan tx.signature tx.slot d hd

theorem Filed.foldl (h : r.Filed) (edits : List Edit) : (edits.foldl Edit.apply r).Filed := by
  induction edits generalizing r with
  | nil => exact h
  | cons edit rest ih => exact ih (h.apply edit)

theorem filed_edited (edits : List Edit) : (edited edits).Filed := by
  have hempty : Filed empty := fun slot d hd => by simp [empty] at hd
  exact hempty.foldl edits

variable {S : Signature} {tx : Transaction}

def Holds (r : Recording) (S : Signature) (slot : Slot) : Prop :=
  ∃ d, r.deliveries[slot]? = some d ∧ Delivery.records d S

/-- The first copy in a recorded slot, with the block time of the slot where it has none. -/
def timedCopy? (S : Signature) (d : Delivery) : Option Transaction :=
  (d.transactions.find? (·.signature = S)).map fun copy =>
    { copy with blockTime := copy.blockTime <|> d.blockTime }

def copyIn? (r : Recording) (S : Signature) (slot : Slot) : Option Transaction :=
  r.deliveries[slot]?.bind (timedCopy? S)

theorem isSome_copyIn? {slot : Slot} : (r.copyIn? S slot).isSome ↔ r.Holds S slot := by
  unfold copyIn? Holds timedCopy?
  cases r.deliveries[slot]? with
  | none => simp
  | some d => simp [Delivery.records]

theorem copyIn?_eq_none {slot : Slot} (h : ¬ r.Holds S slot) : r.copyIn? S slot = none := by
  rwa [← isSome_copyIn?, Option.not_isSome_iff_eq_none] at h

theorem findSome?_values (r : Recording) (f : Delivery → Option Transaction) :
    r.deliveries.values.findSome? f =
      r.deliveries.keys.findSome? fun slot => r.deliveries[slot]?.bind f := by
  rw [values_eq_map_toList, ← Std.ExtTreeMap.map_fst_toList_eq_keys, List.findSome?_map,
    List.findSome?_map]
  refine Gapless.findSome?_congr fun entry hentry => ?_
  have hd : r.deliveries[entry.1]? = some entry.2 :=
    Std.ExtTreeMap.mem_toList_iff_getElem?_eq_some.1 hentry
  simp [hd]

theorem pairwise_keys (r : Recording) : r.deliveries.keys.Pairwise (· < ·) :=
  (Std.ExtTreeMap.ordered_keys (t := r.deliveries)).imp fun h => compareOfLessAndEq_eq_lt.1 h

/-- The slots are searched in order. -/
theorem resolve_eq_canonical :
    r.resolve S = .canonical tx ↔ r.deliveries.keys.findSome? (r.copyIn? S) = some tx := by
  have hvalues := findSome?_values r (timedCopy? S)
  unfold resolve
  simp only
  split
  · next found hfound =>
    have hkeys : r.deliveries.keys.findSome? (r.copyIn? S) = some found :=
      hvalues.symm.trans hfound
    simp [hkeys]
  · next hmissing =>
    have hkeys : r.deliveries.keys.findSome? (r.copyIn? S) = none :=
      hvalues.symm.trans hmissing
    simp [hkeys]

theorem Holds.mem_keys {slot : Slot} (h : r.Holds S slot) : slot ∈ r.deliveries.keys := by
  obtain ⟨d, hd, -⟩ := h
  exact Std.ExtTreeMap.mem_keys.2 (Std.ExtTreeMap.mem_iff_isSome_getElem?.2 (by simp [hd]))

theorem exists_resolve_iff : (∃ tx, r.resolve S = .canonical tx) ↔ ∃ slot, r.Holds S slot := by
  simp only [resolve_eq_canonical, ← Option.isSome_iff_exists, List.findSome?_isSome_iff,
    isSome_copyIn?]
  constructor
  · intro h
    obtain ⟨slot, -, hholds⟩ := h
    exact ⟨slot, hholds⟩
  · intro h
    obtain ⟨slot, hholds⟩ := h
    exact ⟨slot, hholds.mem_keys, hholds⟩

/-- A signature resolves to the copy in the lowest slot that holds it. -/
theorem lowest_of_resolve (h : r.resolve S = .canonical tx) :
    ∃ slot, r.copyIn? S slot = some tx ∧ ∀ lower < slot, ¬ r.Holds S lower := by
  rw [resolve_eq_canonical, Gapless.findSome?_eq_some_iff_lowest r.pairwise_keys] at h
  obtain ⟨slot, -, hcopy, hnone⟩ := h
  refine ⟨slot, hcopy, fun lower hlt hholds => ?_⟩
  have hsome := isSome_copyIn?.2 hholds
  rw [hnone lower hholds.mem_keys hlt] at hsome
  cases hsome

variable {programIds : List String} {first last : Slot}

def fetched (r : Recording) (first last : Slot) (programIds : List String) (S : Signature) :
    Option Transaction :=
  (Gapless.transactions first last (r.slots first last programIds)).find? (·.signature = S)

theorem mem_slots_iff {d : Delivery} :
    d ∈ r.slots first last programIds ↔ ∃ (slot : Slot) (e : Delivery),
      r.deliveries[slot]? = some e ∧ (first ≤ slot ∧ slot ≤ last) ∧ d = e.keeping programIds := by
  unfold slots
  constructor
  · intro h
    obtain ⟨⟨slot, e⟩, hmem, rfl⟩ := List.mem_map.1 h
    obtain ⟨hin, hrange⟩ := List.mem_filter.1 hmem
    have he : r.deliveries[slot]? = some e :=
      Std.ExtTreeMap.mem_toList_iff_getElem?_eq_some.1 hin
    exact ⟨slot, e, he, by simpa using hrange, rfl⟩
  · intro h
    obtain ⟨slot, e, he, hrange, rfl⟩ := h
    exact List.mem_map.2 ⟨(slot, e), List.mem_filter.2
      ⟨Std.ExtTreeMap.mem_toList_iff_getElem?_eq_some.2 he, by simpa using hrange⟩, rfl⟩

def Routed (r : Recording) (programIds : List String) (S : Signature) : Prop :=
  ∀ d ∈ r.deliveries.values, ∀ tx ∈ d.transactions, tx.signature = S → tx.invokesAny programIds

theorem Routed.invokesAny (h : r.Routed programIds S) {slot : Slot} {d : Delivery}
    (hd : r.deliveries[slot]? = some d) (htx : tx ∈ d.transactions) (hsame : tx.signature = S) :
    tx.invokesAny programIds := by
  refine h d ?_ tx htx hsame
  rw [values_eq_map_toList]
  exact List.mem_map.2 ⟨(slot, d), Std.ExtTreeMap.mem_toList_iff_getElem?_eq_some.2 hd, rfl⟩

/-- What is delivered for a slot of the range. -/
theorem filter_slots (hfiled : r.Filed) {slot : Slot} (hslot : first ≤ slot ∧ slot ≤ last) :
    (r.slots first last programIds).filter (·.slot = slot) =
      (r.deliveries[slot]?.map (·.keeping programIds)).toList := by
  have hnodup : (r.deliveries.toList.map Prod.fst).Nodup := by
    rw [Std.ExtTreeMap.map_fst_toList_eq_keys]
    exact r.pairwise_keys.imp UInt64.ne_of_lt
  have hkey : ∀ entry ∈ r.deliveries.toList, entry.2.slot = entry.1 := fun entry hentry =>
    hfiled entry.1 entry.2 (Std.ExtTreeMap.mem_toList_iff_getElem?_eq_some.1 hentry)
  have hin : (r.deliveries.toList.filter fun entry => first ≤ entry.1 && entry.1 ≤ last).filter
      (fun entry => (entry.2.keeping programIds).slot = slot) =
        r.deliveries.toList.filter (·.1 = slot) := by
    rw [List.filter_filter]
    refine List.filter_congr fun entry hentry => ?_
    change (decide (entry.2.slot = slot) && _) = _
    rw [hkey entry hentry]
    by_cases hsame : entry.1 = slot
    · simp [hsame, hslot]
    · simp [hsame]
  unfold slots
  rw [List.filter_map]
  refine (congrArg _ hin).trans ?_
  cases hd : r.deliveries[slot]? with
  | none =>
    rw [List.filter_eq_nil_iff.2]
    · rfl
    intro entry hentry hsame
    obtain rfl : entry.1 = slot := by simpa using hsame
    have hfound : r.deliveries[entry.1]? = some entry.2 :=
      Std.ExtTreeMap.mem_toList_iff_getElem?_eq_some.1 hentry
    cases hd.symm.trans hfound
  | some d =>
    rw [Gapless.filter_key_eq hnodup (Std.ExtTreeMap.mem_toList_iff_getElem?_eq_some.2 hd)]
    rfl

/-- Of the copies in a slot, the same one is delivered. -/
theorem copy?_slots (hfiled : r.Filed) (hrouted : r.Routed programIds S) {slot : Slot}
    (hslot : first ≤ slot ∧ slot ≤ last) :
    Gapless.copy? (Gapless.joined slot
      ((r.slots first last programIds).filter (·.slot = slot))) S =
        (r.copyIn? S slot).map fun tx => { tx with slot } := by
  rw [filter_slots hfiled hslot]
  unfold copyIn?
  cases hd : r.deliveries[slot]? with
  | none => rfl
  | some d =>
    have hjoined : Gapless.joined slot [d.keeping programIds] = d.keeping programIds := by
      refine Gapless.joined_cons fun e he => ?_
      rw [List.mem_singleton.1 he]
      exact hfiled slot d hd
    change Gapless.copy? (Gapless.joined slot [d.keeping programIds]) S = _
    rw [hjoined]
    have hfind : (d.keeping programIds).transactions.find? (·.signature = S) =
        d.transactions.find? (·.signature = S) := by
      change (d.transactions.filter _).find? _ = _
      rw [List.find?_filter]
      refine List.find?_congr fun tx htx => ?_
      by_cases hsame : tx.signature = S
      · simp [hsame, hrouted.invokesAny hd htx hsame]
      · simp [hsame]
    have hplace : Gapless.place (d.keeping programIds) = fun copy =>
        { copy with slot, blockTime := copy.blockTime <|> d.blockTime } := by
      funext copy
      unfold Gapless.place
      rw [show (d.keeping programIds).slot = slot from hfiled slot d hd]
      rfl
    unfold Gapless.copy? timedCopy?
    rw [hfind, hplace]
    simp [Option.map_map, Function.comp_def]

/-- A range that holds all its slots delivers the same copy, with the slot in it. -/
theorem fetched_eq (hfiled : r.Filed) (hrouted : r.Routed programIds S) {slot : Slot}
    (hcopy : r.copyIn? S slot = some tx) (hlowest : ∀ lower < slot, ¬ r.Holds S lower)
    (hrange : ∀ slot, r.Holds S slot → first ≤ slot ∧ slot ≤ last) :
    r.fetched first last programIds S = some { tx with slot } := by
  have hslot := hrange slot (isSome_copyIn?.1 (by simp [hcopy]))
  unfold fetched
  rw [Gapless.find?_transactions, Gapless.findSome?_eq_some_iff_lowest (Slot.pairwise_through ..)]
  refine ⟨slot, Slot.mem_through.2 hslot, ?_, fun lower hlower hlt => ?_⟩
  · rw [copy?_slots hfiled hrouted hslot, hcopy]
    rfl
  · rw [copy?_slots hfiled hrouted (Slot.mem_through.1 hlower),
      copyIn?_eq_none (hlowest lower hlt)]
    rfl

theorem exists_delivered_iff (hrouted : r.Routed programIds S) :
    (∃ first last, ∃ d ∈ r.slots first last programIds, Delivery.records d S) ↔
      ∃ slot, r.Holds S slot := by
  constructor
  · intro h
    obtain ⟨first, last, d, hd, hrecords⟩ := h
    obtain ⟨slot, e, he, -, rfl⟩ := mem_slots_iff.1 hd
    obtain ⟨copy, hcopy, hsame⟩ := List.any_eq_true.1 hrecords
    exact ⟨slot, e, he, List.any_eq_true.2 ⟨copy, List.mem_of_mem_filter hcopy, hsame⟩⟩
  · intro h
    obtain ⟨slot, d, hd, hrecords⟩ := h
    obtain ⟨copy, hcopy, hsame⟩ := List.any_eq_true.1 hrecords
    have hinvokes := hrouted.invokesAny hd hcopy (by simpa using hsame)
    exact ⟨slot, slot, d.keeping programIds,
      mem_slots_iff.2 ⟨slot, d, hd, ⟨UInt64.le_refl _, UInt64.le_refl _⟩, rfl⟩,
      List.any_eq_true.2 ⟨copy, List.mem_filter.2 ⟨hcopy, hinvokes⟩, hsame⟩⟩

/-- Whatever was recorded: a signature whose copies are all router transactions resolves to a
transaction exactly if some range delivers it. A range with all the slots that hold it then
delivers that transaction as it stands in the lowest of them, which is the one it was resolved to
exactly if that one carries the slot itself. -/
theorem fetched_as_resolved_iff (edits : List Edit) (programIds : List String) (S : Signature)
    (hrouted : (edited edits).Routed programIds S) :
    ((∃ tx, (edited edits).resolve S = .canonical tx) ↔
      ∃ first last, ∃ d ∈ (edited edits).slots first last programIds, Delivery.records d S) ∧
    ∀ tx, (edited edits).resolve S = .canonical tx →
      ∃ slot, (edited edits).Holds S slot ∧ (∀ lower < slot, ¬ (edited edits).Holds S lower) ∧
        ∀ first last, (∀ s, (edited edits).Holds S s → first ≤ s ∧ s ≤ last) →
          (edited edits).fetched first last programIds S = some { tx with slot } ∧
          ((edited edits).fetched first last programIds S = some tx ↔ tx.slot = slot) := by
  refine ⟨exists_resolve_iff.trans (exists_delivered_iff hrouted).symm, fun tx htx => ?_⟩
  obtain ⟨slot, hcopy, hlowest⟩ := lowest_of_resolve htx
  refine ⟨slot, isSome_copyIn?.1 (by simp [hcopy]), hlowest, fun first last hrange => ?_⟩
  have hfetched := fetched_eq (filed_edited edits) hrouted hcopy hlowest hrange
  refine ⟨hfetched, ?_⟩
  rw [hfetched, Option.some.injEq]
  constructor
  · intro hsame
    exact (congrArg Transaction.slot hsame).symm
  · rintro rfl
    rfl

def carried : Transaction := ⟨⟨"a"⟩, 4, none, none, [⟨"router", "2"⟩], []⟩

def moving : List Edit :=
  [.push ⟨4, some "b4", none, none, [carried]⟩, .push ⟨6, some "b6", none, some 1700000006, []⟩,
    .reinclude { carried with slot := 6 }, .pin 6]

theorem moved_copy_is_fetched :
    ∃ tx slot, (edited moving).resolve ⟨"a"⟩ = .canonical tx ∧ (edited moving).Holds ⟨"a"⟩ slot ∧
      (edited moving).fetched 0 Slot.top ["router"] ⟨"a"⟩ = some { tx with slot } := by
  have hrouted : (edited moving).Routed ["router"] ⟨"a"⟩ := by
    unfold Routed
    decide +kernel
  obtain ⟨hresolves, hagree⟩ := fetched_as_resolved_iff moving ["router"] ⟨"a"⟩ hrouted
  obtain ⟨tx, htx⟩ := hresolves.2 ⟨6, 6, by decide +kernel⟩
  have hbelow : ∀ s : Slot, s ≤ Slot.top := fun s =>
    UInt64.le_iff_toNat_le.2 (Nat.le_pred_of_lt s.toNat_lt)
  obtain ⟨slot, hholds, -, hrange⟩ := hagree tx htx
  exact ⟨tx, slot, htx, hholds, (hrange 0 Slot.top fun s _ => ⟨UInt64.zero_le, hbelow s⟩).1⟩

def misfiled : List Edit := [.push ⟨5, some "b5", none, some 1700000005, [carried]⟩]

theorem misfiled_copy_disagrees :
    (edited misfiled).Routed ["router"] ⟨"a"⟩ ∧
    (∀ slot, (edited misfiled).Holds ⟨"a"⟩ slot → 5 ≤ slot ∧ slot ≤ 5) ∧
    ∃ tx tx', (edited misfiled).resolve ⟨"a"⟩ = .canonical tx ∧
      (edited misfiled).fetched 5 5 ["router"] ⟨"a"⟩ = some tx' ∧ tx.slot = 4 ∧ tx'.slot = 5 := by
  refine ⟨?_, fun slot holds => ?_, _, _, rfl, rfl, rfl, rfl⟩
  · unfold Routed
    decide +kernel
  · obtain ⟨d, hd, -⟩ := holds
    change (Std.ExtTreeMap.insert ∅ (5 : Slot) _)[slot]? = some d at hd
    rw [Std.ExtTreeMap.getElem?_insert] at hd
    split at hd
    · next hslot =>
      obtain rfl : 5 = slot := Std.compare_eq_iff_eq.1 hslot
      exact ⟨UInt64.le_refl _, UInt64.le_refl _⟩
    · simp at hd

end Recording

end RouterHistory
