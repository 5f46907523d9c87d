import RouterHistory.Batch.Fetch
import RouterHistory.Proofs.Batch.Condensed

/-!
Whether the source or the batch drops the transactions of other programs. A source that drops them
can bring a later copy of a signature to the front, and then the batch has a transaction that it
would not have otherwise. Nothing else differs; both have the same slots with the same headers.
-/
namespace RouterHistory

def Delivery.only (d : Delivery) (stays : Transaction → Bool) : Delivery :=
  { d with transactions := d.transactions.filter stays }

theorem map_only_eq_self {out : List Delivery} {stays : Transaction → Bool} :
    out.map (·.only stays) = out ↔ ∀ tx ∈ out.flatMap Delivery.transactions, stays tx := by
  have hself : ∀ d : Delivery, d.only stays = d ↔ ∀ tx ∈ d.transactions, stays tx := by
    intro d
    rw [← List.filter_eq_self]
    cases d
    simp [Delivery.only]
  conv_lhs =>
    rhs
    rw [← List.map_id out]
  simp only [List.map_inj_left, id_eq, hself, List.mem_flatMap]
  constructor
  · intro h tx htx
    obtain ⟨d, hd, hmem⟩ := htx
    exact h d hd tx hmem
  · intro h d hd tx htx
    exact h tx ⟨d, hd, htx⟩

namespace Gapless

def copiesThrough (first last : Slot) (raw : List Delivery) : List Transaction :=
  (Slot.through first last).flatMap (copies raw)

/-- There is a copy of the signature, and the first of them stays. -/
def firstStays (stays : Transaction → Bool) (txs : List Transaction) (S : Signature) : Bool :=
  (txs.find? (·.signature = S)).any stays

variable {stays : Transaction → Bool} {first last : Slot} {raw : List Delivery}

theorem merge_only (d e : Delivery) :
    (merge d e).only stays = merge (d.only stays) (e.only stays) := by
  have hd : (d.only stays).isSkipped = d.isSkipped := rfl
  have he : (e.only stays).isSkipped = e.isSkipped := rfl
  unfold merge
  rw [hd, he]
  split <;> simp [Delivery.only]

theorem getElem?_foldl_absorb_only {table table' : Table}
    (h : ∀ slot : Slot, table'[slot]? = table[slot]?.map (·.only stays))
    (raw : List Delivery) (slot : Slot) :
    ((raw.map (·.only stays)).foldl absorb table')[slot]? =
      (raw.foldl absorb table)[slot]?.map (·.only stays) := by
  induction raw generalizing table table' with
  | nil => exact h slot
  | cons d rest ih =>
    refine ih fun s => ?_
    have hslot : (d.only stays).slot = d.slot := rfl
    rw [getElem?_absorb, getElem?_absorb, hslot, h]
    by_cases hs : d.slot = s
    · rw [if_pos hs, if_pos hs]
      cases table[s]? with
      | none => rfl
      | some e => simp [merge_only]
    · rw [if_neg hs, if_neg hs]

theorem entry_gather_only (first last slot : Slot) (raw : List Delivery) :
    entry (gather first last (raw.map (·.only stays))) slot =
      (entry (gather first last raw) slot).only stays := by
  have hrange : (raw.map (·.only stays)).filter (fun d => first ≤ d.slot && d.slot ≤ last) =
      (raw.filter fun d => first ≤ d.slot && d.slot ≤ last).map (·.only stays) := List.filter_map
  have hempty : ∀ slot : Slot, (∅ : Table)[slot]? =
      (∅ : Table)[slot]?.map (·.only stays) := by simp
  unfold entry gather
  rw [hrange, getElem?_foldl_absorb_only hempty]
  generalize (List.foldl absorb ∅ _)[slot]? = found
  cases found <;> rfl

theorem mem_copiesThrough {tx : Transaction} :
    tx ∈ copiesThrough first last raw ↔
      ∃ d ∈ raw, (first ≤ d.slot ∧ d.slot ≤ last) ∧ tx ∈ d.transactions := by
  simp only [copiesThrough, copies, delivered, List.mem_flatMap, Slot.mem_through,
    List.mem_filter,
    decide_eq_true_eq]
  constructor
  · intro h
    obtain ⟨_, hslot, d, ⟨hd, rfl⟩, htx⟩ := h
    exact ⟨d, hd, hslot, htx⟩
  · intro h
    obtain ⟨d, hd, hslot, htx⟩ := h
    exact ⟨d.slot, hslot, d, ⟨hd, rfl⟩, htx⟩

section FirstStays

variable {txs rest : List Transaction} {tx : Transaction} {S : Signature}

theorem firstStays_iff : firstStays stays txs S ↔
    ∃ copy, txs.find? (·.signature = S) = some copy ∧ stays copy := by
  unfold firstStays
  cases txs.find? (·.signature = S) <;> simp

theorem firstStays_append_of_mem (h : ∃ copy ∈ txs, copy.signature = S) :
    firstStays stays (txs ++ rest) S = firstStays stays txs S := by
  unfold firstStays
  rw [List.find?_append]
  cases hfind : txs.find? (·.signature = S) with
  | none =>
    obtain ⟨copy, hcopy, hS⟩ := h
    simpa [hS] using List.find?_eq_none.1 hfind copy hcopy
  | some copy => rfl

theorem firstStays_append_of_notMem (h : ¬ ∃ copy ∈ txs, copy.signature = S) :
    firstStays stays (txs ++ rest) S = firstStays stays rest S := by
  have hnone : txs.find? (·.signature = S) = none :=
    List.find?_eq_none.2 fun copy hcopy hS => h ⟨copy, hcopy, by simpa using hS⟩
  unfold firstStays
  rw [List.find?_append, hnone, Option.none_or]

theorem firstStays_cons_self : firstStays stays (tx :: rest) tx.signature = stays tx := by
  unfold firstStays
  rw [List.find?_cons_of_pos (by simp), Option.any_some]

theorem firstStays_cons_of_ne (h : tx.signature ≠ S) :
    firstStays stays (tx :: rest) S = firstStays stays rest S := by
  have hnot : ¬ ∃ copy ∈ [tx], copy.signature = S := by simpa using h
  exact firstStays_append_of_notMem hnot

/-- Where the rest is dropped beforehand, a first copy is kept in excess unless it is the first of
all copies. -/
theorem filter_firstCopies (txs : List Transaction) :
    (firstCopies txs).filter stays =
      (firstCopies (txs.filter stays)).filter fun copy =>
        firstStays stays txs copy.signature := by
  induction txs with
  | nil => rfl
  | cons tx rest ih =>
    have htail : ((firstCopies rest).filter (·.signature ≠ tx.signature)).filter stays =
        ((firstCopies (rest.filter stays)).filter (·.signature ≠ tx.signature)).filter
          fun copy => firstStays stays (tx :: rest) copy.signature := by
      rw [List.filter_comm, ih, List.filter_filter, List.filter_filter]
      refine List.filter_congr fun copy _ => ?_
      by_cases hcopy : tx.signature = copy.signature
      · simp [hcopy]
      · simp [firstStays_cons_of_ne hcopy, Ne.symm hcopy]
    by_cases htx : stays tx
    · have hfirst : firstStays stays (tx :: rest) tx.signature := by rwa [firstStays_cons_self]
      rw [List.filter_cons_of_pos (l := rest) htx, firstCopies, firstCopies,
        List.filter_cons_of_pos htx, htail, List.filter_cons, if_pos hfirst]
    · rw [List.filter_cons_of_neg (l := rest) htx, firstCopies,
        List.filter_cons_of_neg htx, htail,
        List.filter_filter]
      refine List.filter_congr fun copy _ => ?_
      by_cases hcopy : tx.signature = copy.signature
      · simp [← hcopy, firstStays_cons_self, htx]
      · simp [Ne.symm hcopy]

end FirstStays

section Fill

variable {seen seen' : Seen}

theorem unseen_only (hplace : ∀ d tx, stays (place d tx) = stays tx)
    (hseen : ∀ S, S ∈ seen' → S ∈ seen) (d : Delivery) (later : List Transaction) :
    (unseen d seen d.transactions).1.filter stays =
      (unseen (d.only stays) seen' (d.only stays).transactions).1.filter fun tx =>
        tx.signature ∉ seen ∧ firstStays stays (d.transactions ++ later) tx.signature := by
  have hstays : stays ∘ place d = stays := funext (hplace d)
  rw [unseen_eq, unseen_eq, List.filter_map, List.filter_map, hstays, List.filter_comm,
    filter_firstCopies, List.filter_filter, List.filter_filter]
  change List.map (place d) _ = List.map (place d) _
  refine congrArg _ (List.filter_congr fun tx htx => ?_)
  have hmem : tx ∈ d.transactions := List.mem_of_mem_filter (mem_firstCopies htx)
  have hsignature : (place (d.only stays) tx).signature = tx.signature := rfl
  by_cases hold : tx.signature ∈ seen
  · simp [hold, hsignature]
  · have hnew : tx.signature ∉ seen' := fun h => hold (hseen _ h)
    simp [hold, hnew, hsignature, firstStays_append_of_mem ⟨tx, hmem, rfl⟩]

/-- The seen signatures are among those that are seen where nothing is dropped. -/
theorem mem_seen_of_only (stays : Transaction → Bool) (hseen : ∀ S, S ∈ seen' → S ∈ seen)
    (d : Delivery) (S : Signature)
    (h : S ∈ (unseen (d.only stays) seen' (d.only stays).transactions).2) :
    S ∈ (unseen d seen d.transactions).2 := by
  rcases (mem_seen_unseen ..).1 h with hold | ⟨tx, htx, hsame⟩
  · exact (mem_seen_unseen ..).2 (.inl (hseen S hold))
  · exact (mem_seen_unseen ..).2 (.inr ⟨tx, List.mem_of_mem_filter htx, hsame⟩)

/-- For a signature of which no copy stays in a slot, it is the same to be new after the slot and
have a later first copy that stays, and to be new before it and have a first copy that stays. -/
theorem new_firstStays_iff (d : Delivery) (later : List Transaction) {S : Signature}
    (hnew : S ∉ (unseen (d.only stays) seen' (d.only stays).transactions).2) :
    (S ∉ (unseen d seen d.transactions).2 ∧ firstStays stays later S) ↔
      S ∉ seen ∧ firstStays stays (d.transactions ++ later) S := by
  rw [mem_seen_unseen, not_or] at hnew ⊢
  by_cases hhere : ∃ copy ∈ d.transactions, copy.signature = S
  · refine iff_of_false (fun h => h.1.2 hhere) fun h => hnew.2 ?_
    rw [firstStays_append_of_mem hhere] at h
    obtain ⟨copy, hfound, hstays⟩ := firstStays_iff.1 h.2
    exact ⟨copy, List.mem_filter.2 ⟨List.mem_of_find?_eq_some hfound, hstays⟩,
      by simpa using List.find?_some hfound⟩
  · rw [firstStays_append_of_notMem hhere]
    simp only [hhere, not_false_eq_true, and_true]

/-- Filtering the slots that were filled is filling them with what stays, less the copies that
would not be the first. More signatures are seen where nothing was dropped before. -/
theorem fill_only (hplace : ∀ d tx, stays (place d tx) = stays tx)
    (hseen : ∀ S, S ∈ seen' → S ∈ seen) {table table' : Table} {range : List Slot}
    (hentry : ∀ slot, entry table' slot = (entry table slot).only stays) :
    (fill table seen range).map (·.only stays) =
      (fill table' seen' range).map (·.only fun tx => tx.signature ∉ seen ∧
        firstStays stays (range.flatMap fun slot => (entry table slot).transactions)
          tx.signature) := by
  induction range generalizing seen seen' with
  | nil => rfl
  | cons slot rest ih =>
    -- what was dropped is seen on the left only, so the two seen sets drift apart
    have hlater := mem_seen_of_only stays hseen (entry table slot)
    simp only [fill, List.map_cons, List.flatMap_cons, hentry slot]
    refine congrArg₂ _ ?_ ((ih hlater).trans (List.map_congr_left fun d hd => ?_))
    · have hhead := unseen_only hplace hseen (entry table slot)
        (rest.flatMap fun slot => (entry table slot).transactions)
      exact congrArg (fun txs => { entry table slot with transactions := txs }) hhead
    · refine congrArg (fun txs => { d with transactions := txs })
        (List.filter_congr fun tx htx => ?_)
      have hnew := notMem_seen_fill _ _ _ tx (List.mem_flatMap.2 ⟨d, hd, htx⟩)
      rw [decide_eq_decide]
      exact new_firstStays_iff (entry table slot) _ hnew

end Fill

/-- To filter gapless slots is to make gapless what stays, less the transactions of which the
first copy in the range does not stay. -/
theorem slots_only (hplace : ∀ d tx, stays (place d tx) = stays tx) :
    (slots first last raw).map (·.only stays) =
      (slots first last (raw.map (·.only stays))).map (·.only fun tx =>
        firstStays stays (copiesThrough first last raw) tx.signature) := by
  have hcopies : (Slot.through first last).flatMap
        (fun slot => (entry (gather first last raw) slot).transactions) =
      copiesThrough first last raw := by
    refine List.flatMap_congr fun slot hslot => ?_
    rw [entry_gather_eq_joined (Slot.mem_through.1 hslot)]
    exact transactions_joined raw slot
  rw [slots_eq_fill, slots_eq_fill, fill_only hplace (fun S h => h)
    fun slot => entry_gather_only first last slot raw, hcopies]
  simp

/-- What is made gapless of a filtered list came of a copy in the range that stays. -/
theorem exists_copy_of_mem_only (stays : Transaction → Bool) {tx : Transaction}
    (htx : tx ∈ transactions first last (raw.map (·.only stays))) :
    ∃ d, ∃ copy ∈ copiesThrough first last raw, stays copy ∧ tx = place d copy := by
  obtain ⟨_, hslot, _, hd', rfl, copy, hcopy, rfl⟩ := mem_transactions htx
  obtain ⟨d, hd, rfl⟩ := List.mem_map.1 hd'
  obtain ⟨hmem, hstays⟩ := List.mem_filter.1 hcopy
  exact ⟨_, copy, mem_copiesThrough.2 ⟨d, hd, hslot, hmem⟩, hstays, rfl⟩

/-- The signatures that are left are those of the copies in the range that stay. -/
theorem forall_signature_only (stays : Transaction → Bool) (P : Signature → Prop) :
    (∀ tx ∈ transactions first last (raw.map (·.only stays)), P tx.signature) ↔
      ∀ copy ∈ copiesThrough first last raw, stays copy → P copy.signature := by
  constructor
  · intro h copy hcopy hstays
    obtain ⟨d, hd, hslot, hmem⟩ := mem_copiesThrough.1 hcopy
    have hd' : d.only stays ∈ raw.map (·.only stays) := List.mem_map_of_mem hd
    obtain ⟨tx, htx, hsame⟩ :=
      exists_mem_transactions hd' hslot (List.mem_filter.2 ⟨hmem, hstays⟩)
    exact hsame ▸ h tx htx
  · intro h tx htx
    obtain ⟨_, copy, hcopy, hstays, rfl⟩ := exists_copy_of_mem_only stays htx
    exact h copy hcopy hstays

end Gapless

namespace Batch

open Gapless

/-- The router slots of a range are those of the deliveries without the transactions of other
programs, less the transactions of which the first copy in the range invokes none of the programs.
So the two are the same exactly if the first copy invokes one wherever any copy does. -/
theorem routerSlots_eq_filtered (first last : Slot) (programIds : List String)
    (raw : List Delivery) :
    routerSlots first last programIds raw =
        (routerSlots first last programIds (raw.map (·.keeping programIds))).map (·.only fun tx =>
          firstStays (·.invokesAny programIds) (copiesThrough first last raw) tx.signature) ∧
    (routerSlots first last programIds raw =
        routerSlots first last programIds (raw.map (·.keeping programIds)) ↔
      ∀ copy ∈ copiesThrough first last raw, copy.invokesAny programIds →
        firstStays (·.invokesAny programIds) (copiesThrough first last raw) copy.signature) := by
  have hplace : ∀ d tx, (place d tx).invokesAny programIds = tx.invokesAny programIds :=
    fun _ _ => rfl
  have hfiltered : routerSlots first last programIds (raw.map (·.keeping programIds)) =
      slots first last (raw.map (·.keeping programIds)) := by
    refine map_only_eq_self.2 fun tx htx => ?_
    obtain ⟨d, copy, -, hinvokes, rfl⟩ := exists_copy_of_mem_only (·.invokesAny programIds) htx
    rwa [hplace d copy]
  have hslots : routerSlots first last programIds raw =
      (slots first last (raw.map (·.keeping programIds))).map (·.only fun tx =>
        firstStays (·.invokesAny programIds) (copiesThrough first last raw) tx.signature) :=
    slots_only hplace
  rw [hfiltered, hslots]
  refine ⟨rfl, map_only_eq_self.trans ?_⟩
  exact forall_signature_only (·.invokesAny programIds)
    (firstStays (·.invokesAny programIds) (copiesThrough first last raw) ·)

def twoCopies : List Delivery :=
  [⟨1, some "b1", none, some 1700000001,
    [⟨⟨"a"⟩, 1, none, none, [⟨"other", ""⟩], []⟩, ⟨⟨"a"⟩, 1, none, none, [⟨"router", ""⟩], []⟩]⟩]

theorem second_copy_is_brought_forward :
    (routerSlots 1 1 ["router"] twoCopies).flatMap Delivery.transactions = [] ∧
    ((routerSlots 1 1 ["router"] (twoCopies.map (·.keeping ["router"]))).flatMap
      Delivery.transactions).map Transaction.signature = [⟨"a"⟩] ∧
    routerSlots 1 1 ["router"] twoCopies ≠
      routerSlots 1 1 ["router"] (twoCopies.map (·.keeping ["router"])) := by
  have hnone : (routerSlots 1 1 ["router"] twoCopies).flatMap Delivery.transactions = [] := rfl
  have hone : ((routerSlots 1 1 ["router"] (twoCopies.map (·.keeping ["router"]))).flatMap
      Delivery.transactions).map Transaction.signature = [⟨"a"⟩] := rfl
  refine ⟨hnone, hone, fun heq => ?_⟩
  rw [← heq, hnone] at hone
  simp at hone

end Batch

end RouterHistory
