import RouterHistory.Proofs.Batch.FirstCopies

/-!
What gapless slots are, in full. `Condensed` says it of any list: every slot of the range once and
in order, the header of the delivery that speaks for the slot, and of each signature the first
copy in the lowest slot, as it stands there. There is exactly one such list, and it is the one
computed.
-/
namespace RouterHistory

def Delivery.header (d : Delivery) : Option String × Option String × Option Int :=
  (d.hash, d.parentHash, d.blockTime)

namespace Gapless

def delivered (raw : List Delivery) (slot : Slot) : List Delivery := raw.filter (·.slot = slot)

/-- The delivery that speaks for its slot: the first that has a block, or else the first. -/
def leading (deliveries : List Delivery) : Option Delivery :=
  (deliveries.find? fun d => !d.isSkipped) <|> deliveries.head?

def copies (raw : List Delivery) (slot : Slot) : List Transaction :=
  (delivered raw slot).flatMap Delivery.transactions

def firstCopies : List Transaction → List Transaction
  | [] => []
  | tx :: rest => tx :: (firstCopies rest).filter (·.signature ≠ tx.signature)

/-- The deliveries of a range made gapless. -/
structure Condensed (first last : Slot) (raw out : List Delivery) : Prop where
  consecutive : (out.map fun d => d.slot.toNat) =
    List.range' first.toNat (last.toNat + 1 - first.toNat)
  header : ∀ d ∈ out, d.header =
    ((leading (delivered raw d.slot)).map Delivery.header).getD (none, none, none)
  occurs : ∀ S, (∃ tx ∈ out.flatMap Delivery.transactions, tx.signature = S) ↔
    ∃ e ∈ raw, (first ≤ e.slot ∧ e.slot ≤ last) ∧ ∃ tx ∈ e.transactions, tx.signature = S
  once : ((out.flatMap Delivery.transactions).map Transaction.signature).Nodup
  lowest : ∀ d ∈ out, ∀ tx ∈ d.transactions, ∀ e ∈ raw, first ≤ e.slot →
    (∃ copy ∈ e.transactions, copy.signature = tx.signature) → d.slot ≤ e.slot
  placed : ∀ d ∈ out, d.transactions.Sublist ((firstCopies (copies raw d.slot)).map fun copy =>
    { copy with slot := d.slot, blockTime := copy.blockTime <|> d.blockTime })

theorem isSkipped_merge (first second : Delivery) :
    (merge first second).isSkipped = (first.isSkipped && second.isSkipped) := by
  unfold merge
  cases h : first.isSkipped <;> cases h' : second.isSkipped <;> simp_all [Delivery.isSkipped]

theorem header_merge (first second : Delivery) :
    (merge first second).header =
      if first.isSkipped && !second.isSkipped then second.header else first.header := by
  unfold merge
  split <;> rfl

theorem leading_merge (first second : Delivery) (rest : List Delivery) :
    (leading (merge first second :: rest)).map Delivery.header =
      (leading (first :: second :: rest)).map Delivery.header := by
  unfold leading
  simp only [List.find?_cons, isSkipped_merge, List.head?_cons]
  cases h : first.isSkipped with
  | false => simp [header_merge, h]
  | true =>
    cases h' : second.isSkipped with
    | false => simp [header_merge, h, h']
    | true =>
      cases hfind : rest.find? fun d => !d.isSkipped <;> simp [header_merge, h, h']

theorem header_foldl_merge (d : Delivery) (rest : List Delivery) :
    some (rest.foldl merge d).header = (leading (d :: rest)).map Delivery.header := by
  induction rest generalizing d with
  | nil => cases h : d.isSkipped <;> simp [leading, h]
  | cons second rest ih => rw [List.foldl_cons, ih, leading_merge]

theorem transactions_foldl_merge (d : Delivery) (rest : List Delivery) :
    (rest.foldl merge d).transactions = (d :: rest).flatMap Delivery.transactions := by
  induction rest generalizing d with
  | nil => simp
  | cons second rest ih =>
    rw [List.foldl_cons, ih]
    simp [merge]

/-- Later deliveries of a slot are merged into the first. -/
theorem getElem?_foldl_absorb_of_some {slot : Slot} {deliveries : List Delivery}
    (hslot : ∀ d ∈ deliveries, d.slot = slot) {table : Table} {d : Delivery}
    (h : table[slot]? = some d) :
    (deliveries.foldl absorb table)[slot]? = some (deliveries.foldl merge d) := by
  induction deliveries generalizing table d with
  | nil => exact h
  | cons second rest ih =>
    refine ih (fun e he => hslot e (List.mem_cons_of_mem second he)) ?_
    rw [getElem?_absorb, if_pos (hslot second (List.mem_cons_self ..)), h]
    rfl

theorem joined_cons {slot : Slot} {d : Delivery} {rest : List Delivery}
    (hslot : ∀ e ∈ d :: rest, e.slot = slot) : joined slot (d :: rest) = rest.foldl merge d := by
  have hfirst : (absorb ∅ d)[slot]? = some d := by
    rw [getElem?_absorb, if_pos (hslot d (List.mem_cons_self ..))]
    simp
  unfold joined entry
  rw [List.foldl_cons, getElem?_foldl_absorb_of_some
    (fun e he => hslot e (List.mem_cons_of_mem d he)) hfirst]
  rfl

theorem slot_of_mem_delivered {raw : List Delivery} {slot : Slot} :
    ∀ d ∈ delivered raw slot, d.slot = slot := fun d hd => by
  simpa using (List.mem_filter.1 hd).2

theorem header_joined (raw : List Delivery) (slot : Slot) :
    (joined slot (delivered raw slot)).header =
      ((leading (delivered raw slot)).map Delivery.header).getD (none, none, none) := by
  have hslot : ∀ d ∈ delivered raw slot, d.slot = slot := slot_of_mem_delivered
  cases h : delivered raw slot with
  | nil => rfl
  | cons d rest =>
    rw [joined_cons (h ▸ hslot), ← header_foldl_merge]
    rfl

theorem transactions_joined (raw : List Delivery) (slot : Slot) :
    (joined slot (delivered raw slot)).transactions = copies raw slot := by
  have hslot : ∀ d ∈ delivered raw slot, d.slot = slot := slot_of_mem_delivered
  unfold copies
  cases h : delivered raw slot with
  | nil => rfl
  | cons d rest => rw [joined_cons (h ▸ hslot), transactions_foldl_merge]

/-- What is kept of a slot: the first copies of the signatures that were not seen. -/
theorem unseen_eq (d : Delivery) (seen : Seen) (txs : List Transaction) :
    (unseen d seen txs).1 = ((firstCopies txs).filter (·.signature ∉ seen)).map (place d) := by
  induction txs generalizing seen with
  | nil => rfl
  | cons tx rest ih =>
    unfold unseen firstCopies
    by_cases h : tx.signature ∈ seen
    · rw [if_pos h, ih, List.filter_cons_of_neg (by simpa using h), List.filter_filter]
      refine congrArg _ (List.filter_congr fun copy _ => ?_)
      by_cases hsame : copy.signature = tx.signature
      · simp [hsame, h]
      · simp [hsame]
    · rw [if_neg h, List.filter_cons_of_pos (by simpa using h), List.filter_filter]
      simp only [List.map_cons, ih]
      refine congrArg _ (congrArg _ (List.filter_congr fun copy _ => ?_))
      simp only [Std.ExtTreeSet.mem_insert, Std.compare_eq_iff_eq]
      by_cases hsame : tx.signature = copy.signature
      · simp [hsame]
      · simp [hsame, Ne.symm hsame]

theorem mem_firstCopies {txs : List Transaction} {tx : Transaction} (h : tx ∈ firstCopies txs) :
    tx ∈ txs := by
  induction txs with
  | nil => cases h
  | cons first rest ih =>
    rcases List.mem_cons.1 h with rfl | hrest
    · exact List.mem_cons_self ..
    · exact List.mem_cons_of_mem _ (ih (List.mem_of_mem_filter hrest))

theorem nodup_firstCopies (txs : List Transaction) :
    ((firstCopies txs).map Transaction.signature).Nodup := by
  induction txs with
  | nil => exact List.nodup_nil
  | cons first rest ih =>
    rw [firstCopies, List.map_cons, List.nodup_cons]
    refine ⟨fun hmem => ?_, ih.sublist (List.filter_sublist.map _)⟩
    obtain ⟨copy, hcopy, hsame⟩ := List.mem_map.1 hmem
    simpa [hsame] using (List.mem_filter.1 hcopy).2

variable {first last slot : Slot} {raw out out' : List Delivery} {d d' : Delivery}

/-- Each slot holds what was gathered for it, less the copies that were seen in lower slots. -/
theorem exists_of_mem_slots (hd : d ∈ slots first last raw) : ∃ seen : Seen,
    (first ≤ d.slot ∧ d.slot ≤ last) ∧ d.header = (joined d.slot (delivered raw d.slot)).header ∧
      d.transactions =
        ((firstCopies (copies raw d.slot)).filter (·.signature ∉ seen)).map (place d) := by
  rw [slots_eq_fill] at hd
  obtain ⟨s, hs, seen, rfl⟩ := exists_of_mem_fill hd
  have hrange := Slot.mem_through.1 hs
  have hslot : (entry (gather first last raw) s).slot = s := slot_entry_gather first last raw s
  have hentry : entry (gather first last raw) s = joined s (delivered raw s) :=
    entry_gather_eq_joined hrange raw
  refine ⟨seen, ?_, ?_, ?_⟩
  · rwa [hslot]
  · rw [hslot, ← hentry]
    rfl
  · rw [unseen_eq, hslot, ← transactions_joined, ← hentry]
    rfl

theorem slot_joined (raw : List Delivery) (slot : Slot) :
    (joined slot (delivered raw slot)).slot = slot := by
  unfold delivered
  rw [← entry_gather_eq_joined ⟨UInt64.le_refl slot, UInt64.le_refl slot⟩ raw]
  exact slot_entry_gather slot slot raw slot

/-- A transaction stands in the lowest slot of the range for which its signature was delivered. -/
theorem slot_le_of_mem_slots (hd : d ∈ slots first last raw) {tx : Transaction}
    (htx : tx ∈ d.transactions) {e : Delivery} (he : e ∈ raw) (hfirst : first ≤ e.slot)
    {copy : Transaction} (hcopy : copy ∈ e.transactions) (hsame : copy.signature = tx.signature) :
    d.slot ≤ e.slot := by
  obtain ⟨seen, hrange, -, htransactions⟩ := exists_of_mem_slots hd
  have hplaced : tx.slot = d.slot := by
    rw [htransactions] at htx
    obtain ⟨_, _, rfl⟩ := List.mem_map.1 htx
    rfl
  have hfound := mem_transactions_iff.1 (List.mem_flatMap.2 ⟨d, hd, htx⟩ : tx ∈ transactions ..)
  obtain ⟨s, -, hs, hnone⟩ :=
    (findSome?_eq_some_iff_lowest (Slot.pairwise_through first last)).1 hfound
  obtain rfl : s = d.slot := by
    rw [← hplaced, (signature_of_copy? hs).2]
    exact (slot_joined raw s).symm
  -- in a lower slot there would have been a copy before this one
  by_contra hlower
  have hlt : e.slot < d.slot := UInt64.not_le.1 hlower
  have hthere : e.slot ∈ Slot.through first last :=
    Slot.mem_through.2 ⟨hfirst, UInt64.le_trans (UInt64.le_of_lt hlt) hrange.2⟩
  have hmissing := hnone _ hthere hlt
  unfold copy? at hmissing
  rw [Option.map_eq_none_iff, List.find?_eq_none] at hmissing
  refine hmissing copy ?_ (by simpa using hsame)
  change copy ∈ (joined e.slot (delivered raw e.slot)).transactions
  rw [transactions_joined]
  exact List.mem_flatMap.2 ⟨e, List.mem_filter.2 ⟨he, by simp⟩, hcopy⟩

theorem condensed_slots (first last : Slot) (raw : List Delivery) :
    Condensed first last raw (slots first last raw) := by
  constructor
  case consecutive =>
    rw [← Slot.toNat_through, ← map_slot_slots first last raw, List.map_map]
    rfl
  case header =>
    intro d hd
    obtain ⟨seen, -, hheader, -⟩ := exists_of_mem_slots hd
    rw [hheader, header_joined]
  case occurs =>
    intro S
    constructor
    · intro h
      obtain ⟨tx, htx, rfl⟩ := h
      obtain ⟨s, hrange, e, he, rfl, copy, hcopy, rfl⟩ := mem_transactions htx
      exact ⟨e, he, hrange, copy, hcopy, rfl⟩
    · intro h
      obtain ⟨e, he, hrange, copy, hcopy, rfl⟩ := h
      exact exists_mem_transactions he hrange hcopy
  case once => exact nodup_transactions first last raw
  case lowest =>
    intro d hd tx htx e he hfirst hdelivered
    obtain ⟨copy, hcopy, hsame⟩ := hdelivered
    exact slot_le_of_mem_slots hd htx he hfirst hcopy hsame
  case placed =>
    intro d hd
    obtain ⟨seen, -, -, htransactions⟩ := exists_of_mem_slots hd
    rw [htransactions]
    exact List.filter_sublist.map _

/-- What is left of a list without repetitions is known from the signatures in it. -/
theorem eq_filter_of_sublist {kept txs : List Transaction} (h : kept.Sublist txs)
    (hnodup : (txs.map Transaction.signature).Nodup) :
    kept = txs.filter (·.signature ∈ kept.map Transaction.signature) := by
  induction h with
  | slnil => rfl
  | @cons kept txs tx h ih =>
    rw [List.map_cons, List.nodup_cons] at hnodup
    have hskipped : tx.signature ∉ kept.map Transaction.signature :=
      fun hmem => hnodup.1 ((h.map _).subset hmem)
    rw [List.filter_cons_of_neg (by simpa using hskipped)]
    exact ih hnodup.2
  | @cons_cons kept txs tx h ih =>
    rw [List.map_cons, List.nodup_cons] at hnodup
    rw [List.filter_cons_of_pos (by simp)]
    refine congrArg (tx :: ·) ((ih hnodup.2).trans (List.filter_congr fun copy hcopy => ?_))
    have hother : copy.signature ≠ tx.signature :=
      fun hsame => hnodup.1 (hsame ▸ List.mem_map_of_mem hcopy)
    simp [hother]

/-- Where no key is repeated, an entry is the only one with its key. -/
theorem filter_key_eq {α κ : Type} [DecidableEq κ] {key : α → κ} {entries : List α}
    (hnodup : (entries.map key).Nodup) {entry : α} (h : entry ∈ entries) :
    entries.filter (fun other => key other = key entry) = [entry] := by
  induction entries with
  | nil => cases h
  | cons first rest ih =>
    obtain ⟨hnotMem, hrest⟩ := List.nodup_cons.1 hnodup
    rcases List.mem_cons.1 h with rfl | hmem
    · rw [List.filter_cons_of_pos (by simp), List.filter_eq_nil_iff.2]
      intro other hother hsame
      exact hnotMem (List.mem_map.2 ⟨other, hother, by simpa using hsame⟩)
    · have hne : key first ≠ key entry := fun hsame => hnotMem (hsame ▸ List.mem_map_of_mem hmem)
      rw [List.filter_cons_of_neg (by simpa using hne), ih hrest hmem]

section Condensed

variable (h : Condensed first last raw out)

include h

theorem Condensed.range (hd : d ∈ out) : first ≤ d.slot ∧ d.slot ≤ last := by
  have hmem : d.slot.toNat ∈ out.map fun d => d.slot.toNat := List.mem_map_of_mem hd
  rw [h.consecutive, List.mem_range'_1] at hmem
  rw [UInt64.le_iff_toNat_le, UInt64.le_iff_toNat_le]
  omega

theorem Condensed.eq_of_slot_eq (hd : d ∈ out) (hd' : d' ∈ out) (hslot : d.slot = d'.slot) :
    d = d' := by
  have hnodup : (out.map fun d => d.slot.toNat).Nodup := by
    rw [h.consecutive]
    exact List.nodup_range'
  exact List.inj_on_of_nodup_map hnodup hd hd' (congrArg UInt64.toNat hslot)

/-- Where a signature stands, it was delivered. -/
theorem Condensed.exists_delivered (hd : d ∈ out) {tx : Transaction} (htx : tx ∈ d.transactions) :
    ∃ e ∈ raw, e.slot = d.slot ∧ ∃ copy ∈ e.transactions, copy.signature = tx.signature := by
  obtain ⟨copy, hcopy, rfl⟩ := List.mem_map.1 ((h.placed d hd).subset htx)
  obtain ⟨e, he, hin⟩ := List.mem_flatMap.1 (mem_firstCopies hcopy)
  exact ⟨e, (List.mem_filter.1 he).1, slot_of_mem_delivered e he, copy, hin, rfl⟩

/-- A signature stands in the same slot of all such lists. -/
theorem Condensed.mem_signatures (h' : Condensed first last raw out') (hd : d ∈ out)
    (hd' : d' ∈ out') (hslot : d.slot = d'.slot) {S : Signature}
    (hS : S ∈ d.transactions.map Transaction.signature) :
    S ∈ d'.transactions.map Transaction.signature := by
  obtain ⟨tx, htx, rfl⟩ := List.mem_map.1 hS
  obtain ⟨tx', htx', hsame⟩ :=
    (h'.occurs _).2 ((h.occurs _).1 ⟨tx, List.mem_flatMap.2 ⟨d, hd, htx⟩, rfl⟩)
  obtain ⟨d'', hd'', htx'⟩ := List.mem_flatMap.1 htx'
  obtain ⟨e, he, heslot, copy, hcopy, hcopyS⟩ := h.exists_delivered hd htx
  obtain ⟨e'', he'', heslot'', copy'', hcopy'', hcopyS''⟩ := h'.exists_delivered hd'' htx'
  have hle : d.slot ≤ d''.slot := heslot'' ▸ h.lowest d hd tx htx e'' he''
    (heslot'' ▸ (h'.range hd'').1) ⟨copy'', hcopy'', hcopyS''.trans hsame⟩
  have hge : d''.slot ≤ d.slot := heslot ▸ h'.lowest d'' hd'' tx' htx' e he
    (heslot ▸ (h.range hd).1) ⟨copy, hcopy, hcopyS.trans hsame.symm⟩
  obtain rfl : d'' = d' :=
    h'.eq_of_slot_eq hd'' hd' ((UInt64.le_antisymm hge hle).trans hslot)
  exact hsame ▸ List.mem_map_of_mem htx'

theorem Condensed.transactions_eq (hd : d ∈ out) :
    d.transactions = ((firstCopies (copies raw d.slot)).map (place d)).filter
      (·.signature ∈ d.transactions.map Transaction.signature) := by
  refine eq_filter_of_sublist (h.placed d hd) ?_
  rw [List.map_map]
  exact nodup_firstCopies _

theorem Condensed.eq_of_mem (h' : Condensed first last raw out') (hd : d ∈ out) (hd' : d' ∈ out')
    (hslot : d.slot = d'.slot) : d = d' := by
  have hheader : d.header = d'.header := by rw [h.header d hd, h'.header d' hd', hslot]
  obtain ⟨hhash, hparent, htime⟩ : d.hash = d'.hash ∧ d.parentHash = d'.parentHash ∧
      d.blockTime = d'.blockTime := by simpa [Delivery.header] using hheader
  have hplace : place d = place d' := by
    funext tx
    unfold place
    rw [hslot, htime]
  have htransactions : d.transactions = d'.transactions := by
    rw [h.transactions_eq hd, h'.transactions_eq hd', hplace, hslot]
    refine List.filter_congr fun tx _ => ?_
    rw [decide_eq_decide]
    exact ⟨h.mem_signatures h' hd hd' hslot, h'.mem_signatures h hd' hd hslot.symm⟩
  cases d
  cases d'
  simp_all

theorem Condensed.unique (h' : Condensed first last raw out') : out = out' := by
  have hslots : (out.map fun d => d.slot.toNat) = out'.map fun d => d.slot.toNat :=
    h.consecutive.trans h'.consecutive.symm
  have hlength : out.length = out'.length := by simpa using congrArg List.length hslots
  refine List.ext_getElem hlength fun i hi hi' => ?_
  refine h.eq_of_mem h' (List.getElem_mem hi) (List.getElem_mem hi') (UInt64.toNat_inj.1 ?_)
  simpa [hi, hi'] using congrArg (·[i]?) hslots

end Condensed

/-- Gapless slots are the one list that has every slot of the range in order, with the header of
the delivery that speaks for it and the first copies that are not in a lower slot. -/
theorem condensed_iff_eq_slots (first last : Slot) (raw out : List Delivery) :
    Condensed first last raw out ↔ out = slots first last raw := by
  constructor
  · intro h
    exact h.unique (condensed_slots first last raw)
  · rintro rfl
    exact condensed_slots first last raw

end Gapless

end RouterHistory
