import RouterHistory.Proofs.Shared.StepConduct
import RouterHistory.Proofs.Store.LedgerWrites
import RouterHistory.Source

/-!
Sources that serve a chain which never changes. Each transaction is in its own slot and each
signature belongs to one transaction. The source may leave out slots, deliver them in parts, in
any order and more than once, and keep to the transactions that were asked for.
-/
namespace RouterHistory

structure Chain where
  slots : Slot → Delivery
  own : ∀ {s tx}, tx ∈ (slots s).transactions → tx.slot = s
  once : ∀ {s s' tx tx'}, tx ∈ (slots s).transactions → tx' ∈ (slots s').transactions →
    tx.signature = tx'.signature → tx = tx'

namespace Chain

variable {c : Chain}

def Has (c : Chain) (tx : Transaction) : Prop := tx ∈ (c.slots tx.slot).transactions

theorem has_of_mem {s : Slot} {tx : Transaction} (h : tx ∈ (c.slots s).transactions) :
    c.Has tx ∧ tx.slot = s := by
  have hslot := c.own h
  subst hslot
  exact ⟨h, rfl⟩

theorem Has.eq {tx tx' : Transaction} (h : c.Has tx) (h' : c.Has tx')
    (hsame : tx.signature = tx'.signature) : tx = tx' := c.once h h' hsame

def timed (c : Chain) (tx : Transaction) : Transaction :=
  { tx with blockTime := tx.blockTime <|> (c.slots tx.slot).blockTime }

/-- What may be delivered for a range: only what is on the chain, and no transaction of the
programs is left out. -/
structure Serves (c : Chain) (first last : Slot) (programIds : List String)
    (raw : List Delivery) : Prop where
  blockTime : ∀ d ∈ raw, d.blockTime = (c.slots d.slot).blockTime
  sound : ∀ d ∈ raw, ∀ tx ∈ d.transactions, tx ∈ (c.slots d.slot).transactions
  complete : ∀ tx, c.Has tx → first ≤ tx.slot → tx.slot ≤ last → tx.invokesAny programIds →
    ∃ d ∈ raw, d.slot = tx.slot ∧ tx ∈ d.transactions

inductive Resolves (c : Chain) (S : Signature) : Verdict → Prop
  | canonical {tx : Transaction} (has : c.Has tx) (same : tx.signature = S) :
      Resolves c S (.canonical (c.timed tx))
  | absent (none : ∀ tx, c.Has tx → tx.signature ≠ S) : Resolves c S .absent

/-- The answers of a source that serves the chain; its head may go anywhere below the top. -/
def Answers (c : Chain) : (call : SourceCall) → call.Answer → Prop
  | .head => fun head => head < Slot.top
  | .slots first last programIds => c.Serves first last programIds
  | .resolve S => c.Resolves S

variable {first last : Slot} {programIds : List String} {raw : List Delivery}

/-- Gapless slots hold transactions of the chain, as the source resolves them. -/
theorem Serves.of_mem_transactions (h : c.Serves first last programIds raw) {tx : Transaction}
    (htx : tx ∈ Gapless.transactions first last raw) :
    ∃ t, c.Has t ∧ first ≤ t.slot ∧ t.slot ≤ last ∧ tx = c.timed t := by
  obtain ⟨s, hrange, d, hd, rfl, copy, hcopy, rfl⟩ := Gapless.mem_transactions htx
  obtain ⟨hhas, hslot⟩ := has_of_mem (h.sound d hd copy hcopy)
  refine ⟨copy, hhas, hslot ▸ hrange.1, hslot ▸ hrange.2, ?_⟩
  have hentry := (Gapless.mem_entry_gather first last raw d.slot copy hrange).2
    ⟨d, hd, rfl, hcopy⟩
  have htime := Gapless.blockTime_entry_gather first last raw d.slot (c.slots d.slot).blockTime
    (fun e he hsame => hsame ▸ h.blockTime e he) hentry
  unfold Gapless.place timed
  rw [Gapless.slot_entry_gather, htime, hslot]

/-- They hold all of the programs' transactions. -/
theorem Serves.mem_transactions (h : c.Serves first last programIds raw) {t : Transaction}
    (has : c.Has t) (hfirst : first ≤ t.slot) (hlast : t.slot ≤ last)
    (hrouter : t.invokesAny programIds) : c.timed t ∈ Gapless.transactions first last raw := by
  obtain ⟨d, hd, hslot, hcopy⟩ := h.complete t has hfirst hlast hrouter
  obtain ⟨tx, htx, hsame⟩ := Gapless.exists_mem_transactions hd
    ⟨hslot ▸ hfirst, hslot ▸ hlast⟩ hcopy
  obtain ⟨t', has', -, -, rfl⟩ := h.of_mem_transactions htx
  rwa [← has'.eq has hsame]

/-- A recording in which each transaction is in its own slot and has its signature for itself. -/
structure OfRecording (r : Recording) : Prop where
  own : ∀ (s : Slot) (d : Delivery), r.deliveries[s]? = some d →
    d.slot = s ∧ ∀ tx ∈ d.transactions, tx.slot = s
  once : ∀ (s s' : Slot) (d d' : Delivery), r.deliveries[s]? = some d →
    r.deliveries[s']? = some d' → ∀ tx ∈ d.transactions, ∀ tx' ∈ d'.transactions,
      tx.signature = tx'.signature → tx = tx'

theorem OfRecording.of_nodup {r : Recording}
    (own : ∀ p ∈ r.deliveries.toList, p.2.slot = p.1 ∧ ∀ tx ∈ p.2.transactions, tx.slot = p.1)
    (once : ((r.deliveries.toList.flatMap fun p => p.2.transactions).map
      Transaction.signature).Nodup) : OfRecording r := by
  have hmem {s : Slot} {d : Delivery} (hd : r.deliveries[s]? = some d) :
      (s, d) ∈ r.deliveries.toList := Std.ExtTreeMap.mem_toList_iff_getElem?_eq_some.2 hd
  refine ⟨fun s d hd => own (s, d) (hmem hd), fun s s' d d' hd hd' tx htx tx' htx' hsame => ?_⟩
  exact List.inj_on_of_nodup_map once (List.mem_flatMap.2 ⟨(s, d), hmem hd, htx⟩)
    (List.mem_flatMap.2 ⟨(s', d'), hmem hd', htx'⟩) hsame

theorem mem_recorded {r : Recording} {s : Slot} {tx : Transaction}
    (h : tx ∈ (r.deliveries[s]?.getD (.skipped s)).transactions) :
    ∃ d, r.deliveries[s]? = some d ∧ tx ∈ d.transactions := by
  cases hd : r.deliveries[s]? with
  | none => simp [hd, Delivery.skipped] at h
  | some d => exact ⟨d, rfl, by simpa [hd] using h⟩

def ofRecording (r : Recording) (h : OfRecording r) : Chain where
  slots s := r.deliveries[s]?.getD (.skipped s)
  own := by
    intro s tx htx
    obtain ⟨d, hd, hmem⟩ := mem_recorded htx
    exact (h.own s d hd).2 tx hmem
  once := by
    intro s s' tx tx' htx htx' hsame
    obtain ⟨d, hd, hmem⟩ := mem_recorded htx
    obtain ⟨d', hd', hmem'⟩ := mem_recorded htx'
    exact h.once s s' d d' hd hd' tx hmem tx' hmem' hsame

theorem ofRecording_slots {r : Recording} {h : OfRecording r} {s : Slot} {d : Delivery}
    (hd : r.deliveries[s]? = some d) : (ofRecording r h).slots s = d := by
  change r.deliveries[s]?.getD (.skipped s) = d
  rw [hd]
  rfl

variable {r : Recording}

theorem serves_slots (h : OfRecording r) (first last : Slot) (programIds : List String) :
    (ofRecording r h).Serves first last programIds (r.slots first last programIds) := by
  have hraw : ∀ d ∈ r.slots first last programIds, ∃ (s : Slot) (e : Delivery),
      r.deliveries[s]? = some e ∧ d = e.keeping programIds := by
    intro d hd
    obtain ⟨⟨s, e⟩, hmem, rfl⟩ := List.mem_map.1 hd
    exact ⟨s, e, Std.ExtTreeMap.mem_toList_iff_getElem?_eq_some.1 (List.mem_filter.1 hmem).1, rfl⟩
  refine ⟨fun d hd => ?_, fun d hd tx htx => ?_, fun tx has hfirst hlast hrouter => ?_⟩
  · obtain ⟨s, e, he, rfl⟩ := hraw d hd
    have hslot : (e.keeping programIds).slot = s := (h.own s e he).1
    rw [hslot, ofRecording_slots he]
    rfl
  · obtain ⟨s, e, he, rfl⟩ := hraw d hd
    have hslot : (e.keeping programIds).slot = s := (h.own s e he).1
    rw [hslot, ofRecording_slots he]
    exact (List.mem_filter.1 htx).1
  · obtain ⟨d, hd, hmem⟩ := mem_recorded has
    refine ⟨d.keeping programIds, List.mem_map.2 ⟨(tx.slot, d), ?_, rfl⟩, (h.own _ d hd).1,
      List.mem_filter.2 ⟨hmem, hrouter⟩⟩
    refine List.mem_filter.2 ⟨Std.ExtTreeMap.mem_toList_iff_getElem?_eq_some.2 hd, ?_⟩
    simp [hfirst, hlast]

theorem resolves_resolve (h : OfRecording r) (S : Signature) :
    (ofRecording r h).Resolves S (r.resolve S) := by
  have hvalues : ∀ d, d ∈ r.deliveries.values ↔ ∃ s : Slot, r.deliveries[s]? = some d := by
    intro d
    rw [values_eq_map_toList]
    simp [Std.ExtTreeMap.mem_toList_iff_getElem?_eq_some]
  unfold Recording.resolve
  simp only
  split
  · next tx hfound =>
    obtain ⟨d, hd, hin⟩ := List.exists_of_findSome?_eq_some hfound
    obtain ⟨t, ht, rfl⟩ := Option.map_eq_some_iff.1 hin
    obtain ⟨s, hs⟩ := (hvalues d).1 hd
    have hmem := List.mem_of_find?_eq_some ht
    have hslot := (h.own s d hs).2 t hmem
    subst hslot
    have has : (ofRecording r h).Has t := by
      unfold Has
      rwa [ofRecording_slots hs]
    have htimed : { t with blockTime := t.blockTime <|> d.blockTime } =
        (ofRecording r h).timed t := by
      unfold timed
      rw [ofRecording_slots hs]
    rw [htimed]
    exact .canonical has (by simpa using List.find?_some ht)
  · next hmissing =>
    refine .absent fun tx has hsame => ?_
    obtain ⟨d, hd, hmem⟩ := mem_recorded has
    have hnone := List.findSome?_eq_none_iff.1 hmissing d ((hvalues d).2 ⟨_, hd⟩)
    simp only [Option.map_eq_none_iff, List.find?_eq_none] at hnone
    exact hnone tx hmem (by simpa using hsame)

/-- A recorded stream serves the chain that is recorded in it. -/
theorem answers_reply (h : OfRecording r) (hhead : r.head < Slot.top) (call : SourceCall) :
    (ofRecording r h).Answers call (r.reply call) := by
  cases call with
  | head => exact hhead
  | slots first last programIds => exact serves_slots h first last programIds
  | resolve S => exact resolves_resolve h S

end Chain

end RouterHistory
