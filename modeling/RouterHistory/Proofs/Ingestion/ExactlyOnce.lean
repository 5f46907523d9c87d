import RouterHistory.Proofs.Ingestion.Batches
import RouterHistory.Proofs.Shared.Law

/-!
Ingestion happens exactly once. However many pipelines with the same settings share a ledger,
however their calls come between each other, fail or lose their answers, and whoever is dropped
and built anew, the slot of the checkpoint decides what is stored, and it is what one pipeline
that is never disturbed has stored when its checkpoint is there.
-/
namespace RouterHistory.Ingestion

open Shared

/-- Pipelines with the same settings over a source that always answers the same. Any call may
fail, and a commit that took effect may seem to have failed. -/
def ingestion (source : Answers) (s : Settings) : Site where
  source call a := a = source call
  failing := True
  lossy := True
  settings t := t = s
  reconcilers _ := False

def batchwise (source : Answers) (s : Settings) : Law where
  holds l := l = .empty ∨ ∃ k, Ingested source s k l
  grows _ _ := True
  refl _ := trivial
  trans _ _ := trivial

variable {source : Answers} {s : Settings} {l l' : Ledger}

theorem Ingested.start {k : Nat} (h : Ingested source s k l) (now : Int) :
    (l.answer now (.start s.id s.genesisSlot)).2 = l := by
  obtain ⟨cp, hcp, -⟩ := h.checkpoint
  simp [Ledger.answer, Checkpoints.start, hcp]

/-- A checkpoint that exists is not created again. -/
theorem batchwise_start (h : (batchwise source s).holds l) (now : Int) :
    (batchwise source s).holds (l.answer now (.start s.id s.genesisSlot)).2 := by
  rcases h with rfl | ⟨k, hk⟩
  · exact .inr ⟨0, .created now⟩
  · rw [hk.start]
    exact .inr ⟨k, hk⟩

/-- A commit that takes effect is that of the next batch: any other expects the checkpoint
elsewhere. -/
theorem batchwise_commit (h : (batchwise source s).holds l) {position : Slot}
    (ahead : s.Ahead (source .head) position) (now : Int) (times : Nat → Int) :
    (batchwise source s).holds (l.commit now
      (s.commitOf position (s.lastOf (source .head) position)
        (source (.slots (position + 1) (s.lastOf (source .head) position)
          s.classifier.programIds)) times)).2 := by
  generalize hbatch : s.commitOf position _ _ times = b
  cases hmove : l.checkMove now b.move with
  | error f =>
    rw [l.commit_of_error hmove]
    exact h
  | ok next =>
    subst hbatch
    obtain ⟨cp, hcp, hslot, -, -⟩ := l.checkMove_eq_ok.1 hmove
    rcases h with rfl | ⟨k, hk⟩
    · simp [Ledger.empty] at hcp
    · obtain ⟨cp', hcp', -, hstand, -⟩ := hk.checkpoint
      cases hcp.symm.trans hcp'
      have hposition : position = stand source s k := hslot.symm.trans hstand
      subst hposition
      exact .inr ⟨k + 1, .stored now times hk ahead⟩

theorem batchwise_kept : (batchwise source s).Kept (ingestion source s) := by
  refine ⟨fun t allowed past q a l l' holds recorded inOrder answered => ?_,
    fun r allowed => allowed.elim⟩
  have hsettings : t = s := allowed
  subst hsettings
  refine ⟨?_, trivial⟩
  cases inOrder with
  | start =>
    cases answered with
    | store now => exact batchwise_start holds now
    | storeFailed => exact holds
  | commit times fetched =>
    obtain ⟨⟨head, l₁, hhead, ahead, rfl⟩, l₂, hraw⟩ := fetched
    have hheard : head = source .head := recorded.told_by_source hhead
    subst hheard
    have htold := recorded.told_by_source hraw
    cases answered with
    | store now => exact htold ▸ batchwise_commit holds ahead now times
    | storeFailed => exact holds
    | receiptLost now => exact htold ▸ batchwise_commit holds ahead now times
  | _ => cases answered <;> exact holds

theorem Ingested.of_reachable {σ : State} (reached : Reachable (ingestion source s) .empty σ)
    {cp : Checkpoint} (stored : σ.ledger.checkpoints[s.id]? = some cp) :
    ∃ k, Ingested source s k σ.ledger ∧ cp.slot = stand source s k ∧
      cp.revision = UInt64.ofNat k := by
  rcases (batchwise_kept.reachable (.inl rfl) reached).holds with hempty | ⟨k, hk⟩
  · rw [hempty] at stored
    simp [Ledger.empty] at stored
  · obtain ⟨cp', hcp', -, hslot, hrevision⟩ := hk.checkpoint
    cases stored.symm.trans hcp'
    exact ⟨k, hk, hslot, hrevision⟩

theorem exists_undisturbed {k : Nat} (hk : ∃ l, Ingested source s k l) (window : ChainWindow) :
    ∃ x, Undisturbed (ingestion source s) s window x ∧ Ingested source s k x.1 := by
  obtain ⟨l, hl⟩ := hk
  have suits : (Host.mk source 0).Suits (ingestion source s).calm := fun call => rfl
  obtain ⟨l₀, p, hreached, hpoised⟩ := exists_poised 0 suits hl.more window
  obtain ⟨hfits, ⟨rfl, rfl, -⟩ | ⟨hingested, -⟩⟩ := hpoised
  · obtain ⟨next, hstart⟩ : ∃ next, (Pipeline.ofSettings s window).step =
        .ask (.store (.start s.id s.genesisSlot)) next := ⟨_, rfl⟩
    have hbegun : Undisturbed (ingestion source s) s window
        (.empty, .stepping [] (Pipeline.ofSettings s window).step) :=
      .single (.begins .empty (.ofSettings s window))
    rw [hstart] at hbegun
    exact ⟨_, hbegun.tail (.asks (.store 0)), .created 0⟩
  · exact ⟨_, hreached, hingested⟩

/-- Whenever the stored checkpoint is at a slot, an undisturbed pipeline has it there too at some
point, and at every such point rows, marks, quarantine and revision are the same. -/
theorem stored_as_if_undisturbed {σ : State} (reached : Reachable (ingestion source s) .empty σ)
    {cp : Checkpoint} (stored : σ.ledger.checkpoints[s.id]? = some cp) (window : ChainWindow) :
    (∃ x cp', Undisturbed (ingestion source s) s window x ∧
      x.1.checkpoints[s.id]? = some cp' ∧ cp'.slot = cp.slot) ∧
    ∀ x cp', Undisturbed (ingestion source s) s window x → x.1.checkpoints[s.id]? = some cp' →
      cp'.slot = cp.slot → σ.ledger.Same x.1 ∧ cp.revision = cp'.revision := by
  obtain ⟨k, hk, hslot, hrevision⟩ := Ingested.of_reachable reached stored
  constructor
  · obtain ⟨x, hx, hingested⟩ := exists_undisturbed ⟨_, hk⟩ window
    obtain ⟨cp', hcp', -, hslot', -⟩ := hingested.checkpoint
    exact ⟨x, cp', hx, hcp', hslot'.trans hslot.symm⟩
  · intro x cp' hx hcp' hsame
    obtain ⟨σ', reached', hledger, -⟩ := hx.reachable rfl
    rw [← hledger] at hcp' ⊢
    obtain ⟨k', hk', hslot', hrevision'⟩ := Ingested.of_reachable reached' hcp'
    have hcount := hk.count_eq hk' (hslot.symm.trans (hsame.symm.trans hslot'))
    subst hcount
    exact ⟨hk.same hk', hrevision.trans hrevision'.symm⟩

def twoSlots : Answers
  | .head => (2 : Slot)
  | .slots _ _ _ => ([⟨1, some "b1", none, some 1700000000,
        [⟨⟨String.ofList (List.replicate 64 '1')⟩, 1, none, none, [⟨"router", "2"⟩], []⟩]⟩,
      ⟨2, some "b2", some "b1", some 1700000001,
        [⟨⟨"a"⟩, 2, none, none, [⟨"router", "2"⟩], []⟩]⟩] : List Delivery)
  | .resolve _ => Verdict.absent

/-- Two pipelines that fetch the same slot before either stores it; the first is dropped and
built anew in the middle of its second step. -/
def contested : State :=
  let goOn (i : Nat) : Nat × Action := (i, .goOn ⟨twoSlots, 0⟩)
  (State.idle .empty).playAll ([(0, .join slotwise ⟨1, []⟩), (1, .join slotwise ⟨1, []⟩)] ++
    List.replicate 4 (goOn 0) ++ List.replicate 4 (goOn 1) ++ List.replicate 5 (goOn 0) ++
    List.replicate 5 (goOn 1) ++ [(0, .leave), (0, .join slotwise ⟨1, []⟩)] ++
    List.replicate 14 (goOn 0) ++ List.replicate 9 (goOn 1))

theorem contested_stored_as_if_undisturbed :
    ∃ cp, contested.ledger.checkpoints[slotwise.id]? = some cp ∧ cp.slot = 2 ∧
      ∃ x cp', Undisturbed (ingestion twoSlots slotwise) slotwise ⟨1, []⟩ x ∧
        x.1.checkpoints[slotwise.id]? = some cp' ∧ cp'.slot = 2 ∧
        contested.ledger.Same x.1 ∧ cp.revision = cp'.revision := by
  have suits : (Host.mk twoSlots 0).Suits (ingestion twoSlots slotwise) := fun call => rfl
  have joins : (ingestion twoSlots slotwise).settings slotwise := rfl
  have reached : Reachable (ingestion twoSlots slotwise) .empty contested := by
    refine Reachable.idle.playAll ?_
    simp [or_imp, forall_and, Action.Suits, suits, joins]
  have hslot : contested.ledger.checkpoints[slotwise.id]?.map Checkpoint.slot = some 2 := by
    decide +kernel
  obtain ⟨cp, hcp, hat⟩ := Option.map_eq_some_iff.1 hslot
  obtain ⟨⟨x, cp', hx, hcp', hsame⟩, hall⟩ :=
    stored_as_if_undisturbed reached hcp ⟨1, []⟩
  obtain ⟨hhistory, hrevision⟩ := hall x cp' hx hcp' hsame
  exact ⟨cp, hcp, hat, x, cp', hx, hcp', hsame.trans hat, hhistory, hrevision⟩

end RouterHistory.Ingestion
