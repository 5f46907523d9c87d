import RouterHistory.Proofs.Reconciliation.Deletion
import RouterHistory.Proofs.Reconciliation.Recovery
import RouterHistory.Proofs.Shared.Sequence

/-!
Where rows come from. Operations run one after the other, with one classifier, and the source may
change between any two requests. A row is then always what the classifier made of a transaction
that the source delivered after the row's signature was last removed.
-/
namespace RouterHistory.History

open Shared

/-- The source delivered the transaction: it said that the chain has it, or it fetched it. -/
inductive Delivers : Call → Transaction → Prop
  | resolved (S : Signature) (tx : Transaction) (l : Ledger) :
      Delivers ⟨.source (.resolve S), Except.ok (.canonical tx), l⟩ tx
  | fetched {first last : Slot} {raw : List Delivery} {tx : Transaction}
      (programIds : List String) (l : Ledger)
      (delivered : tx ∈ Gapless.transactions first last raw) :
      Delivers ⟨.source (.slots first last programIds), Except.ok raw, l⟩ tx

inductive Removes (S : Signature) : Call → Prop
  | orphaned (slot : Slot) (l : Ledger) :
      Removes S ⟨.store (.orphan S slot), Except.ok true, l⟩

/-- A row of a signature is what becomes of a transaction that was delivered after the signature
was last removed. -/
def Traced (c : Classifier) (past : List Call) (S : Signature) (row : Record) : Prop :=
  ∃ newer call older tx, past = newer ++ call :: older ∧ Delivers call tx ∧ tx.signature = S ∧
    c.classify tx = .ok row ∧ ∀ later ∈ newer, ¬ Removes S later

variable {c : Classifier} {past earlier : List Call} {S : Signature} {row : Record}

theorem Traced.cons (h : Traced c past S row) {call : Call} (kept : ¬ Removes S call) :
    Traced c (call :: past) S row := by
  obtain ⟨newer, delivery, older, tx, rfl, delivers, hS, hrow, hnewer⟩ := h
  refine ⟨call :: newer, delivery, older, tx, rfl, delivers, hS, hrow, fun later hlater => ?_⟩
  rcases List.mem_cons.1 hlater with rfl | hlater
  · exact kept
  · exact hnewer later hlater

theorem Traced.append (h : Traced c past S row) (earlier : List Call) :
    Traced c (past ++ earlier) S row := by
  obtain ⟨newer, delivery, older, tx, rfl, rest⟩ := h
  exact ⟨newer, delivery, older ++ earlier, tx, by simp, rest⟩

/-- What was delivered in a stretch of calls without removals. -/
theorem traced_of_mem {call : Call} {tx : Transaction} (hcall : call ∈ past)
    (delivers : Delivers call tx) (hS : tx.signature = S) (hrow : c.classify tx = .ok row)
    (kept : ∀ later ∈ past, ¬ Removes S later) : Traced c past S row := by
  obtain ⟨newer, older, rfl⟩ := List.append_of_mem hcall
  exact ⟨newer, call, older, tx, rfl, delivers, hS, hrow, fun later hlater =>
    kept later (List.mem_append_left _ hlater)⟩

/-- After a removal only a new delivery explains a row. -/
theorem Traced.delivered_since (h : Traced c past S row) {newer older : List Call}
    {removal : Call}
    (hpast : past = newer ++ removal :: older) (removes : Removes S removal) :
    ∃ call ∈ newer, ∃ tx, Delivers call tx ∧ tx.signature = S := by
  obtain ⟨since, call, before, tx, hdelivery, delivers, hS, -, kept⟩ := h
  rw [hpast] at hdelivery
  rcases List.append_eq_append_iff.1 hdelivery with ⟨more, hsince, hrest⟩ | ⟨more, hnewer, hrest⟩
  · cases more with
    | nil =>
      cases hrest
      cases delivers <;> cases removes
    | cons first more =>
      cases hrest
      exact absurd removes (kept _ (hsince ▸ List.mem_append_right _ (List.mem_cons_self ..)))
  · cases more with
    | nil =>
      cases hrest
      cases delivers <;> cases removes
    | cons first more =>
      cases hrest
      exact ⟨call, hnewer ▸ List.mem_append_right _ (List.mem_cons_self ..), tx, delivers, hS⟩

variable {site : Site} {l l' : Ledger} {r : Request} {a : r.Answer}

/-- A row that was removed is gone. -/
theorem notMem_of_removes (h : Answered site l r a l') (removes : Removes S ⟨r, a, l⟩) :
    S ∉ l'.rows := by
  generalize hcall : Call.mk r a l = call at removes
  cases removes with
  | orphaned slot _ =>
    cases hcall
    generalize hok : (Except.ok true : Except Failure Bool) = answer at h
    cases h with
    | store now =>
      have hremoved : (l.orphan S slot).1 = true := (Except.ok.inj hok).symm
      have hmark : l.marks[S]? = some slot := by
        by_contra hne
        rw [l.orphan_of_ne hne] at hremoved
        cases hremoved
      change S ∉ (l.orphan S slot).2.rows
      rw [l.orphan_of_eq hmark]
      simp
    | storeFailed f _ => cases hok

/-- Every row that a call leaves was there before, or the call brought it. -/
theorem row_of_answer (h : l.Regular) {now : Int} {call : StoreCall}
    (hrow : (l.answer now call).2.rows[S]? = some row) :
    l.rows[S]? = some row ∨ row.signature = S ∧ row ∈ call.records := by
  have hold : l.Holds (fun row => l.rows[row.signature]? = some row ∨ row ∈ call.records)
      fun _ => True := by
    refine ⟨h.marked, fun T row hT => ?_, h.mark, h.entry, h.checkpoint⟩
    have hsignature := (h.row T row hT).1
    exact ⟨hsignature, .inl (hsignature ▸ hT)⟩
  obtain ⟨hsignature, hrow⟩ :=
    (hold.answer now (fun _ hbrought => .inr hbrought) fun _ _ => trivial).row S row hrow
  exact hrow.imp (hsignature ▸ id) fun hbrought => ⟨hsignature, hbrought⟩

/-- A step writes what it fetched, and it removes nothing. -/
theorem traced_of_step {s : Settings}
    (recorded : Recorded .none site (Pipeline.StepRule s) past l)
    {call : StoreCall} (inOrder : Pipeline.StepRule s past (.store call))
    (hrow : row ∈ call.records) : Traced s.classifier past row.signature row := by
  cases inOrder with
  | start => cases hrow
  | commit stamp fetched =>
    obtain ⟨e, he, rfl⟩ := List.mem_map.1 hrow
    obtain ⟨tx, htx, row, hclassified, rfl⟩ := Sorted.mem_entries.1 he
    obtain ⟨-, l₀, hslots⟩ := fetched
    refine traced_of_mem hslots (.fetched _ _ (Settings.mem_transactionsOf.1 htx).1)
      (Classifier.signature_of_classify hclassified).symm hclassified
      fun later hlater removes => ?_
    obtain ⟨older, -, hentry⟩ := recorded.entry_of_mem hlater
    cases removes
    cases hentry.inOrder

/-- A cycle that resolved a signature as present does not remove it. -/
theorem kept_of_resolved {r : Reconciler} (recorded : Recorded .none site r.CycleRule past l)
    {tx : Transaction} {l₀ : Ledger}
    (resolved : ⟨.source (.resolve S), Except.ok (Verdict.canonical tx), l₀⟩ ∈ past) :
    ∀ later ∈ past, ¬ Removes S later := by
  intro later hlater removes
  obtain ⟨older, hsuffix, hentry⟩ := recorded.entry_of_mem hlater
  cases removes with
  | orphaned slot l₁ =>
    obtain ⟨⟨newer, l₂, first, -, rfl⟩, -⟩ := hentry.inOrder.resolution_of_orphan
    have habsent : ⟨.source (.resolve S), Except.ok Verdict.absent, l₂⟩ ∈ past :=
      hsuffix.subset (List.mem_append_right _ (List.mem_cons_self ..))
    have hsame := recorded.unique (q := .source (.resolve S))
      Reconciler.CycleRule.once_of_resolve resolved habsent rfl rfl
    cases hsame

/-- A cycle that fetched slots removes nothing after that. -/
theorem kept_of_fetched {r : Reconciler} (recorded : Recorded .none site r.CycleRule past l)
    {newer older : List Call} {first last : Slot} {programIds : List String}
    {answer : Except Failure (List Delivery)} {l₀ : Ledger}
    (hpast : past = newer ++ ⟨.source (.slots first last programIds), answer, l₀⟩ :: older) :
    ∀ later ∈ newer, ¬ Removes S later := by
  intro later hlater removes
  obtain ⟨since, before, rfl⟩ := List.append_of_mem hlater
  rw [List.append_assoc, List.cons_append] at hpast
  subst hpast
  cases removes with
  | orphaned slot l₁ =>
    have unfetched := recorded.entry.inOrder.resolution_of_orphan.2
    exact unfetched first last programIds _ (List.mem_append_right _ (List.mem_cons_self ..)) rfl

/-- A cycle writes what it resolved or fetched, and does not remove it between the two. -/
theorem traced_of_cycle {r : Reconciler}
    (findsOwn : site.FindsOwn)
    (recorded : Recorded .none site r.CycleRule past l) {call : StoreCall}
    (inOrder : r.CycleRule past (.store call)) (hrow : row ∈ call.records) :
    Traced r.classifier past row.signature row := by
  generalize hcall : Request.store call = request at inOrder
  cases inOrder with
  | @upsert mark tx row' stored l₀ older read resolved classified differs =>
    cases hcall
    obtain rfl := List.mem_singleton.1 hrow
    subst read
    obtain ⟨newer, l₁, before, -, rfl⟩ := resolved
    have hresolved : ⟨.source (.resolve mark.signature), Except.ok (Verdict.canonical tx), l₁⟩ ∈
        (⟨.store (.record mark.signature), Except.ok stored, l₀⟩ ::
          (newer ++ ⟨.source (.resolve mark.signature), Except.ok (Verdict.canonical tx), l₁⟩ ::
            before) : List Call) := by simp
    have hsame := Classifier.signature_of_classify classified
    have howner := findsOwn _ _ (recorded.told_by_source hresolved)
    refine traced_of_mem hresolved (.resolved _ tx l₁) hsame.symm classified ?_
    rw [hsame, howner]
    exact kept_of_resolved recorded hresolved
  | commit now unrecorded nodup some =>
    cases hcall
    obtain ⟨e, he, rfl⟩ := List.mem_map.1 hrow
    obtain ⟨tx, htx, row, hclassified, rfl⟩ := Sorted.mem_entries.1 he
    obtain ⟨newest, l₀, older, ⟨newer, listed, l₁, before, delivered, -, rfl⟩, -, rfl⟩ :=
      unrecorded tx htx
    obtain ⟨first, last, raw, l₂, -, hslots, hdelivered, -⟩ := delivered
    obtain ⟨since, oldest, hpast⟩ := List.append_of_mem (List.mem_append_right newest
      (List.mem_cons_of_mem _ (List.mem_append_right newer (List.mem_cons_of_mem _ hslots))))
    exact ⟨since, _, oldest, tx, hpast, .fetched _ l₂ hdelivered,
      (Classifier.signature_of_classify hclassified).symm, hclassified,
      kept_of_fetched recorded hpast⟩
  | _ => cases hcall <;> cases hrow

/-- At every point of operations that run one after the other, each row is what the classifier
made of a transaction of its signature that was delivered after the signature was last removed. So
a signature that was removed has no row until the source delivers it again. -/
theorem row_traced_to_delivery
    (oneClassifier : (∀ s, site.settings s → s.classifier = c) ∧
      ∀ r, site.reconcilers r → r.classifier = c)
    (findsOwn : site.FindsOwn)
    {rest : Program Unit} (h : Sequence site earlier past l rest) (S : Signature) :
    (∀ row, l.rows[S]? = some row → Traced c (past ++ earlier) S row) ∧
    ∀ newer removal older, past ++ earlier = newer ++ removal :: older → Removes S removal →
      (∀ call ∈ newer, ∀ tx, Delivers call tx → tx.signature ≠ S) → S ∉ l.rows := by
  have traced : ∀ row, l.rows[S]? = some row → Traced c (past ++ earlier) S row := by
    induction h with
    | empty =>
      intro row hrow
      simp [Ledger.empty] at hrow
    | begins _ _ ih => exact ih
    | @asks earlier past l l' r a next before answered ih =>
      intro row hrow
      -- what is there after a call was not removed by it
      have kept : ¬ Removes S ⟨r, a, l⟩ := fun removes =>
        notMem_of_removes answered removes
          (Std.ExtTreeMap.mem_iff_isSome_getElem?.2 (by simp [hrow]))
      refine Traced.cons ?_ kept
      rcases answered.ledger with rfl | ⟨now, call, rfl, rfl⟩
      · exact ih row hrow
      · rcases row_of_answer before.attained.regular hrow with hold | ⟨rfl, hbrought⟩
        · exact ih row hold
        · obtain ⟨op, allowed, recorded, inOrder⟩ := before.in_order
          refine Traced.append ?_ earlier
          cases allowed with
          | step allowed fits =>
            rw [← oneClassifier.1 _ allowed, ← fits.1]
            exact traced_of_step recorded inOrder hbrought
          | cycle turns allowed =>
            rw [← oneClassifier.2 _ allowed]
            exact traced_of_cycle findsOwn recorded inOrder hbrought
  refine ⟨traced, fun newer removal older hpast removes undelivered present => ?_⟩
  obtain ⟨row, hrow⟩ :=
    Option.isSome_iff_exists.1 (Std.ExtTreeMap.mem_iff_isSome_getElem?.1 present)
  obtain ⟨call, hcall, tx, delivers, hS⟩ := (traced row hrow).delivered_since hpast removes
  exact undelivered call hcall tx delivers hS

section Redelivery

open Reconciliation

def reader (id : String) : Operation := .step (.ofSettings { oneRouter with id } ⟨1, []⟩)

/-- Slot one was ingested, then its transaction was gone from the chain, then another pipeline
ingested slot one. -/
def ingested : Ledger := (timed.around.run .empty (reader "first").program).2

def removed : Ledger :=
  (barren.around.run ingested
    (Operation.cycle ⟨oneRouter.classifier, 32, none⟩ .inOrder).program).2

def redelivered : Ledger := (timed.around.run removed (reader "second").program).2

theorem redelivered_row_is_traced : ∃ first second third row,
    Sequence (.withClassifier oneRouter.classifier) [] first ingested (.done ()) ∧
    soundSignature ∈ ingested.rows ∧
    Sequence (.withClassifier oneRouter.classifier) first second removed (.done ()) ∧
    soundSignature ∉ removed.rows ∧
    Sequence (.withClassifier oneRouter.classifier) (second ++ first) third redelivered
      (.done ()) ∧
    redelivered.rows[soundSignature]? = some row ∧
    Traced oneRouter.classifier (third ++ (second ++ first)) soundSignature row := by
  have suits : timed.Suits (.withClassifier oneRouter.classifier) := by
    intro call
    cases call <;> trivial
  have suits' : barren.Suits (.withClassifier oneRouter.classifier) := by
    intro call
    cases call <;> trivial
  have allowed : ∀ id, (reader id).Allowed (.withClassifier oneRouter.classifier) := fun id =>
    .step (s := { oneRouter with id }) rfl ⟨rfl, rfl, rfl⟩
  obtain ⟨first, hfirst⟩ : ∃ q, Sequence (.withClassifier oneRouter.classifier) [] q ingested
      (.done ()) := (Sequence.empty.begins (allowed "first")).run suits
  have hbegun := hfirst.begins (.cycle (r := ⟨oneRouter.classifier, 32, none⟩) .inOrder rfl)
  rw [List.append_nil] at hbegun
  obtain ⟨second, hsecond⟩ : ∃ q, Sequence (.withClassifier oneRouter.classifier) first q removed
      (.done ()) := hbegun.run suits'
  obtain ⟨third, hthird⟩ : ∃ q, Sequence (.withClassifier oneRouter.classifier)
      (second ++ first) q redelivered (.done ()) := (hsecond.begins (allowed "second")).run suits
  have hrow : redelivered.rows[soundSignature]? =
      some ⟨soundSignature, ⟨1700000000, 0, by decide, by decide⟩, true, 1⟩ := by
    decide +kernel
  refine ⟨first, second, third, _, hfirst, by decide +kernel, hsecond, by decide +kernel, hthird,
    hrow, ?_⟩
  exact (row_traced_to_delivery ⟨fun _ h => h, fun _ h => h⟩
    (Site.findsOwn_withClassifier _) hthird _).1 _ hrow

end Redelivery

end RouterHistory.History
