import RouterHistory.Proofs.Reconciliation.BrokenCycle
import RouterHistory.Proofs.Reconciliation.Recovery
import RouterHistory.Proofs.Reconciliation.StableChain

/-!
A cycle after a broken one. Over a chain that does not change, whatever a broken cycle did to a
signature the undisturbed cycle would have done too, and doing it again changes nothing but to
make final what came to stand at the boundary or below it. So the next cycle ends as if there had
been no broken one.
-/
namespace RouterHistory.Reconciler

open Shared

variable {r : Reconciler} {host : Host} {l l' : Ledger} {turns : Turns} {S : Signature}

theorem mem_congr {κ β : Type} [Ord κ] [Std.TransOrd κ]
    {table table' : Std.ExtTreeMap κ β} {k : κ}
    (h : table'[k]? = table[k]?) : k ∈ table' ↔ k ∈ table := by
  rw [Std.ExtTreeMap.mem_iff_isSome_getElem?, h, ← Std.ExtTreeMap.mem_iff_isSome_getElem?]

theorem regular_applied (r : Reconciler) (host : Host) (h : l.Regular) (done : List Resolved) :
    (r.settleAll (r.finalized host l) done).Regular :=
  regular_settleAll (h.finalizeThrough _) done

theorem regular_settledAt (h : l.Regular) : (r.settledAt host l turns).Regular :=
  regular_applied r host h _

theorem regular_recorded (h : l.Regular) (times : Nat → Int) (found : List Transaction) :
    (r.recorded l times found).Regular :=
  (h.written (fun _ _ => trivial) fun _ _ => trivial).quarantineAll fun _ _ => trivial

theorem Leaves.regular (leaves : Leaves r host l l') (h : l.Regular) : l'.Regular := by
  cases leaves with
  | nothing => exact h
  | settled resolves => exact regular_applied r host h _
  | recorded resolves times => exact regular_recorded (regular_applied r host h _) times _

/-- No cycle moves a checkpoint. -/
theorem Leaves.checkpoints (leaves : Leaves r host l l') : l'.checkpoints = l.checkpoints := by
  cases leaves with
  | nothing => rfl
  | settled resolves => exact r.checkpoints_settleAll _ _
  | recorded resolves times =>
    exact (Ledger.checkpoints_written _ _).trans (r.checkpoints_settleAll _ _)

/-- Where the first half of a cycle puts a signature: below the boundary it is final, above it the
answer decides. -/
def settled (r : Reconciler) (host : Host) (S : Signature)
    (before : Option Record × Option Slot) : Option Record × Option Slot :=
  match before.2 with
  | some slot =>
      if r.boundaryAt host < slot then
        (r.finding (.ok (host.source (.resolve S)))).outcome before
      else (before.1, none)
  | none => (before.1, none)

def Canonical (host : Host) : Prop :=
  ∀ S tx, host.source (.resolve S) = .canonical tx → tx.signature = S

theorem standing_settledAt (canonical : Canonical host) :
    (r.settledAt host l turns).standing S = r.settled host S (l.standing S) := by
  unfold settled
  change _ = match l.marks[S]? with | some slot => _ | none => _
  cases hmark : l.marks[S]? with
  | none => exact standing_settledAt_of_not_pending canonical (by simp [hmark])
  | some slot =>
    simp only
    by_cases habove : r.boundaryAt host < slot
    · rw [if_pos habove]
      exact standing_settledAt_of_pending canonical hmark habove
    · rw [if_neg habove]
      refine standing_settledAt_of_not_pending canonical fun s hs => ?_
      rw [← Option.some.inj (hmark.symm.trans hs)]
      exact UInt64.not_lt.1 habove

def above (boundary : Slot) (standing : Option Record × Option Slot) :
    Option Record × Option Slot :=
  (standing.1, standing.2.filter (boundary < ·))

/-- Settled once more, a signature stays where it is, down to the boundary. -/
theorem above_settled_settled (before : Option Record × Option Slot) :
    above (r.boundaryAt host) (r.settled host S (r.settled host S before)) =
      above (r.boundaryAt host) (r.settled host S before) := by
  obtain ⟨row, mark⟩ := before
  cases mark with
  | none => rfl
  | some slot =>
    unfold settled
    simp only
    by_cases habove : r.boundaryAt host < slot
    · simp only [if_pos habove]
      cases hfinding : r.finding (.ok (host.source (.resolve S))) with
      | unknown => simp [Finding.outcome, habove]
      | gone => rfl
      | found row' slot' =>
        simp only [Finding.outcome]
        by_cases habove' : r.boundaryAt host < slot'
        · rw [if_pos habove']
        · have hdropped : (some slot').filter (r.boundaryAt host < ·) = none :=
            Option.filter_some_neg (by simpa using habove')
          rw [if_neg habove']
          unfold above
          rw [hdropped]
          rfl
    · simp only [if_neg habove]

theorem of_resolves (canonical : Canonical host) {done : List Resolved}
    (resolves : Resolves r host l done) :
    ∀ x ∈ done, (r.finding x.verdict).Of x.mark.signature := by
  intro x hx
  rcases resolves.answered x hx with hanswer | ⟨f, hfailed⟩
  · rw [hanswer]
    exact of_finding fun tx htx => canonical x.mark.signature tx (Except.ok.inj htx)
  · rw [hfailed]
    trivial

/-- Each signature is settled, or left as it was. -/
theorem standing_settleAll (canonical : Canonical host) {done : List Resolved}
    (resolves : Resolves r host l done) (S : Signature) :
    (r.settleAll (r.finalized host l) done).standing S = l.standing S ∨
      (r.settleAll (r.finalized host l) done).standing S = r.settled host S (l.standing S) := by
  have hof := of_resolves canonical resolves
  have hfinalized : (r.finalized host l).standing S =
      (l.rows[S]?, l.marks[S]?.filter (r.boundaryAt host < ·)) :=
    l.standing_finalizeThrough (r.boundaryAt host) S
  by_cases hpending : ∃ s, l.marks[S]? = some s ∧ r.boundaryAt host < s
  · obtain ⟨s, hmark, habove⟩ := hpending
    have hkept : (r.finalized host l).standing S = l.standing S := by
      rw [hfinalized, hmark, Option.filter_some_pos (by simpa using habove)]
      unfold Ledger.standing
      rw [hmark]
    by_cases hdone : ∃ x ∈ done, x.mark.signature = S
    · obtain ⟨x, hx, rfl⟩ := hdone
      have hmarks : ∀ y ∈ done, (r.finalized host l).marks[y.mark.signature]? =
          some y.mark.slot :=
        fun y hy => ((Ledger.mem_provisionalAfter _).1 (resolves.pending y hy)).1
      rw [standing_settleAll_of_mem hof resolves.nodup hmarks hx, hkept]
      rcases resolves.answered x hx with hanswer | ⟨f, hfailed⟩
      · right
        rw [hanswer]
        unfold settled
        change _ = match l.marks[x.mark.signature]? with | some slot => _ | none => _
        rw [hmark]
        exact (if_pos habove).symm
      · left
        rw [hfailed]
        rfl
    · left
      rw [standing_settleAll_of_forall_ne hof fun x hx hS => hdone ⟨x, hx, hS⟩, hkept]
  · right
    have hother : ∀ x ∈ done, x.mark.signature ≠ S := by
      intro x hx hS
      obtain ⟨hmark, habove⟩ := mem_pendingAt.1 (resolves.pending x hx)
      exact hpending ⟨_, hS ▸ hmark, habove⟩
    rw [standing_settleAll_of_forall_ne hof hother, hfinalized]
    unfold settled
    change _ = match l.marks[S]? with | some slot => _ | none => _
    cases hmark : l.marks[S]? with
    | none => rfl
    | some s =>
      have hbelow : ¬ r.boundaryAt host < s := fun habove => hpending ⟨s, hmark, habove⟩
      simp only [if_neg hbelow]
      rw [Option.filter_some_neg (by simpa using hbelow)]
      rfl

end RouterHistory.Reconciler

namespace RouterHistory.Reconciliation

open Shared Reconciler

/-- The source serves the chain, and its head may be anywhere. -/
structure Truthful (c : Chain) (host : Host) : Prop where
  serves : ∀ first last programIds,
    c.Serves first last programIds (host.source (.slots first last programIds))
  resolves : ∀ S, c.Resolves S (host.source (.resolve S))

variable {c : Chain} {r : Reconciler} {host : Host} {l l' : Ledger} {turns : Turns}
    {S : Signature}

theorem Truthful.canonical (truthful : Truthful c host) : Canonical host := by
  intro S tx htx
  have hresolves := truthful.resolves S
  rw [htx] at hresolves
  cases hresolves with
  | canonical has same => exact same

/-- A transaction that is fetched again is the one that its signature is resolved as. -/
theorem Truthful.resolve_of_refetched (truthful : Truthful c host) {tx : Transaction}
    (htx : tx ∈ r.refetched host l) : host.source (.resolve tx.signature) = .canonical tx := by
  have hserved : ∃ t, c.Has t ∧ tx = c.timed t := by
    unfold refetched at htx
    split at htx
    · cases htx
    · simp only at htx
      split at htx
      · cases htx
      · split at htx
        · cases htx
        · obtain ⟨t, has, -, -, rfl⟩ := (truthful.serves _ _ _).of_mem_transactions htx
          exact ⟨t, has, rfl⟩
  obtain ⟨t, has, rfl⟩ := hserved
  have hresolves := truthful.resolves (c.timed t).signature
  generalize hverdict : host.source (.resolve (c.timed t).signature) = verdict at hresolves
  cases hresolves with
  | @canonical t' has' same => rw [has'.eq has same]
  | absent none => exact absurd rfl (none t has)

structure Recorded (k : Classifier) (tx : Transaction) (l : Ledger) : Prop where
  classified : ∀ row, k.classify tx = .ok row →
    l.standing tx.signature = (some row, some tx.slot) ∧ tx.signature ∉ l.quarantine
  rejected : ∀ rejection, k.classify tx = .error rejection →
    l.standing tx.signature = (none, none) ∧ tx.signature ∈ l.quarantine

def window (r : Reconciler) (host : Host) (l : Ledger) : List Transaction :=
  (r.refetched host l).filter r.classifier.isRouterTransaction

theorem window_congr (h : l'.checkpoints = l.checkpoints) :
    window r host l' = window r host l := by
  unfold window
  rw [refetched_congr h]

theorem eq_of_mem_window {tx tx' : Transaction} (h : tx ∈ window r host l)
    (h' : tx' ∈ window r host l) (hsame : tx'.signature = tx.signature) : tx' = tx :=
  List.inj_on_of_nodup_map (nodup_refetched.sublist (List.filter_sublist.map _)) h' h hsame

inductive Reached (r : Reconciler) (host : Host) (l l' : Ledger) (S : Signature) : Prop
  | kept (standing : l'.standing S = l.standing S)
      (known : S ∈ l'.quarantine ↔ S ∈ l.quarantine)
  | settled (standing : l'.standing S = r.settled host S (l.standing S))
      (known : S ∈ l'.quarantine ↔ S ∈ l.quarantine)
  | recorded {tx : Transaction} (fetched : tx ∈ window r host l) (same : tx.signature = S)
      (unrecorded : S ∉ l.rows) (unknown : S ∉ l.quarantine)
      (recorded : Recorded r.classifier tx l')

/-- What the rescan does to a signature: a transaction that is fetched again and has neither a row
nor an entry is recorded, and nothing else is. -/
inductive Rescans (r : Reconciler) (host : Host) (l l' : Ledger) (S : Signature) : Prop
  | recorded {tx : Transaction} (fetched : tx ∈ window r host l) (same : tx.signature = S)
      (unrecorded : S ∉ l.rows) (unknown : S ∉ l.quarantine)
      (recorded : Recorded r.classifier tx l')
  | kept (closed : ∀ tx ∈ window r host l, tx.signature = S → S ∈ l.rows ∨ S ∈ l.quarantine)
      (standing : l'.standing S = l.standing S) (entry : l'.quarantine[S]? = l.quarantine[S]?)

theorem rescans_recorded (r : Reconciler) (host : Host) (h : l.Regular) (times : Nat → Int)
    (S : Signature) : Rescans r host l (r.recorded l times (r.foundAt host l)) S := by
  by_cases hopen : ∃ tx ∈ window r host l, tx.signature = S ∧ S ∉ l.rows ∧ S ∉ l.quarantine
  · obtain ⟨tx, htx, rfl, hnew, hunknown⟩ := hopen
    have hfound : tx ∈ r.foundAt host l := (mem_foundAt h).2 ⟨htx, hnew, hunknown⟩
    refine .recorded htx rfl hnew hunknown ⟨fun row => recorded_of_ok h times hfound, ?_⟩
    intro rejection hrejection
    obtain ⟨hstanding, i, hentry⟩ := recorded_of_error h times hfound hrejection
    refine ⟨hstanding, ?_⟩
    rw [Std.ExtTreeMap.mem_iff_isSome_getElem?, hentry]
    rfl
  · have hclosed : ∀ tx ∈ window r host l, tx.signature = S → S ∈ l.rows ∨ S ∈ l.quarantine := by
      intro tx htx hsame
      by_contra hnot
      rw [not_or] at hnot
      exact hopen ⟨tx, htx, hsame, hnot⟩
    obtain ⟨hstanding, hentry⟩ := recorded_of_closed h times hclosed
    exact .kept hclosed hstanding hentry

/-- Settled on the chain, a signature that is fetched again does not lose its row. -/
theorem Truthful.row_of_settled (truthful : Truthful c host) {tx : Transaction}
    (htx : tx ∈ r.refetched host l) {before : Option Record × Option Slot}
    (hgone : (r.settled host tx.signature before).1 = none) : before.1 = none := by
  obtain ⟨row, mark⟩ := before
  unfold Reconciler.settled at hgone
  rw [truthful.resolve_of_refetched htx] at hgone
  cases mark with
  | none => exact hgone
  | some slot =>
    simp only at hgone
    split at hgone
    · simp only [finding] at hgone
      cases hclassify : r.classifier.classify tx with
      | error rejection => simpa [hclassify, Finding.outcome] using hgone
      | ok found => simp [hclassify, Finding.outcome] at hgone
    · exact hgone

theorem mem_rows_iff_standing : S ∈ l.rows ↔ (l.standing S).1 ≠ none := by
  rw [Std.ExtTreeMap.mem_iff_isSome_getElem?, Option.isSome_iff_ne_none]
  rfl

theorem Truthful.reached (truthful : Truthful c host) (h : l.Regular)
    (leaves : Leaves r host l l') (S : Signature) : Reached r host l l' S := by
  have happlied : ∀ {done}, Resolves r host l done →
      Reached r host l (r.settleAll (r.finalized host l) done) S := by
    intro done resolves
    have hknown := r.quarantine_settleAll (r.finalized host l) done
    rcases standing_settleAll truthful.canonical resolves S with hkept | hsettled
    · exact .kept hkept (by rw [hknown]; rfl)
    · exact .settled hsettled (by rw [hknown]; rfl)
  cases leaves with
  | nothing => exact .kept rfl Iff.rfl
  | settled resolves => exact happlied resolves
  | @recorded done resolves times =>
    have hregular := regular_applied r host h done
    have hwindow : window r host (r.settleAll (r.finalized host l) done) = window r host l :=
      window_congr (r.checkpoints_settleAll _ done)
    have hknown : S ∈ (r.settleAll (r.finalized host l) done).quarantine ↔ S ∈ l.quarantine := by
      rw [r.quarantine_settleAll]
      rfl
    cases rescans_recorded r host hregular times S with
    | @recorded tx htx same hnew hunknown hrecorded =>
      subst same
      have hfetched : tx ∈ window r host l := hwindow ▸ htx
      refine .recorded hfetched rfl ?_ (mt hknown.2 hunknown) hrecorded
      rw [mem_rows_iff_standing, not_not] at hnew ⊢
      rcases standing_settleAll truthful.canonical resolves tx.signature with hkept | hsettled
      · rwa [hkept] at hnew
      · rw [hsettled] at hnew
        exact truthful.row_of_settled (List.mem_filter.1 hfetched).1 hnew
    | kept closed standing entry =>
      rcases standing_settleAll truthful.canonical resolves S with hkept | hsettled
      · exact .kept (standing.trans hkept) ((mem_congr entry).trans hknown)
      · exact .settled (standing.trans hsettled) ((mem_congr entry).trans hknown)

/-- A signature is the same in both ledgers, but for a mark at the boundary or below it. -/
structure Alike (boundary : Slot) (S : Signature) (l l' : Ledger) : Prop where
  standing : above boundary (l'.standing S) = above boundary (l.standing S)
  known : S ∈ l'.quarantine ↔ S ∈ l.quarantine

variable {boundary : Slot} {l'' : Ledger} {tx : Transaction}

theorem Alike.symm (alike : Alike boundary S l l') : Alike boundary S l' l :=
  ⟨alike.standing.symm, alike.known.symm⟩

theorem Alike.trans (alike : Alike boundary S l l') (alike' : Alike boundary S l' l'') :
    Alike boundary S l l'' :=
  ⟨alike'.standing.trans alike.standing, alike'.known.trans alike.known⟩

theorem Alike.of_kept (standing : l'.standing S = l.standing S)
    (entry : l'.quarantine[S]? = l.quarantine[S]?) : Alike boundary S l l' :=
  ⟨by rw [standing], mem_congr entry⟩

theorem Alike.row (alike : Alike boundary S l l') : l'.rows[S]? = l.rows[S]? :=
  (Prod.mk.inj alike.standing).1

theorem Alike.mem_rows (alike : Alike boundary S l l') : S ∈ l'.rows ↔ S ∈ l.rows :=
  mem_congr alike.row

theorem Alike.mark (alike : Alike boundary S l l') {s : Slot} (habove : boundary < s) :
    l'.marks[S]? = some s ↔ l.marks[S]? = some s := by
  have hfilter : l'.marks[S]?.filter (boundary < ·) = l.marks[S]?.filter (boundary < ·) :=
    (Prod.mk.inj alike.standing).2
  have hmark : ∀ m : Option Slot, m = some s ↔ m.filter (boundary < ·) = some s := by
    intro m
    rw [Option.filter_eq_some_iff]
    simp [habove]
  rw [hmark, hfilter, ← hmark]

/-- There is only one way to record a transaction. -/
theorem Recorded.alike {k : Classifier} (h : Recorded k tx l) (h' : Recorded k tx l') :
    Alike boundary tx.signature l l' := by
  cases hclassify : k.classify tx with
  | ok row =>
    obtain ⟨hstanding, hunknown⟩ := h.classified row hclassify
    obtain ⟨hstanding', hunknown'⟩ := h'.classified row hclassify
    exact ⟨by rw [hstanding, hstanding'], iff_of_false hunknown' hunknown⟩
  | error rejection =>
    obtain ⟨hstanding, hknown⟩ := h.rejected rejection hclassify
    obtain ⟨hstanding', hknown'⟩ := h'.rejected rejection hclassify
    exact ⟨by rw [hstanding, hstanding'], iff_of_true hknown' hknown⟩

/-- What is alike is alike after the rescan. -/
theorem Alike.recorded (h : l.Regular) (h' : l'.Regular)
    (hwindow : window r host l' = window r host l) (alike : Alike boundary S l l')
    (times times' : Nat → Int) :
    Alike boundary S (r.recorded l times (r.foundAt host l))
      (r.recorded l' times' (r.foundAt host l')) := by
  have hrescans := rescans_recorded r host h times S
  have hrescans' := rescans_recorded r host h' times' S
  cases hrescans with
  | @recorded tx htx same unrecorded unknown recorded =>
    cases hrescans' with
    | @recorded tx' htx' same' _ _ recorded' =>
      have heq : tx' = tx := eq_of_mem_window htx (hwindow ▸ htx') (same'.trans same.symm)
      subst heq same
      exact recorded.alike recorded'
    | kept closed' _ _ =>
      rcases closed' tx (hwindow ▸ htx) same with hrow | hknown
      · exact absurd (alike.mem_rows.1 hrow) unrecorded
      · exact absurd (alike.known.1 hknown) unknown
  | kept closed standing entry =>
    cases hrescans' with
    | @recorded tx' htx' same' unrecorded' unknown' _ =>
      rcases closed tx' (hwindow ▸ htx') same' with hrow | hknown
      · exact absurd (alike.mem_rows.2 hrow) unrecorded'
      · exact absurd (alike.known.2 hknown) unknown'
    | kept _ standing' entry' =>
      exact ((Alike.of_kept standing entry).symm.trans alike).trans (.of_kept standing' entry')

/-- What was recorded is not moved by the first half of the next cycle, down to the boundary. -/
theorem Truthful.alike_settledAt (truthful : Truthful c host) (htx : tx ∈ r.refetched host l)
    (hrecorded : Recorded r.classifier tx l') (turns : Turns) :
    Alike (r.boundaryAt host) tx.signature l' (r.settledAt host l' turns) := by
  refine ⟨?_, by rw [quarantine_settledAt]⟩
  rw [standing_settledAt truthful.canonical]
  cases hclassify : r.classifier.classify tx with
  | ok row =>
    rw [(hrecorded.classified row hclassify).1]
    simp only [Reconciler.settled, truthful.resolve_of_refetched htx, finding, hclassify,
      Finding.outcome]
    by_cases habove : r.boundaryAt host < tx.slot
    · rw [if_pos habove]
    · rw [if_neg habove]
      unfold above
      rw [Option.filter_some_neg (by simpa using habove)]
      rfl
  | error rejection =>
    rw [(hrecorded.rejected rejection hclassify).1]
    rfl

/-- A transaction that is recorded stays as it is in the next cycle, down to the boundary. -/
theorem Truthful.alike_cycledAt (truthful : Truthful c host) (h' : l'.Regular)
    (htx : tx ∈ r.refetched host l) (hrecorded : Recorded r.classifier tx l') (now : Int) :
    Alike (r.boundaryAt host) tx.signature l' (r.cycledAt (host.atTime now) l' turns) := by
  have hsettled := truthful.alike_settledAt htx hrecorded turns
  have hseen : tx.signature ∈ (r.settledAt host l' turns).rows ∨
      tx.signature ∈ (r.settledAt host l' turns).quarantine := by
    rw [hsettled.mem_rows, hsettled.known]
    cases hclassify : r.classifier.classify tx with
    | ok row =>
      rw [mem_rows_iff_standing, (hrecorded.classified row hclassify).1]
      exact .inl (Option.some_ne_none row)
    | error rejection => exact .inr (hrecorded.rejected rejection hclassify).2
  refine hsettled.trans ?_
  cases rescans_recorded r host (regular_settledAt h') (fun _ => now) tx.signature with
  | recorded _ _ unrecorded unknown _ => exact absurd hseen (not_or.2 ⟨unrecorded, unknown⟩)
  | kept _ standing entry => exact .of_kept standing entry

/-- What the undisturbed cycle records, when the signature has neither a row nor an entry. -/
theorem recorded_cycledAt (canonical : Canonical host) (h : l.Regular)
    (htx : tx ∈ window r host l)
    (hnew : tx.signature ∉ l.rows) (hunknown : tx.signature ∉ l.quarantine) (turns : Turns)
    (now : Int) : Recorded r.classifier tx (r.cycledAt (host.atTime now) l turns) := by
  have hwindow : window r host (r.settledAt host l turns) = window r host l :=
    window_congr (r.checkpoints_settledAt host l turns)
  have hunmarked : l.marks[tx.signature]? = none :=
    Std.ExtTreeMap.getElem?_eq_none fun hmark => hnew (h.marked _ hmark)
  have hsettled : (r.settledAt host l turns).standing tx.signature =
      (l.rows[tx.signature]?, none) :=
    standing_settledAt_of_not_pending canonical (by simp [hunmarked])
  have hnew' : tx.signature ∉ (r.settledAt host l turns).rows := by
    rw [mem_rows_iff_standing, hsettled]
    rwa [mem_rows_iff_standing] at hnew
  have hunknown' : tx.signature ∉ (r.settledAt host l turns).quarantine := by
    rwa [quarantine_settledAt]
  cases rescans_recorded r host (regular_settledAt h) (fun _ => now) tx.signature with
  | @recorded tx' htx' same _ _ recorded =>
    have heq : tx' = tx := eq_of_mem_window htx (hwindow ▸ htx') same
    exact heq ▸ recorded
  | kept closed _ _ => exact absurd (closed tx (hwindow ▸ htx) rfl) (not_or.2 ⟨hnew', hunknown'⟩)

/-- The cycle after the broken one ends as the cycle does without it. -/
theorem Truthful.alike_of_leaves (truthful : Truthful c host) (h : l.Regular)
    (leaves : Leaves r host l l') (turns turns' : Turns) (now now' : Int) (S : Signature) :
    Alike (r.boundaryAt host) S (r.cycledAt (host.atTime now) l turns)
      (r.cycledAt (host.atTime now') l' turns') := by
  have h' := leaves.regular h
  have hwindow : window r host (r.settledAt host l' turns') =
      window r host (r.settledAt host l turns) := by
    refine window_congr ?_
    rw [checkpoints_settledAt, checkpoints_settledAt, leaves.checkpoints]
  have hsettled : Alike (r.boundaryAt host) S (r.settledAt host l turns)
      (r.settledAt host l' turns') →
      Alike (r.boundaryAt host) S (r.cycledAt (host.atTime now) l turns)
        (r.cycledAt (host.atTime now') l' turns') := fun alike =>
    alike.recorded (regular_settledAt h) (regular_settledAt h') hwindow (fun _ => now)
      fun _ => now'
  cases truthful.reached h leaves S with
  | kept standing known =>
    refine hsettled ⟨?_, ?_⟩
    · rw [standing_settledAt truthful.canonical, standing_settledAt truthful.canonical, standing]
    · rwa [quarantine_settledAt, quarantine_settledAt]
  | settled standing known =>
    refine hsettled ⟨?_, ?_⟩
    · rw [standing_settledAt truthful.canonical, standing_settledAt truthful.canonical, standing]
      exact above_settled_settled _
    · rwa [quarantine_settledAt, quarantine_settledAt]
  | recorded fetched same unrecorded unknown recorded =>
    subst same
    have hfetched := (List.mem_filter.1 fetched).1
    have hundisturbed := recorded_cycledAt truthful.canonical h fetched unrecorded unknown turns
      now
    exact (hundisturbed.alike recorded).trans
      (truthful.alike_cycledAt h' hfetched recorded now')

structure Harmless (r : Reconciler) (host : Host) (l l' : Ledger) : Prop where
  checkpoints : l'.checkpoints = l.checkpoints
  final : ∀ S, l.lifecycle S = .final → l'.lifecycle S = .final ∧ l'.rows[S]? = l.rows[S]?
  quarantine : ∀ (S : Signature) (q : Quarantined),
    l.quarantine[S]? = some q → l'.quarantine[S]? = some q
  converges : ∀ (turns turns' : Turns) (now now' : Int), ∃ report report' m m',
    (host.atTime now).around.run l (r.cycleIn turns) = (.ok report, m) ∧
    (host.atTime now').around.run l' (r.cycleIn turns') = (.ok report', m') ∧
    m'.rows = m.rows ∧ (∀ S, S ∈ m'.quarantine ↔ S ∈ m.quarantine) ∧
    ∀ (S : Signature) (s : Slot), r.boundaryAt host < s →
      (m'.marks[S]? = some s ↔ m.marks[S]? = some s)

theorem Truthful.final_of_leaves (truthful : Truthful c host) (h : l.Regular)
    (leaves : Leaves r host l l') (hfinal : l.lifecycle S = .final) :
    l'.lifecycle S = .final ∧ l'.rows[S]? = l.rows[S]? := by
  obtain ⟨row, hstanding⟩ := lifecycle_eq_final_iff.1 hfinal
  have hsame : l'.standing S = l.standing S := by
    cases truthful.reached h leaves S with
    | kept standing known => exact standing
    | settled standing known =>
      rw [standing, hstanding]
      rfl
    | recorded fetched same unrecorded unknown recorded =>
      rw [mem_rows_iff_standing, hstanding] at unrecorded
      exact absurd (Option.some_ne_none row) unrecorded
  exact ⟨lifecycle_eq_final_iff.2 ⟨row, hsame.trans hstanding⟩, (Prod.mk.inj hsame).1⟩

theorem entry_of_leaves (h : l.Regular) (leaves : Leaves r host l l') {q : Quarantined}
    (hq : l.quarantine[S]? = some q) : l'.quarantine[S]? = some q := by
  cases leaves with
  | nothing => exact hq
  | settled resolves =>
    rw [r.quarantine_settleAll]
    exact hq
  | @recorded done resolves times =>
    have hregular := regular_applied r host h done
    have hsettled : (r.settleAll (r.finalized host l) done).quarantine[S]? = some q := by
      rw [r.quarantine_settleAll]
      exact hq
    have hknown : S ∈ (r.settleAll (r.finalized host l) done).quarantine := by
      rw [Std.ExtTreeMap.mem_iff_isSome_getElem?, hsettled]
      rfl
    cases rescans_recorded r host hregular times S with
    | recorded _ _ _ unknown _ => exact absurd hknown unknown
    | kept _ _ entry => exact entry.trans hsettled

/-- Over a chain that does not change, on a ledger in which each mark has a row: a cycle that runs
alone, whichever of its calls fail, moves no checkpoint, no final row and no quarantine entry, and
the next undisturbed cycle ends as it does without the broken one. -/
theorem broken_cycle_is_harmless (truthful : Truthful c host) (h : l.Regular) (r : Reconciler)
    (turns : Turns) :
    (r.cycleIn turns).Ends host.fallible (fun _ l' _ => Harmless r host l l') [] l := by
  refine Program.ends_imp (r.cycleIn_ends host l turns) ?_
  intro q l' result leaves
  refine ⟨leaves.checkpoints, fun S hfinal => truthful.final_of_leaves h leaves hfinal,
    fun S q hq => entry_of_leaves h leaves hq, fun turns turns' now now' => ?_⟩
  have alike := truthful.alike_of_leaves h leaves turns turns' now now'
  exact ⟨_, _, _, _, r.run_cycleIn _ l turns, r.run_cycleIn _ l' turns',
    Std.ExtTreeMap.ext_getElem? fun S => (alike S).row, fun S => (alike S).known,
    fun S s habove => (alike S).mark habove⟩

def onlyTransaction : Transaction :=
  ⟨⟨String.ofList (List.replicate 64 '1')⟩, 1, none, none, [⟨"router", "2"⟩], []⟩

def onlyRecording : Recording :=
  .ofDeliveries (some 1) [⟨1, some "b1", none, some 1700000000, [onlyTransaction]⟩]

theorem ofRecording_only : Chain.OfRecording onlyRecording :=
  .of_nodup (by decide +kernel) (by decide +kernel)

def oneSlotHost : Host := ⟨onlyRecording.reply, 0⟩

theorem truthful_oneSlotHost : Truthful (.ofRecording _ ofRecording_only) oneSlotHost :=
  ⟨fun first last programIds => Chain.serves_slots ofRecording_only first last programIds,
    fun S => Chain.resolves_resolve ofRecording_only S⟩

theorem regular_partlyRecorded : partlyRecorded.Regular :=
  (Ledger.Attained.empty.afterCalls 0 _).regular

/-- A cycle that deletes the row at slot one, which is not on the chain, and then fails to read
the checkpoint. -/
def brokenOff : Except Failure CycleReport × Ledger :=
  oneSlotHost.runFailing (List.replicate 5 none ++ [some (.storage "lost")])
    partlyRecorded ((Reconciler.ofSettings oneRouter).cycleIn .inOrder)

theorem broken_off_is_harmless :
    brokenOff.1.isOk = false ∧ brokenOff.2.lifecycle ⟨"kept"⟩ = .unseen ∧
      brokenOff.2.lifecycle onlyTransaction.signature = .unseen ∧
      Harmless (.ofSettings oneRouter) oneSlotHost partlyRecorded brokenOff.2 := by
  obtain ⟨-, harmless⟩ := ends_runFailing
    (broken_cycle_is_harmless truthful_oneSlotHost regular_partlyRecorded
      (.ofSettings oneRouter) .inOrder)
    (List.replicate 5 none ++ [some (.storage "lost")])
  exact ⟨by decide +kernel, by decide +kernel, by decide +kernel, harmless⟩

end RouterHistory.Reconciliation
