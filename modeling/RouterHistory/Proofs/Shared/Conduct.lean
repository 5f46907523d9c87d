import RouterHistory.Proofs.Shared.Surroundings
import RouterHistory.Proofs.Shared.Workers

/-!
The conduct of a program. A rule says which request is in order after which calls, the latest
call first. A program follows the rule if each of its requests is in order, however the requests
before it were answered. What a program may ask is thus justified by what it was told.
-/
namespace RouterHistory

namespace Shared

def Since (past : List Call) (ok : Request → Prop) (q : List Call) : Prop :=
  ∃ newer, q = newer ++ past ∧ ∀ call ∈ newer, ok call.request

variable {past q q' : List Call} {ok : Request → Prop}

theorem since_refl : Since past ok past := ⟨[], rfl, by simp⟩

theorem Since.cons (h : Since past ok q) {call : Call} (hcall : ok call.request) :
    Since past ok (call :: q) := by
  obtain ⟨newer, rfl, hnewer⟩ := h
  exact ⟨call :: newer, rfl, List.forall_mem_cons.2 ⟨hcall, hnewer⟩⟩

theorem Since.trans (h : Since past ok q) (h' : Since q ok q') : Since past ok q' := by
  obtain ⟨newer, rfl, hnewer⟩ := h
  obtain ⟨newest, rfl, hnewest⟩ := h'
  exact ⟨newest ++ newer, by rw [List.append_assoc],
    List.forall_mem_append.2 ⟨hnewest, hnewer⟩⟩

theorem Since.imp (h : Since past ok q) {ok' : Request → Prop} (himp : ∀ r, ok r → ok' r) :
    Since past ok' q := by
  obtain ⟨newer, rfl, hnewer⟩ := h
  exact ⟨newer, rfl, fun call hcall => himp _ (hnewer call hcall)⟩

theorem Since.suffix (h : Since past ok q) : past <:+ q := by
  obtain ⟨newer, rfl, -⟩ := h
  exact List.suffix_append newer past

/-- The calls of other kinds are those that there were. -/
theorem Since.filter_eq (h : Since past ok q) {other : Call → Bool}
    (hother : ∀ call, ok call.request → other call = false) :
    q.filter other = past.filter other := by
  obtain ⟨newer, rfl, hnewer⟩ := h
  have hnone : newer.filter other = [] :=
    List.filter_eq_nil_iff.2 fun call hcall => by simp [hother call (hnewer call hcall)]
  rw [List.filter_append, hnone, List.nil_append]

end Shared

namespace Program

open Shared

variable {α β : Type} {site : Site} {rule : List Call → Request → Prop}
variable {post : List Call → α → Prop} {past : List Call}

/-- Each request obeys the rule, and the result has the property `post`. -/
def Follows (site : Site) (rule : List Call → Request → Prop) (post : List Call → α → Prop) :
    List Call → Program α → Prop
  | past, .done a => post past a
  | past, .ask r next => rule past r ∧
      ∀ l a l', Answered site l r a l' → Follows site rule post (⟨r, a, l⟩ :: past) (next a)

theorem follows_imp {p : Program α} {post' : List Call → α → Prop}
    (h : p.Follows site rule post past) (himp : ∀ q a, post q a → post' q a) :
    p.Follows site rule post' past := by
  induction p generalizing past with
  | done a => exact himp past a h
  | ask r next ih => exact ⟨h.1, fun l a l' ha => ih a (h.2 l a l' ha)⟩

/-- What a program ends with, it ends with whatever the rule. -/
theorem Follows.unruled {p : Program α} (h : p.Follows site rule post past) :
    p.Follows site (fun _ _ => True) post past := by
  induction p generalizing past with
  | done a => exact h
  | ask r next ih => exact ⟨trivial, fun l a l' ha => ih a (h.2 l a l' ha)⟩

/-- A result comes with a history that goes on from the one at the start. -/
theorem follows_suffix {p : Program α} (h : p.Follows site rule post past) :
    p.Follows site rule (fun q a => past <:+ q ∧ post q a) past := by
  induction p generalizing past with
  | done a => exact ⟨List.suffix_refl past, h⟩
  | ask r next ih =>
    refine ⟨h.1, fun l a l' ha => follows_imp (ih a (h.2 l a l' ha)) ?_⟩
    intro q b h
    obtain ⟨hq, hb⟩ := h
    exact ⟨(List.suffix_cons _ past).trans hq, hb⟩

theorem follows_bind {p : Program β} {f : β → Program α}
    (h : p.Follows site rule (fun q b => (f b).Follows site rule post q) past) :
    (p >>= f).Follows site rule post past := by
  induction p generalizing past with
  | done b => exact h
  | ask r next ih => exact ⟨h.1, fun l a l' ha => ih a (h.2 l a l' ha)⟩

theorem follows_source {call : SourceCall} {f : Except Failure call.Answer → Program α}
    (asks : rule past (.source call))
    (failed : ∀ l e,
      (f (.error e)).Follows site rule post (⟨.source call, Except.error e, l⟩ :: past))
    (answered : ∀ l a, site.source call a →
      (f (.ok a)).Follows site rule post (⟨.source call, Except.ok a, l⟩ :: past)) :
    (Program.source call >>= f).Follows site rule post past := by
  refine ⟨asks, fun l a l' ha => ?_⟩
  cases ha with
  | source allowed => exact answered l _ allowed
  | sourceFailed e _ => exact failed l e

theorem follows_store {call : StoreCall} {f : Except Failure call.Answer → Program α}
    (asks : rule past (.store call))
    (failed : ∀ l e,
      (f (.error e)).Follows site rule post (⟨.store call, Except.error e, l⟩ :: past))
    (answered : ∀ l a now, (l.answer now call).1 = .ok a →
      (f (.ok a)).Follows site rule post (⟨.store call, Except.ok a, l⟩ :: past)) :
    (Program.store call >>= f).Follows site rule post past := by
  refine ⟨asks, fun l a l' ha => ?_⟩
  cases ha with
  | store now =>
    cases h : (l.answer now call).1 with
    | error e => exact failed l e
    | ok a => exact answered l a now h
  | storeFailed e _ => exact failed l e
  | receiptLost now reason _ => exact failed l _

theorem follows_emit {e : Event} {f : Unit → Program α} (asks : rule past (.emit e))
    (answered : ∀ l, (f ()).Follows site rule post (⟨.emit e, (), l⟩ :: past)) :
    (Program.emit e >>= f).Follows site rule post past :=
  ⟨asks, fun l _ _ _ => answered l⟩

theorem follows_wait {w : Wait} {f : Bool → Program α} (asks : rule past (.wait w))
    (answered : ∀ l stop, (f stop).Follows site rule post (⟨.wait w, stop, l⟩ :: past)) :
    (Program.wait w >>= f).Follows site rule post past :=
  ⟨asks, fun l stop _ _ => answered l stop⟩

theorem follows_shutdownFlag {f : Bool → Program α} (asks : rule past .shutdownFlag)
    (answered : ∀ l flag, (f flag).Follows site rule post (⟨.shutdownFlag, flag, l⟩ :: past)) :
    (Program.shutdownFlag >>= f).Follows site rule post past :=
  ⟨asks, fun l flag _ _ => answered l flag⟩

theorem follows_emitAll {events : List Event} {post : List Call → Unit → Prop}
    (asks : ∀ q e, rule q (.emit e)) (h : ∀ q, past <:+ q → post q ()) :
    (Program.emitAll events).Follows site rule post past := by
  induction events generalizing past with
  | nil => exact h past (List.suffix_refl past)
  | cons e rest ih =>
    refine ⟨asks past e, fun l _ _ _ => ih fun q hq => ?_⟩
    exact h q ((List.suffix_cons _ past).trans hq)

section Retry

variable {b : Backoff} {operation : String} {body : Program (Except Failure β)}
variable {post : List Call → Except Failure β → Prop} {failed : List Call → Failure → Prop}

/-- How an attempt ends: with the result, or with a failure of which something is known. -/
def Attempted (post : List Call → Except Failure β → Prop) (failed : List Call → Failure → Prop)
    (q : List Call) : Except Failure β → Prop
  | .ok a => post q (.ok a)
  | .error e => failed q e

theorem follows_attempt {f : Failure → Program (Except Failure β)}
    (attempt : body.Follows site rule (Attempted post failed) past)
    (again : ∀ q e, e.isTransient → failed q e → (f e).Follows site rule post q)
    (lasting : ∀ q e, failed q e → post q (.error e)) :
    (body >>= fun
      | .ok a => .done (.ok a)
      | .error e => if e.isTransient then f e else .done (.error e)).Follows site rule post
        past := by
  refine follows_bind (follows_imp attempt ?_)
  intro q result h
  cases result with
  | ok a => exact h
  | error e =>
    by_cases ht : e.isTransient
    · simp only [ht, if_true]
      exact again q e ht h
    · simp only [ht, if_false, Bool.false_eq_true]
      exact lasting q e h

/-- What holds at the start, and again after each delay, every attempt may start from. -/
theorem follows_retry_keeping {keeps : List Call → Prop} (start : keeps past)
    (attempt : ∀ q, keeps q → body.Follows site rule (Attempted post failed) q)
    (waits : ∀ q e ms, failed q e →
      rule q (.wait (.backoff ms)) ∧ ∀ stop l, keeps (⟨.wait (.backoff ms), stop, l⟩ :: q))
    (lasting : ∀ q e, failed q e → post q (.error e))
    (exhausted : ∀ q n e, e.isTransient → failed q e →
      post q (.error (.retryExhausted operation n e))) :
    (b.retry operation body).Follows site rule post past := by
  suffices h : ∀ n q, keeps q → (b.attemptFrom operation body n).Follows site rule post q from
    h 0 past start
  intro n
  induction n using Backoff.attempt_induction with
  | call n ih =>
    intro q hq
    rw [Backoff.attemptFrom_eq]
    refine follows_attempt (attempt q hq) (fun q' e transient h => ?_) lasting
    cases hdelay : b.delay? (n + 1) with
    | none => exact exhausted q' _ e transient h
    | some d =>
      obtain ⟨hwait, hkept⟩ := waits q' e d h
      exact ⟨hwait, fun l stop _ _ => ih d hdelay _ (hkept stop l)⟩

/-- Every attempt starts from a history that goes on from the first one's. -/
theorem follows_retry (waits : ∀ q ms, rule q (.wait (.backoff ms)))
    (attempt : ∀ q, past <:+ q →
      body.Follows site rule (fun q' result => ∀ a, result = .ok a → post q' (.ok a)) q)
    (lasting : ∀ q e, past <:+ q → post q (.error e)) :
    (b.retry operation body).Follows site rule post past := by
  have goesOn : ∀ q, past <:+ q →
      body.Follows site rule (Attempted post fun q' _ => past <:+ q') q := by
    intro q hq
    refine follows_imp (follows_suffix (attempt q hq)) fun q' result h => ?_
    cases result with
    | ok a => exact h.2 a rfl
    | error e => exact hq.trans h.1
  exact follows_retry_keeping (List.suffix_refl past) goesOn
    (fun q e ms hq => ⟨waits q ms, fun stop l => hq.trans (List.suffix_cons _ q)⟩) lasting
    fun q n e _ hq => lasting q _ hq

end Retry

variable {ok : Request → Prop} {fine : α → Prop}

/-- Requests that are always in order. -/
theorem Asks.follows {p : Program α} (h : p.Asks ok fine) (inOrder : ∀ q r, ok r → rule q r) :
    p.Follows site rule (fun q a => Since past ok q ∧ fine a) past := by
  induction p generalizing past with
  | done a => exact ⟨since_refl, h⟩
  | ask r next ih =>
    refine ⟨inOrder past r h.1, fun l a l' _ => follows_imp (ih a (h.2 a)) fun q b hq => ?_⟩
    exact ⟨(since_refl.cons h.1).trans hq.1, hq.2⟩

end Program

end RouterHistory
