import RouterHistory.Proofs.Shared.Conduct
import RouterHistory.Proofs.Shared.Play

/-!
Programs that run alone. Nothing comes between two of their requests, so the ledger that a request
finds is the one that the request before it left. Calls may fail without effect; whatever is
answered, a program comes to an end, and `Ends` says how.
-/
namespace RouterHistory

/-- The source of the host, where any call may fail without effect. -/
def Shared.Host.fallible (host : Shared.Host) : Shared.Site where
  source call a := a = host.source call
  failing := True
  lossy := False
  settings _ := True
  reconcilers _ := True

theorem Shared.Host.suits_fallible (host : Shared.Host) : host.Suits host.fallible := fun _ => rfl

theorem Shared.Host.lossless_fallible (host : Shared.Host) : ¬ host.fallible.lossy := id

namespace Program

open Shared

variable {α β : Type} {site : Site} {post : List Call → Ledger → α → Prop}
variable {past : List Call} {l : Ledger}

/-- However its requests are answered, the program ends with this property of its calls, the
ledger and its result. -/
def Ends (site : Site) (post : List Call → Ledger → α → Prop) :
    List Call → Ledger → Program α → Prop
  | past, l, .done a => post past l a
  | past, l, .ask r next =>
      ∀ a l', Answered site l r a l' → Ends site post (⟨r, a, l⟩ :: past) l' (next a)

theorem ends_imp {p : Program α} {post' : List Call → Ledger → α → Prop}
    (h : p.Ends site post past l) (himp : ∀ q l' a, post q l' a → post' q l' a) :
    p.Ends site post' past l := by
  induction p generalizing past l with
  | done a => exact himp past l a h
  | ask r next ih => exact fun a l' ha => ih a (h a l' ha)

/-- The calls at the end go on from those at the start. -/
theorem ends_suffix {p : Program α} (h : p.Ends site post past l) :
    p.Ends site (fun q l' a => past <:+ q ∧ post q l' a) past l := by
  induction p generalizing past l with
  | done a => exact ⟨List.suffix_refl past, h⟩
  | ask r next ih =>
    refine fun a l' ha => ends_imp (ih a (h a l' ha)) ?_
    intro q l'' b hq
    exact ⟨(List.suffix_cons _ past).trans hq.1, hq.2⟩

theorem Ends.and {p : Program α} {post' : List Call → Ledger → α → Prop}
    (h : p.Ends site post past l) (h' : p.Ends site post' past l) :
    p.Ends site (fun q l' a => post q l' a ∧ post' q l' a) past l := by
  induction p generalizing past l with
  | done a => exact ⟨h, h'⟩
  | ask r next ih => exact fun a l' ha => ih a (h a l' ha) (h' a l' ha)

/-- What a program that follows a rule ends with, it ends with alone. -/
theorem Follows.ends_alone {p : Program α} {rule : List Call → Request → Prop}
    {post' : List Call → α → Prop} (h : p.Follows site rule post' past) (l : Ledger) :
    p.Ends site (fun q _ a => post' q a) past l := by
  induction p generalizing past l with
  | done a => exact h
  | ask r next ih => exact fun a l' ha => ih a (h.2 l a l' ha) l'

theorem Ends.and_follows {p : Program α} {rule : List Call → Request → Prop}
    {post' : List Call → α → Prop} (h : p.Ends site post past l)
    (hf : p.Follows site rule post' past) :
    p.Ends site (fun q l' a => post q l' a ∧ post' q a) past l := h.and (hf.ends_alone l)

/-- What every request in order preserves holds in the end. -/
theorem Follows.ends {p : Program α} {rule : List Call → Request → Prop}
    {post' : List Call → α → Prop} (h : p.Follows site rule post' past)
    (inv : List Call → Ledger → Prop) (start : inv past l)
    (keeps : ∀ {q l r a l'}, inv q l → rule q r → Answered site l r a l' →
      inv (⟨r, a, l⟩ :: q) l') : p.Ends site (fun q l' _ => inv q l') past l := by
  induction p generalizing past l with
  | done a => exact start
  | ask r next ih => exact fun a l' ha => ih a (h.2 l a l' ha) (keeps start h.1 ha)

theorem ends_bind {p : Program β} {f : β → Program α}
    (h : p.Ends site (fun q l' b => (f b).Ends site post q l') past l) :
    (p >>= f).Ends site post past l := by
  induction p generalizing past l with
  | done b => exact h
  | ask r next ih => exact fun a l' ha => ih a (h a l' ha)

theorem ends_source {call : SourceCall} {f : Except Failure call.Answer → Program α}
    (failed : ∀ e, (f (.error e)).Ends site post (⟨.source call, Except.error e, l⟩ :: past) l)
    (answered : ∀ a, site.source call a →
      (f (.ok a)).Ends site post (⟨.source call, Except.ok a, l⟩ :: past) l) :
    (Program.source call >>= f).Ends site post past l := by
  intro a l' ha
  cases ha with
  | source allowed => exact answered _ allowed
  | sourceFailed e _ => exact failed e

/-- Unless answers are lost, a call of the store that is not answered by the ledger has no
effect. -/
theorem ends_store (lossless : ¬ site.lossy) {call : StoreCall}
    {f : Except Failure call.Answer → Program α}
    (failed : ∀ e, (f (.error e)).Ends site post (⟨.store call, Except.error e, l⟩ :: past) l)
    (answered : ∀ now, (f (l.answer now call).1).Ends site post
      (⟨.store call, (l.answer now call).1, l⟩ :: past) (l.answer now call).2) :
    (Program.store call >>= f).Ends site post past l := by
  intro a l' ha
  cases ha with
  | store now => exact answered now
  | storeFailed e _ => exact failed e
  | receiptLost now reason lossy => exact absurd lossy lossless

theorem ends_emit {e : Event} {f : Unit → Program α}
    (h : (f ()).Ends site post (⟨.emit e, (), l⟩ :: past) l) :
    (Program.emit e >>= f).Ends site post past l := by
  intro a l' ha
  cases ha with
  | emit => exact h

theorem ends_emitAll {events : List Event} {post : List Call → Ledger → Unit → Prop}
    (h : ∀ q, past <:+ q → post q l ()) : (Program.emitAll events).Ends site post past l := by
  induction events generalizing past with
  | nil => exact h past (List.suffix_refl past)
  | cons e rest ih =>
    intro a l' ha
    cases ha with
    | emit => exact ih fun q hq => h q ((List.suffix_cons _ past).trans hq)

/-- Requests that leave the ledger as it is. -/
theorem Asks.ends {p : Program α} {ok : Request → Prop} {fine : α → Prop} (h : p.Asks ok fine)
    (still : ∀ {l r a l'}, ok r → Answered site l r a l' → l' = l) :
    p.Ends site (fun q l' a => past <:+ q ∧ l' = l ∧ fine a) past l := by
  induction p generalizing past with
  | done a => exact ⟨List.suffix_refl past, rfl, h⟩
  | ask r next ih =>
    intro a l' ha
    obtain rfl := still h.1 ha
    refine ends_imp (ih a (h.2 a)) fun q l' b hq => ?_
    exact ⟨(List.suffix_cons _ past).trans hq.1, hq.2⟩

section Retry

variable {b : Backoff} {operation : String} {body : Program (Except Failure β)}
  {post : List Call → Ledger → Except Failure β → Prop}

/-- How an attempt ends: with the result, or with a failure that leaves the ledger as it was. -/
def Attempt (post : List Call → Ledger → Except Failure β → Prop) (l : Ledger) (q : List Call)
    (l' : Ledger) (result : Except Failure β) : Prop :=
  match result with
  | .ok a => post q l' (.ok a)
  | .error _ => l' = l

theorem ends_attempt {f : Failure → Program (Except Failure β)}
    (attempt : body.Ends site (Attempt post l) past l)
    (again : ∀ q e, past <:+ q → (f e).Ends site post q l)
    (failed : ∀ q e, past <:+ q → post q l (.error e)) :
    (body >>= fun
      | .ok a => .done (.ok a)
      | .error e => if e.isTransient then f e else .done (.error e)).Ends site post past l := by
  refine ends_bind (ends_imp (ends_suffix attempt) ?_)
  intro q l' result h
  obtain ⟨hq, hresult⟩ := h
  cases result with
  | ok a => exact hresult
  | error e =>
    have hsame : l' = l := hresult
    subst hsame
    by_cases ht : e.isTransient
    · simp only [ht, if_true]
      exact again q e hq
    · simp only [ht, if_false, Bool.false_eq_true]
      exact failed q e hq

/-- Attempts that fail leave the ledger as it was, so each attempt starts from the same one. -/
theorem ends_retry (attempt : ∀ q, past <:+ q → body.Ends site (Attempt post l) q l)
    (failed : ∀ q e, past <:+ q → post q l (.error e)) :
    (b.retry operation body).Ends site post past l := by
  suffices h : ∀ n q, past <:+ q →
      (b.attemptFrom operation body n).Ends site post q l from
    h 0 past (List.suffix_refl past)
  intro n
  induction n using Backoff.attempt_induction with
  | call n ih =>
    intro q hq
    rw [Backoff.attemptFrom_eq]
    refine ends_attempt (attempt q hq) (fun q' e hq' => ?_)
      fun q' e hq' => failed q' e (hq.trans hq')
    cases hdelay : b.delay? (n + 1) with
    | none => exact failed q' _ (hq.trans hq')
    | some d =>
      intro a l' ha
      cases ha with
      | wait => exact ih d hdelay _ ((hq.trans hq').trans (List.suffix_cons _ q'))

end Retry

/-- A host is one way to answer. -/
theorem Ends.run {p : Program α} {host : Host} (suits : host.Suits site)
    (h : p.Ends site post past l) :
    ∃ q, post q (host.around.run l p).2 (host.around.run l p).1 := by
  induction p generalizing past l with
  | done a => exact ⟨past, h⟩
  | ask r next ih => exact ih _ (h _ _ (host.answered suits l r))

end Program

namespace Shared

/-- How a program is answered that runs alone. The source may reply in several ways, and if the
program may be disturbed, calls of the store may fail without effect and the time may be any. -/
structure Lone where
  source : (call : SourceCall) → Except Failure call.Answer → Prop
  now : Int
  disturbed : Prop

def Lone.Shows (alone : Lone) (time : Int) : Prop := alone.disturbed ∨ time = alone.now

theorem Lone.shows_now (alone : Lone) : alone.Shows alone.now := .inr rfl

def Lone.Answered (alone : Lone) (l : Ledger) : (r : Request) → r.Answer → Ledger → Prop
  | .source call, reply, l' => alone.source call reply ∧ l' = l
  | .store call, reply, l' => (∃ now, alone.Shows now ∧ l.answer now call = (reply, l')) ∨
      (∃ f, reply = .error f) ∧ alone.disturbed ∧ l' = l
  | .clock, now, l' => alone.Shows now ∧ l' = l
  | _, _, l' => l' = l

def Replies.lone (w : Replies) : Lone := ⟨fun call reply => reply = w.source call, w.now, False⟩

theorem Replies.answered_lone (w : Replies) (l : Ledger) (r : Request) :
    w.lone.Answered l r (w.around.reply l r).1 (w.around.reply l r).2 := by
  cases r with
  | source call => exact ⟨rfl, rfl⟩
  | store call => exact .inl ⟨w.now, .inr rfl, rfl⟩
  | clock => exact ⟨.inr rfl, rfl⟩
  | _ => rfl

def Site.lone (site : Site) : Lone where
  source call reply := ∀ a, reply = .ok a → site.source call a
  now := 0
  disturbed := True

/-- Unless answers are lost, a call that fails has no effect. -/
theorem Answered.lone {site : Site} (lossless : ¬ site.lossy) {l l' : Ledger} {r : Request}
    {a : r.Answer} (h : Answered site l r a l') : site.lone.Answered l r a l' := by
  cases h with
  | source allowed =>
    refine ⟨fun a heq => ?_, rfl⟩
    cases heq
    exact allowed
  | sourceFailed f _ => exact ⟨nofun, rfl⟩
  | store now => exact .inl ⟨now, .inl trivial, rfl⟩
  | storeFailed f _ => exact .inr ⟨⟨f, rfl⟩, trivial, rfl⟩
  | receiptLost now reason lossy => exact absurd lossy lossless
  | clock now => exact ⟨.inl trivial, rfl⟩
  | _ => rfl

end Shared

namespace Program

open Shared

variable {α β : Type} {alone : Lone} {ok : Request → Prop} {post : Ledger → α → Prop} {l : Ledger}

/-- Each request is `ok`, and however they are answered, the program ends with this property of
the ledger and its result. -/
def Finishes (alone : Lone) (ok : Request → Prop) (post : Ledger → α → Prop) :
    Ledger → Program α → Prop
  | l, .done a => post l a
  | l, .ask r next => ok r ∧ ∀ a l', alone.Answered l r a l' → Finishes alone ok post l' (next a)

theorem finishes_imp {p : Program α} {post' : Ledger → α → Prop}
    (h : p.Finishes alone ok post l) (himp : ∀ l' a, post l' a → post' l' a) :
    p.Finishes alone ok post' l := by
  induction p generalizing l with
  | done a => exact himp l a h
  | ask r next ih => exact ⟨h.1, fun a l' ha => ih a (h.2 a l' ha)⟩

theorem Finishes.weaken {p : Program α} {ok' : Request → Prop} (h : p.Finishes alone ok post l)
    (himp : ∀ r, ok r → ok' r) : p.Finishes alone ok' post l := by
  induction p generalizing l with
  | done a => exact h
  | ask r next ih => exact ⟨himp r h.1, fun a l' ha => ih a (h.2 a l' ha)⟩

theorem finishes_bind {p : Program β} {f : β → Program α}
    (h : p.Finishes alone ok (fun l' b => (f b).Finishes alone ok post l') l) :
    (p >>= f).Finishes alone ok post l := by
  induction p generalizing l with
  | done b => exact h
  | ask r next ih => exact ⟨h.1, fun a l' ha => ih a (h.2 a l' ha)⟩

theorem finishes_source {call : SourceCall} {f : Except Failure call.Answer → Program α}
    (asks : ok (.source call))
    (h : ∀ reply, alone.source call reply → (f reply).Finishes alone ok post l) :
    (Program.source call >>= f).Finishes alone ok post l := by
  refine ⟨asks, ?_⟩
  rintro reply _ ⟨allowed, rfl⟩
  exact h reply allowed

theorem finishes_store {call : StoreCall} {f : Except Failure call.Answer → Program α}
    (asks : ok (.store call))
    (failed : ∀ e, alone.disturbed → (f (.error e)).Finishes alone ok post l)
    (answered : ∀ now, alone.Shows now →
      (f (l.answer now call).1).Finishes alone ok post (l.answer now call).2) :
    (Program.store call >>= f).Finishes alone ok post l := by
  refine ⟨asks, ?_⟩
  rintro reply l' (⟨now, shown, hreply⟩ | ⟨⟨e, rfl⟩, disturbed, rfl⟩)
  · have hanswered := answered now shown
    rw [hreply] at hanswered
    exact hanswered
  · exact failed e disturbed

theorem finishes_clock {f : Int → Program α} (asks : ok .clock)
    (h : ∀ now, alone.Shows now → (f now).Finishes alone ok post l) :
    (Program.clock >>= f).Finishes alone ok post l := by
  refine ⟨asks, ?_⟩
  rintro now _ ⟨shown, rfl⟩
  exact h now shown

theorem Finishes.run {p : Program α} {w : Replies} (h : p.Finishes w.lone ok post l) :
    post (w.around.run l p).2 (w.around.run l p).1 := by
  induction p generalizing l with
  | done a => exact h
  | ask r next ih => exact ih _ (h.2 _ _ (w.answered_lone l r))

/-- The requests that are noted are `ok`. -/
theorem Finishes.notes {γ : Type} {p : Program α} {w : Replies} (h : p.Finishes w.lone ok post l)
    {note : Ledger → (r : Request) → r.Answer → γ} {P : γ → Prop}
    (noted : ∀ l r a, ok r → P (note l r a)) : ∀ x ∈ w.around.notes note l p, P x := by
  induction p generalizing l with
  | done a => exact nofun
  | ask r next ih =>
    exact List.forall_mem_cons.2 ⟨noted l r _ h.1, ih _ (h.2 _ _ (w.answered_lone l r))⟩

theorem Finishes.ends {site : Site} (lossless : ¬ site.lossy) {p : Program α}
    (h : p.Finishes site.lone ok post l) {past : List Call} :
    p.Ends site (fun _ l' a => post l' a) past l := by
  induction p generalizing l past with
  | done a => exact h
  | ask r next ih => exact fun a l' ha => ih a (h.2 a l' (ha.lone lossless))

end Program

namespace Shared

variable {α : Type} (host : Host)

def Host.replyOr (failure : Option Failure) (l : Ledger) (r : Request) : r.Answer × Ledger :=
  match r, failure with
  | .source _, some f => (.error f, l)
  | .store _, some f => (.error f, l)
  | r, _ => host.around.reply l r

def Host.failing : Surroundings (List (Option Failure) × Ledger) where
  reply w r :=
    ((host.replyOr w.1.head?.join w.2 r).1, w.1.tail, (host.replyOr w.1.head?.join w.2 r).2)

def Host.runFailing (script : List (Option Failure)) (l : Ledger) (p : Program α) : α × Ledger :=
  ((host.failing.run (script, l) p).1, (host.failing.run (script, l) p).2.2)

theorem Host.answered_replyOr (failure : Option Failure) (l : Ledger) (r : Request) :
    Answered host.fallible l r (host.replyOr failure l r).1 (host.replyOr failure l r).2 := by
  cases failure with
  | none => cases r <;> exact host.answered host.suits_fallible l _
  | some f =>
    cases r with
    | source call => exact .sourceFailed f trivial
    | store call => exact .storeFailed f trivial
    | _ => exact host.answered host.suits_fallible l _

variable {host}

/-- What a program ends with, it ends with under any script. -/
theorem ends_runFailing {post : List Call → Ledger → α → Prop} {p : Program α} {past : List Call}
    {l : Ledger} (h : p.Ends host.fallible post past l) (script : List (Option Failure)) :
    ∃ q, post q (host.runFailing script l p).2 (host.runFailing script l p).1 := by
  induction p generalizing past l script with
  | done a => exact ⟨past, h⟩
  | ask r next ih => exact ih _ (h _ _ (host.answered_replyOr script.head?.join l r)) script.tail

end Shared

end RouterHistory
