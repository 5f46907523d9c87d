import Mathlib.Logic.Relation
import RouterHistory.Classifier
import RouterHistory.Proofs.Signature.Spelling

/-!
The grounds on which a transaction is classified. A record has a signature of 64 bytes, a time
that an instant can have, and a version that the first router instruction names in its data; what
has none is turned down for the first of these that is missing. Of its instructions a transaction
is judged by the first router instruction alone, so edits around that one change nothing.
-/
namespace RouterHistory

def Transaction.Signed (tx : Transaction) : Prop :=
  ∃ bytes : List UInt8, bytes.length = Signature.size ∧ tx.signature = .ofBytes bytes

def Transaction.ProducedAt (tx : Transaction) (i : Instant) : Prop :=
  tx.blockTime = some i.seconds ∧ i.IsWhole

namespace Classifier

variable {c : Classifier} {tx : Transaction} {ix : Instruction}

def Routes (c : Classifier) (ix : Instruction) : Prop := ix.programId ∈ c.programIds

/-- The first router instruction, where those at the top level come first. -/
def Leads (c : Classifier) (tx : Transaction) (ix : Instruction) : Prop :=
  c.Routes ix ∧ ∃ before after : List Instruction,
    tx.instructions ++ tx.innerInstructions = before ++ ix :: after ∧ ∀ i ∈ before, ¬ c.Routes i

def Marks (c : Classifier) (bytes : List UInt8) (v : UInt16) : Prop :=
  ∃ marker, bytes[c.markerOffset.toNat]? = some marker ∧ v.toNat = marker.toNat

structure Grants (c : Classifier) (tx : Transaction) (row : Record) : Prop where
  signed : tx.Signed
  producedAt : tx.ProducedAt row.timestamp
  version : ∃ ix bytes, c.Leads tx ix ∧ ix.data = Base58.encode bytes ∧
    c.Marks bytes row.routerVersion ∧ row.routerVersion ∈ c.knownVersions
  signature : row.signature = tx.signature
  success : row.isSuccess = true ↔ tx.error = none

inductive Spoils (c : Classifier) (data : String) : Rejection → Prop
  | undecodable {fault : Base58.Fault} (unreadable : ∀ bytes, data ≠ Base58.encode bytes)
      (fails : Base58.decode data = .error fault) : Spoils c data (.dataUndecodable fault)
  | tooShort {bytes : List UInt8} (reads : data = Base58.encode bytes)
      (ends : bytes.length ≤ c.markerOffset.toNat) : Spoils c data (.dataTooShort c.markerOffset)
  | unknown {bytes : List UInt8} {v : UInt16} (reads : data = Base58.encode bytes)
      (marks : c.Marks bytes v) (strange : v ∉ c.knownVersions) :
      Spoils c data (.markerUnknown v)

inductive Denies (c : Classifier) (tx : Transaction) : Rejection → Prop
  | unsigned (unsigned : ¬ tx.Signed) : Denies c tx .signatureMalformed
  | timeless (signed : tx.Signed) (missing : tx.blockTime = none) : Denies c tx .blockTimeMissing
  | farOff (signed : tx.Signed) {seconds : Int} (time : tx.blockTime = some seconds)
      (far : ¬ Instant.InRange seconds) : Denies c tx (.blockTimeOutOfRange seconds)
  | unrouted (signed : tx.Signed) {i : Instant} (producedAt : tx.ProducedAt i)
      (other : ∀ ix ∈ tx.instructions ++ tx.innerInstructions, ¬ c.Routes ix) :
      Denies c tx .noRouterInstruction
  | spoiled (signed : tx.Signed) {i : Instant} (producedAt : tx.ProducedAt i) {ix : Instruction}
      (leads : c.Leads tx ix) {r : Rejection} (spoils : c.Spoils ix.data r) : Denies c tx r

theorem isRouter_iff : c.isRouter ix = true ↔ c.Routes ix := by
  unfold isRouter Routes
  exact List.contains_iff_mem

theorem routerInstruction?_eq_some_iff : c.routerInstruction? tx = some ix ↔ c.Leads tx ix := by
  unfold routerInstruction? Transaction.allInstructions Leads
  rw [List.find?_eq_some_iff_append, isRouter_iff]
  simp only [Bool.not_eq_true', ← Bool.not_eq_true, isRouter_iff]

theorem routerInstruction?_eq_none_iff : c.routerInstruction? tx = none ↔
    ∀ ix ∈ tx.instructions ++ tx.innerInstructions, ¬ c.Routes ix := by
  unfold routerInstruction? Transaction.allInstructions
  rw [List.find?_eq_none]
  simp only [isRouter_iff]

theorem invokesAny_iff : tx.invokesAny c.programIds = true ↔
    ∃ ix ∈ tx.instructions ++ tx.innerInstructions, c.Routes ix := by
  unfold Transaction.invokesAny Transaction.allInstructions
  rw [List.any_eq_true]
  simp only [List.contains_iff_mem]
  rfl

theorem marks_iff {bytes : List UInt8} {v : UInt16} :
    c.Marks bytes v ↔ ∃ marker, bytes[c.markerOffset.toNat]? = some marker ∧
      marker.toUInt16 = v := by
  refine exists_congr fun marker => and_congr_right fun _ => ?_
  rw [eq_comm, ← UInt16.toNat_inj]
  rfl

theorem versionIn_eq_ok_iff {data : String} {v : UInt16} : c.versionIn data = .ok v ↔
    ∃ bytes, data = Base58.encode bytes ∧ c.Marks bytes v ∧ v ∈ c.knownVersions := by
  constructor
  · intro h
    unfold versionIn at h
    cases hdata : Base58.decode data with
    | error fault => rw [hdata] at h; cases h
    | ok bytes =>
      simp only [hdata] at h
      cases hmarker : bytes[c.markerOffset.toNat]? with
      | none => rw [hmarker] at h; cases h
      | some marker =>
        simp only [hmarker] at h
        split_ifs at h with hknown
        cases h
        exact ⟨bytes, Base58.decode_eq_ok_iff.1 hdata, marks_iff.2 ⟨marker, hmarker, rfl⟩,
          List.contains_iff_mem.1 hknown⟩
  · rintro ⟨bytes, hdata, hmarks, hknown⟩
    obtain ⟨marker, hmarker, rfl⟩ := marks_iff.1 hmarks
    simp [versionIn, Base58.decode_eq_ok_iff.2 hdata, hmarker, hknown]

theorem spoils_of_versionIn {data : String} {r : Rejection} (h : c.versionIn data = .error r) :
    c.Spoils data r := by
  unfold versionIn at h
  cases hdata : Base58.decode data with
  | error fault =>
    rw [hdata] at h
    cases h
    refine .undecodable (fun bytes hbytes => ?_) hdata
    rw [Base58.decode_eq_ok_iff.2 hbytes] at hdata
    cases hdata
  | ok bytes =>
    simp only [hdata] at h
    cases hmarker : bytes[c.markerOffset.toNat]? with
    | none =>
      rw [hmarker] at h
      cases h
      exact .tooShort (Base58.decode_eq_ok_iff.1 hdata) (List.getElem?_eq_none_iff.1 hmarker)
    | some marker =>
      simp only [hmarker] at h
      split_ifs at h with hknown
      cases h
      exact .unknown (Base58.decode_eq_ok_iff.1 hdata) (marks_iff.2 ⟨marker, hmarker, rfl⟩)
        (mt List.contains_iff_mem.2 hknown)

theorem versionIn_of_spoils {data : String} {r : Rejection} (h : c.Spoils data r) :
    c.versionIn data = .error r := by
  cases h with
  | undecodable unreadable fails => simp [versionIn, fails]
  | tooShort reads ends =>
    simp [versionIn, Base58.decode_eq_ok_iff.2 reads, List.getElem?_eq_none ends]
  | unknown reads marks strange =>
    obtain ⟨marker, hmarker, rfl⟩ := marks_iff.1 marks
    simp [versionIn, Base58.decode_eq_ok_iff.2 reads, hmarker, strange]

theorem versionIn_eq_error_iff {data : String} {r : Rejection} :
    c.versionIn data = .error r ↔ c.Spoils data r :=
  ⟨spoils_of_versionIn, versionIn_of_spoils⟩

theorem version_eq_ok_iff {v : UInt16} :
    c.version tx = .ok v ↔ ∃ ix, c.Leads tx ix ∧ c.versionIn ix.data = .ok v := by
  simp only [← routerInstruction?_eq_some_iff]
  unfold version
  cases c.routerInstruction? tx <;> simp

theorem version_eq_error_iff {r : Rejection} : c.version tx = .error r ↔
    (r = .noRouterInstruction ∧ ∀ ix ∈ tx.instructions ++ tx.innerInstructions, ¬ c.Routes ix) ∨
      ∃ ix, c.Leads tx ix ∧ c.Spoils ix.data r := by
  simp only [← routerInstruction?_eq_some_iff, ← routerInstruction?_eq_none_iff,
    ← versionIn_eq_error_iff]
  unfold version
  cases c.routerInstruction? tx <;> simp [eq_comm]

/-- With a signature and a time, the version decides. -/
theorem classify_of_producedAt {i : Instant} (signed : tx.Signed) (producedAt : tx.ProducedAt i) :
    c.classify tx = (c.version tx).map fun v => ⟨tx.signature, i, tx.succeeded, v⟩ := by
  unfold classify
  rw [if_pos (Signature.isWellFormed_iff.2 signed), producedAt.1]
  simp only [Instant.ofSeconds?_seconds producedAt.2]
  cases c.version tx <;> rfl

/-- The ways to be judged before the instructions are looked at, and by them. -/
theorem classify_cases (c : Classifier) (tx : Transaction) :
    (∃ i, tx.Signed ∧ tx.ProducedAt i) ∨
      ∃ r, c.classify tx = .error r ∧ c.Denies tx r := by
  by_cases hsigned : tx.Signed
  · have hwell := Signature.isWellFormed_iff.2 hsigned
    cases htime : tx.blockTime with
    | none => exact .inr ⟨_, by simp [classify, hwell, htime], .timeless hsigned htime⟩
    | some seconds =>
      cases hinstant : Instant.ofSeconds? seconds with
      | none =>
        exact .inr ⟨_, by simp [classify, hwell, htime, hinstant],
          .farOff hsigned htime (Instant.ofSeconds?_eq_none_iff.1 hinstant)⟩
      | some i =>
        obtain ⟨rfl, hwhole⟩ := Instant.ofParts?_eq_some_iff.1 hinstant
        exact .inl ⟨i, hsigned, htime, hwhole⟩
  · have hill := mt Signature.isWellFormed_iff.1 hsigned
    exact .inr ⟨_, by simp [classify, hill], .unsigned hsigned⟩

theorem classify_eq_ok_iff {row : Record} : c.classify tx = .ok row ↔ c.Grants tx row := by
  constructor
  · intro h
    rcases c.classify_cases tx with ⟨i, hsigned, hproduced⟩ | ⟨r, herror, -⟩
    · rw [classify_of_producedAt hsigned hproduced] at h
      cases hversion : c.version tx with
      | error r => rw [hversion] at h; cases h
      | ok v =>
        rw [hversion] at h
        cases h
        obtain ⟨ix, hleads, hdata⟩ := version_eq_ok_iff.1 hversion
        obtain ⟨bytes, hbytes, hmarks, hknown⟩ := versionIn_eq_ok_iff.1 hdata
        exact ⟨hsigned, hproduced, ⟨ix, bytes, hleads, hbytes, hmarks, hknown⟩, rfl,
          Option.isNone_iff_eq_none⟩
    · rw [herror] at h
      cases h
  · rintro ⟨hsigned, hproduced, ⟨ix, bytes, hleads, hbytes, hmarks, hknown⟩, hsame, hsuccess⟩
    have hversion : c.version tx = .ok row.routerVersion :=
      version_eq_ok_iff.2 ⟨ix, hleads, versionIn_eq_ok_iff.2 ⟨bytes, hbytes, hmarks, hknown⟩⟩
    have hsucceeded : tx.succeeded = row.isSuccess :=
      Bool.eq_iff_iff.2 (Option.isNone_iff_eq_none.trans hsuccess.symm)
    rw [classify_of_producedAt hsigned hproduced, hversion, hsucceeded, ← hsame]
    rfl

theorem classify_eq_error_iff {r : Rejection} : c.classify tx = .error r ↔ c.Denies tx r := by
  constructor
  · intro h
    rcases c.classify_cases tx with ⟨i, hsigned, hproduced⟩ | ⟨r', herror, hdenies⟩
    · rw [classify_of_producedAt hsigned hproduced] at h
      cases hversion : c.version tx with
      | ok v => rw [hversion] at h; cases h
      | error r' =>
        rw [hversion] at h
        cases h
        rcases version_eq_error_iff.1 hversion with ⟨rfl, hother⟩ | ⟨ix, hleads, hspoils⟩
        · exact .unrouted hsigned hproduced hother
        · exact .spoiled hsigned hproduced hleads hspoils
    · rw [herror] at h
      cases h
      exact hdenies
  · intro h
    cases h with
    | unsigned unsigned =>
      have hill := mt Signature.isWellFormed_iff.1 unsigned
      simp [classify, hill]
    | timeless signed missing =>
      simp [classify, Signature.isWellFormed_iff.2 signed, missing]
    | farOff signed time far =>
      simp [classify, Signature.isWellFormed_iff.2 signed, time,
        Instant.ofSeconds?_eq_none_iff.2 far]
    | unrouted signed producedAt other =>
      rw [classify_of_producedAt signed producedAt, version_eq_error_iff.2 (.inl ⟨rfl, other⟩)]
      rfl
    | spoiled signed producedAt leads spoils =>
      rw [classify_of_producedAt signed producedAt,
        version_eq_error_iff.2 (.inr ⟨_, leads, spoils⟩)]
      rfl

/-- An edit of instructions that keeps the first router instruction: one that is none is put in,
taken out or replaced by another, or what stands behind a router instruction is changed. -/
inductive Retouches (c : Classifier) : List Instruction → List Instruction → Prop
  | insert (before after : List Instruction) {ix : Instruction} (other : ¬ c.Routes ix) :
      Retouches c (before ++ after) (before ++ ix :: after)
  | remove (before after : List Instruction) {ix : Instruction} (other : ¬ c.Routes ix) :
      Retouches c (before ++ ix :: after) (before ++ after)
  | replace (before after : List Instruction) {ix ix' : Instruction} (other : ¬ c.Routes ix)
      (other' : ¬ c.Routes ix') : Retouches c (before ++ ix :: after) (before ++ ix' :: after)
  | behind (before after after' : List Instruction) {ix : Instruction} (router : c.Routes ix) :
      Retouches c (before ++ ix :: after) (before ++ ix :: after')

/-- An edit of a transaction that keeps its first router instruction, and whether it succeeded. -/
inductive Edits (c : Classifier) (tx : Transaction) : Transaction → Prop
  | top {instructions : List Instruction} (h : c.Retouches tx.instructions instructions) :
      Edits c tx { tx with instructions }
  | inner {innerInstructions : List Instruction}
      (h : c.Retouches tx.innerInstructions innerInstructions) :
      Edits c tx { tx with innerInstructions }
  /-- Inner instructions come after a router instruction at the top level. -/
  | shadowed {ix : Instruction} (mem : ix ∈ tx.instructions) (router : c.Routes ix)
      (innerInstructions : List Instruction) : Edits c tx { tx with innerInstructions }
  | failure {error : Json.Value} (failed : tx.error = some error) (error' : Json.Value) :
      Edits c tx { tx with error := some error' }

/-- The same programs, versions and place, in whatever order and however often they are named. -/
structure Same (c c' : Classifier) : Prop where
  programIds : ∀ id, id ∈ c.programIds ↔ id ∈ c'.programIds
  markerOffset : c.markerOffset = c'.markerOffset
  knownVersions : ∀ v, v ∈ c.knownVersions ↔ v ∈ c'.knownVersions

theorem Retouches.find? {l l' : List Instruction} (h : c.Retouches l l') :
    l.find? c.isRouter = l'.find? c.isRouter := by
  have skipped : ∀ {ix : Instruction} {rest : List Instruction}, ¬ c.Routes ix →
      (ix :: rest).find? c.isRouter = rest.find? c.isRouter :=
    fun other => List.find?_cons_of_neg (mt isRouter_iff.1 other)
  cases h with
  | insert before after other => rw [List.find?_append, List.find?_append, skipped other]
  | remove before after other => rw [List.find?_append, List.find?_append, skipped other]
  | replace before after other other' =>
    rw [List.find?_append, List.find?_append, skipped other, skipped other']
  | behind before after after' router =>
    rw [List.find?_append, List.find?_append, List.find?_cons_of_pos (isRouter_iff.2 router),
      List.find?_cons_of_pos (isRouter_iff.2 router)]

theorem Edits.routerInstruction? {tx' : Transaction} (h : c.Edits tx tx') :
    c.routerInstruction? tx' = c.routerInstruction? tx := by
  unfold Classifier.routerInstruction? Transaction.allInstructions
  cases h with
  | top h => rw [List.find?_append, List.find?_append, h.find?]
  | inner h => rw [List.find?_append, List.find?_append, h.find?]
  | @shadowed ix mem router l =>
    have hfound : (tx.instructions.find? c.isRouter).isSome :=
      List.find?_isSome.2 ⟨ix, mem, isRouter_iff.2 router⟩
    rw [List.find?_append, List.find?_append, Option.or_of_isSome hfound,
      Option.or_of_isSome hfound]
  | failure failed error' => rfl

/-- A transaction is judged by its signature, its time, its first router instruction and whether
it succeeded. -/
theorem classify_congr {tx' : Transaction} (hsignature : tx'.signature = tx.signature)
    (htime : tx'.blockTime = tx.blockTime)
    (hrouter : c.routerInstruction? tx' = c.routerInstruction? tx)
    (hsucceeded : tx'.succeeded = tx.succeeded) : c.classify tx' = c.classify tx := by
  unfold classify version
  rw [hsignature, htime, hrouter, hsucceeded]

theorem Edits.classify {tx' : Transaction} (h : c.Edits tx tx') :
    c.classify tx' = c.classify tx := by
  have hrouter := h.routerInstruction?
  cases h with
  | top => exact classify_congr rfl rfl hrouter rfl
  | inner => exact classify_congr rfl rfl hrouter rfl
  | shadowed => exact classify_congr rfl rfl hrouter rfl
  | failure failed error' =>
    refine classify_congr rfl rfl hrouter ?_
    simp [Transaction.succeeded, failed]

theorem Same.classify {c' : Classifier} (same : c.Same c') (tx : Transaction) :
    c'.classify tx = c.classify tx := by
  have hrouter : c'.isRouter = c.isRouter := by
    funext ix
    rw [Bool.eq_iff_iff, isRouter_iff, isRouter_iff]
    exact (same.programIds ix.programId).symm
  have hknown : ∀ v, c'.knownVersions.contains v = c.knownVersions.contains v := by
    intro v
    rw [Bool.eq_iff_iff, List.contains_iff_mem, List.contains_iff_mem]
    exact (same.knownVersions v).symm
  unfold Classifier.classify version Classifier.routerInstruction? versionIn
  simp only [hrouter, hknown, same.markerOffset]

/-- A transaction has exactly the row that its signature, its time, its success and the marker in
its first router instruction make, and is turned down for the first of them that is missing; for
want of a router instruction only if it invokes no router. Edits that keep the first router
instruction and another order of the settings keep the result. -/
theorem judged_by_first_router (c : Classifier) (tx : Transaction) :
    (∀ row, c.classify tx = .ok row ↔ c.Grants tx row) ∧
    (∀ r, c.classify tx = .error r ↔ c.Denies tx r) ∧
    (∀ r, c.classify tx = .error r → (r.failure tx.signature).isQuarantinable = true) ∧
    (c.classify tx = .error .noRouterInstruction → tx.invokesAny c.programIds = false) ∧
    ∀ tx' c', Relation.ReflTransGen c.Edits tx tx' → c.Same c' →
      c'.classify tx' = c.classify tx := by
  refine ⟨fun row => classify_eq_ok_iff, fun r => classify_eq_error_iff,
    fun r _ => r.isQuarantinable_failure tx.signature, fun h => ?_, fun tx' c' edits same => ?_⟩
  · rw [Bool.eq_false_iff, ne_eq, invokesAny_iff]
    rintro ⟨ix, hmem, hroutes⟩
    cases classify_eq_error_iff.1 h with
    | unrouted _ _ other => exact other ix hmem hroutes
    | spoiled _ _ _ spoils => cases spoils
  · rw [same.classify]
    induction edits with
    | refl => rfl
    | tail _ edit ih => exact edit.classify.trans ih

end Classifier

end RouterHistory
