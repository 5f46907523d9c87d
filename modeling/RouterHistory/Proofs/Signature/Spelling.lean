import RouterHistory.Proofs.Signature.PlaceValue
import RouterHistory.Signature

/-!
The spelling of byte strings in base58. Every byte string has a text and every text that can be
read has been written for the bytes that are read from it, so bytes and texts determine each
other. The well-formed signatures are the texts of 64 bytes, and no two of them stand for the same
bytes.
-/
namespace RouterHistory

namespace Base58

variable {d : Nat} {digits : List Nat}

theorem length_alphabet : alphabet.length = 58 := by decide +kernel

theorem digitOf?_charOf (hd : d < 58) : digitOf? (charOf d) = some d := by
  have hall : ∀ d : Fin 58, digitOf? (charOf d) = some d.val := by decide +kernel
  exact hall ⟨d, hd⟩

theorem toNat_charOf_le (hd : d < 58) : (charOf d).toNat ≤ 127 := by
  have hall : ∀ d : Fin 58, (charOf d).toNat ≤ 127 := by decide +kernel
  exact hall ⟨d, hd⟩

theorem of_digitOf? {c : Char} (hd : digitOf? c = some d) : d < 58 ∧ charOf d = c := by
  obtain ⟨hlt, hchar, -⟩ := List.findIdx?_eq_some_iff_getElem.1 hd
  refine ⟨length_alphabet ▸ hlt, ?_⟩
  rw [charOf, List.getD_eq_getElem?_getD, List.getElem?_eq_getElem hlt, Option.getD_some]
  exact eq_of_beq hchar

/-- The characters that can be read are those that stand for digits. -/
theorem readDigits_eq_ok_iff {position : Nat} {chars : List Char} :
    readDigits position chars = .ok digits ↔
      chars = digits.map charOf ∧ ∀ d ∈ digits, d < 58 := by
  induction chars generalizing position digits with
  | nil => cases digits <;> simp [readDigits]
  | cons c rest ih =>
    unfold readDigits
    constructor
    · intro hread
      split_ifs at hread
      cases hdigit : digitOf? c with
      | none => rw [hdigit] at hread; cases hread
      | some d =>
        rw [hdigit] at hread
        simp only at hread
        cases hrest : readDigits (position + 1) rest with
        | error fault => rw [hrest] at hread; cases hread
        | ok ds =>
          rw [hrest] at hread
          cases hread
          obtain ⟨hlt, rfl⟩ := of_digitOf? hdigit
          obtain ⟨rfl, hall⟩ := ih.1 hrest
          exact ⟨rfl, List.forall_mem_cons.2 ⟨hlt, hall⟩⟩
    · rintro ⟨hchars, hall⟩
      cases digits with
      | nil => cases hchars
      | cons d ds =>
        obtain ⟨rfl, rfl⟩ := List.cons.inj hchars
        obtain ⟨hlt, hrest⟩ := List.forall_mem_cons.1 hall
        rw [if_neg (Nat.not_lt.2 (toNat_charOf_le hlt)), digitOf?_charOf hlt]
        simp only [ih.2 ⟨rfl, hrest⟩]
        rfl

theorem lt_of_mem_bytes {bytes : List UInt8} (hd : d ∈ bytes.map UInt8.toNat) :
    d < 256 := by
  obtain ⟨b, -, rfl⟩ := List.mem_map.1 hd
  exact b.toNat_lt

theorem map_ofNat_map_toNat (bytes : List UInt8) :
    (bytes.map UInt8.toNat).map UInt8.ofNat = bytes := by
  rw [List.map_map]
  exact (List.map_congr_left fun b _ => UInt8.ofNat_toNat).trans (List.map_id _)

theorem map_toNat_map_ofNat (hdigits : ∀ d ∈ digits, d < 256) :
    (digits.map UInt8.ofNat).map UInt8.toNat = digits := by
  rw [List.map_map]
  exact (List.map_congr_left fun d hd => UInt8.toNat_ofNat_of_lt' (hdigits d hd)).trans
    (List.map_id _)

/-- Two places in base 58 have room for a byte. -/
theorem number_bytes_lt (hdigits : ∀ d ∈ digits, d < 256) :
    number 256 digits < 58 ^ (2 * digits.length) :=
  calc number 256 digits < 256 ^ digits.length := number_lt (by decide) hdigits
    _ ≤ (58 ^ 2) ^ digits.length := Nat.pow_le_pow_left (by decide) _
    _ = 58 ^ (2 * digits.length) := (pow_mul 58 2 _).symm

/-- A byte has room for a place in base 58. -/
theorem number_places_lt (hdigits : ∀ d ∈ digits, d < 58) :
    number 58 digits < 256 ^ digits.length :=
  (number_lt (by decide) hdigits).trans_le (Nat.pow_le_pow_left (by decide) _)

/-- The text writes the bytes in base58: it stands for the same number, and begins with as many
ones as there are zero bytes in front. -/
def Spells (text : String) (bytes : List UInt8) : Prop :=
  ∃ digits : List Nat, text.toList = digits.map charOf ∧ (∀ d ∈ digits, d < 58) ∧
    leadingZeros digits = leadingZeros (bytes.map UInt8.toNat) ∧
      number 58 digits = number 256 (bytes.map UInt8.toNat)

/-- There is room for all digits of the bytes. -/
theorem number_toNat_lt (bytes : List UInt8) :
    number 256 (bytes.map UInt8.toNat) < 58 ^ (2 * bytes.length) := by
  rw [← List.length_map UInt8.toNat]
  exact number_bytes_lt fun _ => lt_of_mem_bytes

theorem toList_encode (bytes : List UInt8) : (encode bytes).toList =
    (rebase 256 58 (2 * bytes.length) (bytes.map UInt8.toNat)).map charOf := by
  rw [encode, String.toList_ofList]

theorem spells_encode (bytes : List UInt8) : Spells (encode bytes) bytes := by
  have hroom := number_toNat_lt bytes
  exact ⟨_, toList_encode bytes, fun _ => lt_of_mem_rebase (by decide) hroom,
    leadingZeros_rebase (by decide) hroom, number_rebase (by decide) hroom⟩

theorem decode_encode (bytes : List UInt8) : decode (encode bytes) = .ok bytes := by
  have hroom := number_toNat_lt bytes
  have hplaces : ∀ d ∈ rebase 256 58 (2 * bytes.length) (bytes.map UInt8.toNat), d < 58 :=
    fun _ => lt_of_mem_rebase (by decide) hroom
  have hread : readDigits 0 (encode bytes).toList = .ok
      (rebase 256 58 (2 * bytes.length) (bytes.map UInt8.toNat)) :=
    readDigits_eq_ok_iff.2 ⟨toList_encode bytes, hplaces⟩
  have hback := number_places_lt hplaces
  rw [number_rebase (by decide) hroom] at hback
  rw [decode, hread, Except.map,
    rebase_rebase (by decide) (by decide) (fun _ => lt_of_mem_bytes) hroom hback,
    map_ofNat_map_toNat]

theorem encode_of_decode {text : String} {bytes : List UInt8} (h : decode text = .ok bytes) :
    encode bytes = text := by
  unfold decode at h
  cases hread : readDigits 0 text.toList with
  | error fault => rw [hread] at h; cases h
  | ok digits =>
    rw [hread] at h
    obtain rfl := (Except.ok.inj h).symm
    obtain ⟨htext, hdigits⟩ := readDigits_eq_ok_iff.1 hread
    have hroom := number_places_lt hdigits
    have hbytes : ∀ d ∈ rebase 58 256 digits.length digits, d < 256 :=
      fun _ => lt_of_mem_rebase (by decide) hroom
    have hback := number_bytes_lt hbytes
    rw [number_rebase (by decide) hroom] at hback
    rw [encode, map_toNat_map_ofNat hbytes, List.length_map,
      rebase_rebase (by decide) (by decide) hdigits hroom hback, ← htext, String.ofList_toList]

/-- A text is base58 for some bytes exactly if it is their encoding. -/
theorem decode_eq_ok_iff {text : String} {bytes : List UInt8} :
    decode text = .ok bytes ↔ text = encode bytes :=
  ⟨fun h => (encode_of_decode h).symm, fun h => h ▸ decode_encode bytes⟩

theorem decodesTo_iff {size : Nat} {text : String} :
    decodesTo size text ↔ ∃ bytes : List UInt8, bytes.length = size ∧ text = encode bytes := by
  simp only [← decode_eq_ok_iff]
  unfold decodesTo
  cases decode text <;> simp

end Base58

namespace Signature

/-- The well-formed signatures are those of 64 bytes. -/
theorem isWellFormed_iff {s : Signature} :
    s.isWellFormed ↔ ∃ bytes : List UInt8, bytes.length = size ∧ s = ofBytes bytes := by
  refine Base58.decodesTo_iff.trans (exists_congr fun bytes => and_congr_right fun _ => ?_)
  exact ⟨fun h => congrArg Signature.mk h, fun h => congrArg Signature.text h⟩

/-- Every 64 bytes have a well-formed text, which writes them in base58 and from which they can be
read; every well-formed signature is the text of exactly one such byte string, and no other text
is read as the same bytes. -/
theorem bytes_spelled_once :
    (∀ bytes : Vector UInt8 size, (ofBytes bytes.toList).isWellFormed ∧
      Base58.Spells (ofBytes bytes.toList).text bytes.toList ∧
      Base58.decode (ofBytes bytes.toList).text = .ok bytes.toList) ∧
    (∀ s : Signature, s.isWellFormed → ∃! bytes : Vector UInt8 size, s = ofBytes bytes.toList) ∧
    ∀ s t : Signature, s.isWellFormed → Base58.decode s.text = Base58.decode t.text → s = t := by
  refine ⟨fun bytes => ⟨?_, Base58.spells_encode _, Base58.decode_encode _⟩, fun s hs => ?_,
    fun s t hs hsame => ?_⟩
  · exact isWellFormed_iff.2 ⟨bytes.toList, bytes.length_toList, rfl⟩
  · obtain ⟨bytes, hsize, rfl⟩ := isWellFormed_iff.1 hs
    refine ⟨⟨bytes.toArray, hsize⟩, rfl, fun other hother => ?_⟩
    have hread : Base58.decode (Base58.encode bytes) = .ok other.toList :=
      Base58.decode_eq_ok_iff.2 (congrArg Signature.text hother)
    rw [Base58.decode_encode] at hread
    exact Vector.toList_inj.1 (Except.ok.inj hread).symm
  · obtain ⟨bytes, -, rfl⟩ := isWellFormed_iff.1 hs
    have hread : Base58.decode t.text = .ok bytes :=
      hsame.symm.trans (Base58.decode_encode bytes)
    exact congrArg Signature.mk (Base58.decode_eq_ok_iff.1 hread).symm

def counted : Vector UInt8 size := .ofFn fun i => .ofNat i

/-- The text of these bytes; the zero in front has a one of its own. -/
def countedText : Signature :=
  ⟨"1GMkH3brNXiNNs1tiFZHu4yZSRrzJwxi5wB9bHFtMinfCXNnR1adh8Vo8NTheK4evneedH4qmvjeqcBBNAefgS"⟩

theorem counted_spelled_once :
    countedText.isWellFormed ∧
    Base58.decode countedText.text = Base58.decode (ofBytes counted.toList).text ∧
    countedText = ofBytes counted.toList ∧
    ∃! bytes : Vector UInt8 size, countedText = ofBytes bytes.toList := by
  have formed : countedText.isWellFormed := by decide +kernel
  have read : Base58.decode countedText.text = .ok counted.toList := by decide +kernel
  have same : Base58.decode countedText.text = Base58.decode (ofBytes counted.toList).text :=
    read.trans (bytes_spelled_once.1 counted).2.2.symm
  exact ⟨formed, same, bytes_spelled_once.2.2 countedText _ formed same,
    bytes_spelled_once.2.1 countedText formed⟩

end Signature

end RouterHistory
