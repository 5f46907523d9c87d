import RouterHistory.Text.Basic
import RouterHistory.Text.Utf8

/-!
Percent encoding: a byte may be written as `%` and two hexadecimal digits. A percent sign without
two such digits stands for itself.
-/
namespace RouterHistory.Text

def hexValue? (b : UInt8) : Option UInt8 :=
  if 48 ≤ b ∧ b ≤ 57 then some (b - 48)
  else if 65 ≤ b ∧ b ≤ 70 then some (b - 55)
  else if 97 ≤ b ∧ b ≤ 102 then some (b - 87)
  else none

def decodePercentBytes : List UInt8 → List UInt8
  | 37 :: high :: low :: rest =>
      match hexValue? high, hexValue? low with
      | some x, some y => (16 * x + y) :: decodePercentBytes rest
      | _, _ => 37 :: decodePercentBytes (high :: low :: rest)
  | b :: rest => b :: decodePercentBytes rest
  | [] => []

def decodePercent (text : String) : Except Utf8.Flaw String :=
  Utf8.decode (decodePercentBytes (Utf8.encode text))

def hexByte (value : UInt8) : UInt8 := if value < 10 then value + 48 else value + 55

/-- Holds of the letters and digits of ASCII, which stand for themselves wherever they are. -/
def isPlainByte (b : UInt8) : Bool :=
  (48 ≤ b && b ≤ 57) || (65 ≤ b && b ≤ 90) || (97 ≤ b && b ≤ 122)

def encodePercentBytes : List UInt8 → List UInt8
  | [] => []
  | b :: rest =>
      if isPlainByte b then b :: encodePercentBytes rest
      else 37 :: hexByte (b / 16) :: hexByte (b % 16) :: encodePercentBytes rest

/-- Encodes a text so that no character of it has a meaning of its own in an address. -/
def encodePercent (text : String) : String :=
  Utf8.decodeLossy (encodePercentBytes (Utf8.encode text))

theorem halves_of_byte (b : UInt8) :
    hexValue? (hexByte (b / 16)) = some (b / 16) ∧
      hexValue? (hexByte (b % 16)) = some (b % 16) ∧
      16 * (b / 16) + b % 16 = b ∧ (isPlainByte b = true → b ≠ 37) := by
  have h : ∀ n : Fin 256, (fun b : UInt8 => hexValue? (hexByte (b / 16)) = some (b / 16) ∧
      hexValue? (hexByte (b % 16)) = some (b % 16) ∧
      16 * (b / 16) + b % 16 = b ∧ (isPlainByte b = true → b ≠ 37)) (UInt8.ofFin n) := by
    decide +kernel
  exact h b.toFin

/-- What was encoded reads back. -/
theorem decodePercentBytes_encode (bytes : List UInt8) :
    decodePercentBytes (encodePercentBytes bytes) = bytes := by
  induction bytes with
  | nil => rfl
  | cons b rest ih =>
    obtain ⟨high, low, whole, plain⟩ := halves_of_byte b
    rw [encodePercentBytes]
    split
    next h =>
      rw [decodePercentBytes, ih]
      exact fun _ _ _ h37 => absurd h37 (plain h)
    next => simp [decodePercentBytes, high, low, whole, ih]

/-- Decodes one side of a form field, in which a plus sign is a space. Bytes that are no text are
replaced. -/
def decodeFormText (cs : List Char) : String :=
  let spaced := String.ofList (cs.map fun c => if c.val = 43 then ' ' else c)
  Utf8.decodeLossy (decodePercentBytes (Utf8.encode spaced))

/-- Decodes fields `key=value` between ampersands. A field without an equals sign has an empty
value, and an empty field is passed over. -/
def decodeForm (cs : List Char) : List (String × String) :=
  ((pieces '&' cs).filter fun piece => !piece.isEmpty).map fun piece =>
    let (key, value) := (cut? '=' piece).getD (piece, [])
    (decodeFormText key, decodeFormText value)

end RouterHistory.Text
