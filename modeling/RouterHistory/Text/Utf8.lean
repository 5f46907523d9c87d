/-!
UTF-8. Bytes are cut into the characters that they encode and the stretches that encode none: the
beginning of a character that no fitting byte follows, and one that the end cuts off.
-/
namespace RouterHistory.Text.Utf8

inductive Piece where
  | char (c : Char)
  /-- So many bytes that no byte makes a character. -/
  | broken (count : Nat)
  /-- So many bytes that more bytes could have made a character. -/
  | cutOff (count : Nat)
  deriving DecidableEq, Repr

def Piece.size : Piece → Nat
  | .char c => c.utf8Size
  | .broken count => count
  | .cutOff count => count

/-- A character of which some bytes were read. -/
structure Begun where
  /-- The bits so far. -/
  code : Nat
  taken : Nat
  /-- How many bytes are to come, at least one. -/
  missing : Nat
  /-- The bounds of the next byte. -/
  low : UInt8
  high : UInt8
  deriving DecidableEq, Repr

/-- What a byte begins: a piece of its own, or a longer character. The bounds of the second byte
keep out longer codes than needed, surrogates and what lies above the last code point. -/
def first (b : UInt8) : Piece ⊕ Begun :=
  let n := b.toNat
  if n < 0x80 then .inl (.char (Char.ofNat n))
  else if n < 0xc2 then .inl (.broken 1)
  else if n < 0xe0 then .inr ⟨n - 0xc0, 1, 1, 0x80, 0xbf⟩
  else if n < 0xf0 then
    .inr ⟨n - 0xe0, 1, 2, if n = 0xe0 then 0xa0 else 0x80, if n = 0xed then 0x9f else 0xbf⟩
  else if n < 0xf5 then
    .inr ⟨n - 0xf0, 1, 3, if n = 0xf0 then 0x90 else 0x80, if n = 0xf4 then 0x8f else 0xbf⟩
  else .inl (.broken 1)

def piecesFrom : Option Begun → List UInt8 → List Piece
  | none, [] => []
  | some begun, [] => [.cutOff begun.taken]
  | none, b :: rest =>
      match first b with
      | .inl piece => piece :: piecesFrom none rest
      | .inr begun => piecesFrom (some begun) rest
  | some begun, b :: rest =>
      if begun.low ≤ b ∧ b ≤ begun.high then
        let code := 64 * begun.code + (b.toNat - 0x80)
        if begun.missing = 1 then .char (Char.ofNat code) :: piecesFrom none rest
        else piecesFrom (some ⟨code, begun.taken + 1, begun.missing - 1, 0x80, 0xbf⟩) rest
      else
        .broken begun.taken ::
          match first b with
          | .inl piece => piece :: piecesFrom none rest
          | .inr begun => piecesFrom (some begun) rest

def pieces (bytes : List UInt8) : List Piece := piecesFrom none bytes

/-- Why bytes are no text. -/
inductive Flaw where
  | broken (count index : Nat)
  | cutOff (index : Nat)
  deriving DecidableEq, Repr

def Flaw.message : Flaw → String
  | .broken count index => s!"invalid utf-8 sequence of {count} bytes from index {index}"
  | .cutOff index => s!"incomplete utf-8 byte sequence from index {index}"

def charsFrom : (index : Nat) → List Piece → Except Flaw (List Char)
  | _, [] => .ok []
  | index, .char c :: rest => (charsFrom (index + c.utf8Size) rest).map (c :: ·)
  | index, .broken count :: _ => .error (.broken count index)
  | index, .cutOff _ :: _ => .error (.cutOff index)

def decode (bytes : List UInt8) : Except Flaw String :=
  (charsFrom 0 (pieces bytes)).map String.ofList

def replacement : Char := '\ufffd'

def Piece.shown : Piece → Char
  | .char c => c
  | _ => replacement

/-- Decodes as much as there is, with a replacement character for each other piece. -/
def decodeLossy (bytes : List UInt8) : String := String.ofList ((pieces bytes).map Piece.shown)

def encode (text : String) : List UInt8 := text.toUTF8.data.toList

end RouterHistory.Text.Utf8
