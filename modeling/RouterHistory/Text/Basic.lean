/-!
Sets of characters given as ranges of code points, the blank characters among them, and texts cut
at a character. Blank characters are those with the Unicode property White_Space, which are more
than the ASCII ones.
-/
namespace RouterHistory.Text

abbrev Ranges := List (Nat × Nat)

namespace Ranges

def contain (ranges : Ranges) (c : Char) : Bool :=
  ranges.any fun range => range.1 ≤ c.toNat && c.toNat ≤ range.2

theorem contain_append_left {left right : Ranges} {c : Char} (h : left.contain c = true) :
    (left ++ right).contain c = true := by
  rw [contain, List.any_append, Bool.or_eq_true]
  exact .inl h

end Ranges

def blankRanges : Ranges :=
  [(0x09, 0x0d), (0x20, 0x20), (0x85, 0x85), (0xa0, 0xa0), (0x1680, 0x1680), (0x2000, 0x200a),
    (0x2028, 0x2029), (0x202f, 0x202f), (0x205f, 0x205f), (0x3000, 0x3000)]

def isBlank (c : Char) : Bool := blankRanges.contain c

def dropBlanks (cs : List Char) : List Char := cs.dropWhile isBlank

def isAllBlank (text : String) : Bool := text.toList.all isBlank

theorem isBlank_of_isWhitespace {c : Char} (h : c.isWhitespace = true) : isBlank c = true := by
  simp only [Char.isWhitespace, Bool.or_eq_true, decide_eq_true_eq] at h
  rcases h with (((h | h) | h) | h) <;> subst h <;> decide

def cut? (mark : Char) : List Char → Option (List Char × List Char)
  | [] => none
  | c :: rest =>
      if c = mark then some ([], rest)
      else (cut? mark rest).map fun (before, after) => (c :: before, after)

/-- The pieces between the occurrences of a character; there is always at least one. -/
def pieces (mark : Char) : List Char → List (List Char)
  | [] => [[]]
  | c :: rest =>
      if c = mark then [] :: pieces mark rest
      else
        match pieces mark rest with
        | [] => [[c]]
        | piece :: others => (c :: piece) :: others

theorem eq_of_cut? {mark : Char} {cs before after : List Char}
    (h : cut? mark cs = some (before, after)) : cs = before ++ mark :: after := by
  induction cs generalizing before with
  | nil => simp [cut?] at h
  | cons c rest ih =>
    rw [cut?] at h
    split at h
    · simp_all
    · obtain ⟨⟨left, right⟩, hcut, heq⟩ := Option.map_eq_some_iff.1 h
      simp only [Prod.mk.injEq] at heq
      obtain ⟨rfl, rfl⟩ := heq
      rw [ih hcut, List.cons_append]

end RouterHistory.Text
