namespace NibbleMachine
namespace Text

/-!
# Blanks, trimming and fields

A line is cut into fields at blanks, and blanks around a line do not count.
Blank characters are those of the Unicode class of white space together with
the four information separators, so the class is wider than the ASCII one.

Cutting at every blank leaves empty pieces between neighbouring blanks and at
the ends.  `fields` drops them, so a run of blanks counts as one separator.
-/

/-- The blank characters, as closed ranges of code points. -/
def blankRanges : List (Nat × Nat) :=
  [ (0x0009, 0x000D), (0x001C, 0x0020), (0x0085, 0x0085), (0x00A0, 0x00A0),
    (0x1680, 0x1680), (0x2000, 0x200A), (0x2028, 0x2029), (0x202F, 0x202F),
    (0x205F, 0x205F), (0x3000, 0x3000) ]

/-- Whether a character separates fields. -/
def isBlank (c : Char) : Bool :=
  blankRanges.any fun range => range.1 ≤ c.toNat && c.toNat ≤ range.2

theorem isBlank_space : isBlank ' ' = true := by decide

/-- Remove the characters of a class from both ends. -/
def trimBy (drop : Char -> Bool) (text : List Char) : List Char :=
  ((text.dropWhile drop).reverse.dropWhile drop).reverse

def trim (text : List Char) : List Char :=
  trimBy isBlank text

/-- The maximal runs of characters that are not blank. -/
def fields (text : List Char) : List (List Char) :=
  (text.splitOnP isBlank).filter fun piece => !piece.isEmpty

/-- A piece holds no character of the cutting class. -/
theorem not_cut_of_mem_splitOnP (cut : Char -> Bool) (text : List Char) :
    ∀ piece ∈ text.splitOnP cut, ∀ c ∈ piece, cut c = false := by
  induction text with
  | nil => simp
  | cons first rest inductionHypothesis =>
      rw [List.splitOnP_cons_eq_if_modifyHead]
      split
      · intro piece member
        rcases List.mem_cons.mp member with rfl | later
        · simp
        · exact inductionHypothesis piece later
      · rename_i kept
        cases tail : rest.splitOnP cut with
        | nil => exact absurd tail (List.splitOnP_ne_nil cut rest)
        | cons head others =>
            rw [tail] at inductionHypothesis
            intro piece member
            rcases List.mem_cons.mp member with rfl | later
            · intro c inPiece
              rcases List.mem_cons.mp inPiece with rfl | inHead
              · simpa using kept
              · exact inductionHypothesis head (by simp) c inHead
            · exact inductionHypothesis piece (by simp [later])

/-- A field is not empty and holds no blank. -/
theorem field_nonempty_and_solid (text : List Char) :
    ∀ field ∈ fields text, field ≠ [] ∧ ∀ c ∈ field, isBlank c = false := by
  intro field member
  have parts := List.mem_filter.mp member
  refine ⟨?_, not_cut_of_mem_splitOnP isBlank text field parts.1⟩
  intro empty
  simp [empty] at parts

end Text
end NibbleMachine
