import NibbleMachine.Numeral.Literal
import NibbleMachine.Proofs.Numeral
import NibbleMachine.Proofs.Text

namespace NibbleMachine
namespace Numeral

/-!
# Decimal numerals among those with a radix mark

The reader of range ends accepts many more texts than plain digits.  None of
its liberties changes the meaning of plain digits: they are left alone when
digits of other scripts are replaced and blanks are taken off, they hold no
underscore, and the second of them is never a radix mark.  The only numerals of
digits that are refused are those with a leading zero, and a number is not
written with one unless it is zero.
-/

/-! ## Digits -/

theorem plainChar_digitChar : forall value, value < 10 ->
    plainChar (Nat.digitChar value) = Nat.digitChar value := by decide

theorem not_isPlainBlank_digitChar : forall value, value < 10 ->
    isPlainBlank (Nat.digitChar value) = false := by decide

theorem digitInBase?_digitChar : forall value, value < 10 ->
    digitInBase? 10 (Nat.digitChar value) =
      some ((Nat.digitChar value).toNat - '0'.toNat) := by decide

theorem radix?_digitChar : forall value, value < 10 ->
    radix? (Nat.digitChar value) = none := by decide

/-! ## Texts of digits -/

theorem mapM_digitInBase? {digits : List Char}
    (all : forall c, c ∈ digits -> c.isDigit = true) :
    digits.mapM (digitInBase? 10) = some (digits.map fun c => c.toNat - '0'.toNat) := by
  induction digits with
  | nil => rfl
  | cons c rest inductionHypothesis =>
      rw [List.forall_mem_cons] at all
      rcases exists_digitChar all.1 with ⟨value, within, rfl⟩
      rw [List.mapM_cons, inductionHypothesis all.2, digitInBase?_digitChar value within]
      rfl

theorem groupedDigits?_of_isDigits {digits : List Char} (wellFormed : IsDigits digits) :
    groupedDigits? 10 digits = some (digits.map fun c => c.toNat - '0'.toNat) := by
  have ungrouped : '_' ∉ digits := by
    intro member
    exact absurd (wellFormed.2 '_' member) (by decide)
  have filled : [digits].any List.isEmpty = false := by simpa using wellFormed.1
  simp only [groupedDigits?, List.splitOn_eq_singleton ungrouped, filled, Bool.false_eq_true,
    if_false, List.flatten_cons, List.flatten_nil, List.append_nil]
  exact mapM_digitInBase? wellFormed.2

theorem unsignedValue?_of_isDigits {digits : List Char} (wellFormed : IsDigits digits) :
    unsignedValue? digits = plainValue? digits := by
  unfold unsignedValue?
  split
  · next mark rest =>
      have digit := wellFormed.2 mark (by simp)
      rcases exists_digitChar digit with ⟨value, within, rfl⟩
      rw [radix?_digitChar value within]
  · rfl

/-! ## Written numbers -/

/-- Only zero is written with a leading zero. -/
theorem eq_zero_of_head?_toDigits {number : Nat}
    (leading : (Nat.toDigits 10 number).head? = some '0') : number = 0 := by
  induction number using Nat.strongRecOn with
  | ind number inductionHypothesis =>
      by_cases single : number < 10
      · have zero : forall value, value < 10 -> Nat.digitChar value = '0' -> value = 0 := by decide
        rw [Nat.toDigits_of_lt_base single] at leading
        exact zero number single (Option.some.inj leading)
      · rw [Nat.toDigits_of_base_le (by decide) (Nat.not_lt.mp single)] at leading
        have quotient : (Nat.toDigits 10 (number / 10)).head? = some '0' := by
          cases shape : Nat.toDigits 10 (number / 10) with
          | nil => exact absurd shape Nat.toDigits_ne_nil
          | cons c rest =>
              rw [shape] at leading
              exact leading
        have zero := inductionHypothesis (number / 10) (by omega) quotient
        omega

theorem plainValue?_toDigits {number : Nat} (short : number < Nat.pow 10 digitLimit) :
    plainValue? (Nat.toDigits 10 number) = some number := by
  have value :
      ofDigits 10 ((Nat.toDigits 10 number).map fun c => c.toNat - '0'.toNat) = number := by
    rw [ofDigits, List.foldl_map]
    exact Nat.ofDigitChars_ten_toDigits
  have length := length_toDigits_le (by decide) short
  have canonical : ¬ ((Nat.toDigits 10 number).head? = some '0' && number ≠ 0) = true := by
    intro padded
    rw [Bool.and_eq_true, decide_eq_true_eq, decide_eq_true_eq] at padded
    exact padded.2 (eq_zero_of_head?_toDigits padded.1)
  simp only [plainValue?, groupedDigits?_of_isDigits (isDigits_toDigits number), bind,
    Option.bind, List.length_map, if_neg (Nat.not_lt.mpr length), value, if_neg canonical]

/-- A number within the limit on digits is read from its decimal text. -/
theorem literal?_toDigits {number : Nat} (short : number < Nat.pow 10 digitLimit) :
    literal? (Nat.toDigits 10 number) = some (number : Int) := by
  have wellFormed := isDigits_toDigits number
  have plain : (Nat.toDigits 10 number).map plainChar = Nat.toDigits 10 number := by
    apply (List.map_congr_left ?_).trans (List.map_id _)
    intro c member
    rcases exists_digitChar (wellFormed.2 c member) with ⟨value, within, rfl⟩
    exact plainChar_digitChar value within
  have trimmed : Text.trimBy isPlainBlank (Nat.toDigits 10 number) = Nat.toDigits 10 number := by
    apply Text.trimBy_of_kept
    intro c member
    rcases exists_digitChar (wellFormed.2 c member) with ⟨value, within, rfl⟩
    exact not_isPlainBlank_digitChar value within
  rw [literal?, plain, trimmed, splitSign_of_isDigits wellFormed]
  simp only
  rw [unsignedValue?_of_isDigits wellFormed, plainValue?_toDigits short]
  rfl

end Numeral
end NibbleMachine
