import NibbleMachine.Proofs.Numeral
import Mathlib.Algebra.BigOperators.Fin

namespace NibbleMachine

/-!
# Positional notation

The value of a list of digits, the first weighing most, as a sum over the places.  Readers and
packers go through their digits from the front and keep a value, which every step multiplies by
the base before it adds the next digit.  Both are the same, from whatever value the walk starts.

The digits of a base up to sixteen are written as figures and, from ten on, as small letters.
These are the characters of decimal and hexadecimal numerals, so the two kinds of numerals are
the written lists of digits below ten and below sixteen.
-/

/-! ## The sum over the places -/

section

variable {Value : Type} [CommSemiring Value] (base : Value)

/-- The value of digits in a base, the first weighing most. -/
def positional (digits : List Value) : Value :=
  ∑ place : Fin digits.length, digits[place] * base ^ (digits.length - 1 - place.val)

theorem positional_nil : positional base [] = 0 :=
  Fin.sum_univ_zero _

/-- The first digit weighs by the number of digits after it. -/
theorem positional_cons (digit : Value) (rest : List Value) :
    positional base (digit :: rest) = digit * base ^ rest.length + positional base rest := by
  have later : forall place : Fin rest.length,
      rest.length + 1 - 1 - place.succ.val = rest.length - 1 - place.val := by
    intro place
    rw [Fin.val_succ]
    omega
  unfold positional
  change ∑ place : Fin (rest.length + 1),
    (digit :: rest)[place] * base ^ (rest.length + 1 - 1 - place.val) = _
  rw [Fin.sum_univ_succ]
  congr 1
  apply Finset.sum_congr rfl
  intro place _
  rw [later]
  rfl

/-- A walk over the digits puts the value it starts from before them. -/
theorem foldl_eq_positional (digits : List Value) (start : Value) :
    digits.foldl (fun value digit => base * value + digit) start =
      start * base ^ digits.length + positional base digits := by
  induction digits generalizing start with
  | nil => simp [positional_nil]
  | cons digit rest inductionHypothesis =>
      rw [List.foldl_cons, inductionHypothesis, positional_cons, List.length_cons, pow_succ',
        add_mul, mul_comm base start, mul_assoc, add_assoc]

theorem foldl_zero_eq_positional (digits : List Value) :
    digits.foldl (fun value digit => base * value + digit) 0 = positional base digits := by
  rw [foldl_eq_positional, zero_mul, zero_add]

theorem positional_append (front back : List Value) :
    positional base (front ++ back) =
      positional base front * base ^ back.length + positional base back := by
  rw [← foldl_zero_eq_positional, List.foldl_append, foldl_zero_eq_positional,
    foldl_eq_positional]

end

/-! ## Written digits -/

/-- Digits of a base, at least one. -/
structure AreDigits (base : Nat) (digits : List Nat) : Prop where
  nonempty : digits ≠ []
  below : forall digit, digit ∈ digits -> digit < base

def digitText (digits : List Nat) : List Char :=
  digits.map Nat.digitChar

/-- A text of characters that digits of a base are written with is written with such digits. -/
theorem exists_digitText {base : Nat} {text : List Char} (nonempty : text ≠ [])
    (all : forall c, c ∈ text -> Exists fun digit => digit < base ∧ c = Nat.digitChar digit) :
    Exists fun digits => AreDigits base digits ∧ text = digitText digits := by
  have written : Exists fun digits : List Nat =>
      (forall digit, digit ∈ digits -> digit < base) ∧ text = digitText digits := by
    clear nonempty
    induction text with
    | nil => exact ⟨[], nofun, rfl⟩
    | cons c rest inductionHypothesis =>
        rw [List.forall_mem_cons] at all
        rcases all.1 with ⟨digit, below, rfl⟩
        rcases inductionHypothesis all.2 with ⟨digits, allBelow, rfl⟩
        exact ⟨digit :: digits, List.forall_mem_cons.mpr ⟨below, allBelow⟩, rfl⟩
  rcases written with ⟨digits, below, rfl⟩
  exact ⟨digits, ⟨fun empty => nonempty (congrArg digitText empty), below⟩, rfl⟩

/-- A reader that knows the value of each written digit reads the positional value. -/
theorem foldl_digitText {base : Nat} (read : Char -> Nat)
    (reads : forall digit, digit < base -> read (Nat.digitChar digit) = digit) {digits : List Nat}
    (below : forall digit, digit ∈ digits -> digit < base) :
    (digitText digits).foldl (fun value c => base * value + read c) 0 = positional base digits := by
  have values : (digitText digits).map read = digits := by
    rw [digitText, List.map_map]
    exact (List.map_congr_left fun digit member => reads digit (below digit member)).trans
      (List.map_id digits)
  rw [← foldl_zero_eq_positional, ← List.foldl_map, values]

/-- A number is written in digits of the base, and they are worth the number. -/
theorem exists_toDigits {base : Nat} (large : 1 < base) (number : Nat) :
    Exists fun digits => AreDigits base digits ∧ Nat.toDigits base number = digitText digits ∧
      positional base digits = number := by
  induction number using Nat.strongRecOn with
  | ind number inductionHypothesis =>
      have last : forall digit : Nat, positional base [digit] = digit := by
        intro digit
        rw [positional_cons, positional_nil, List.length_nil, pow_zero, Nat.mul_one, Nat.add_zero]
      rw [Nat.toDigits_eq_if large]
      split
      · next single =>
          refine ⟨[number], ⟨List.cons_ne_nil _ _, ?_⟩, rfl, last number⟩
          exact List.forall_mem_singleton.mpr single
      · next several =>
          have smaller : number / base < number := Nat.div_lt_self (by omega) large
          rcases inductionHypothesis _ smaller with ⟨digits, areDigits, shape, value⟩
          have lowest : number % base < base := Nat.mod_lt number (by omega)
          refine ⟨digits ++ [number % base], ⟨by simp, ?_⟩, ?_, ?_⟩
          · exact List.forall_mem_append.mpr
              ⟨areDigits.below, List.forall_mem_singleton.mpr lowest⟩
          · rw [shape, digitText, digitText, List.map_append]
            rfl
          · rw [positional_append, value, last, List.length_singleton, pow_one]
            exact Nat.div_add_mod' number base

end NibbleMachine
