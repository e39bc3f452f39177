import NibbleMachine.Proofs.Instruction
import NibbleMachine.Proofs.Positional
import Mathlib.Algebra.Order.Ring.Int
import Mathlib.Data.Int.Bitwise

namespace NibbleMachine

/-!
# Packing nibbles

A word is packed by shifting what has been packed so far to the left and setting the freed bits to
those of the next element; the nibbles of a word are read by shifting to the right and masking.
`pack` and `nibbleAt` multiply, divide and take remainders instead.  On integers of any size and
sign the two are the same: masking is a remainder because both look at the lowest bits of the
two's complement, and setting bits is an addition because the shifted integer has none of them.

With this, packing is positional notation in base sixteen, of whatever length.  Packing four
elements and reading the nibbles keeps the lowest bits of each; reading the nibbles of any integer
and packing them keeps its lowest sixteen bits.
-/

/-! ## Bits of integers -/

theorem exists_bit (value : Int) :
    Exists fun lowest => Exists fun rest => value = Int.bit lowest rest :=
  ⟨_, _, (Int.bit_decomp value).symm⟩

/-- A remainder by twice a size has the lowest bit of the value and the remainder of the rest. -/
theorem bit_emod (lowest : Bool) (rest : Int) {size : Int} (positive : 0 < size) :
    Int.bit lowest rest % (2 * size) = Int.bit lowest (rest % size) := by
  have least := Int.emod_nonneg rest (Int.ne_of_gt positive)
  have greatest := Int.emod_lt_of_pos rest positive
  have whole := Int.emod_add_mul_ediv rest size
  have bits : forall other, Int.bit lowest other = 2 * other + Int.bit lowest 0 := by
    intro other
    rw [Int.bit_val, Int.bit_val, Int.mul_zero, Int.zero_add]
  have small : 0 ≤ Int.bit lowest 0 ∧ Int.bit lowest 0 ≤ 1 := by
    cases lowest <;> decide
  rw [bits rest, bits (rest % size)]
  calc
    (2 * rest + Int.bit lowest 0) % (2 * size)
        = (2 * (rest % size) + Int.bit lowest 0 + 2 * size * (rest / size)) % (2 * size) := by
      rw [Int.mul_assoc]
      congr 1
      omega
    _ = (2 * (rest % size) + Int.bit lowest 0) % (2 * size) := Int.add_mul_emod_self_left _ _ _
    _ = 2 * (rest % size) + Int.bit lowest 0 := Int.emod_eq_of_lt (by omega) (by omega)

/-- Masking with ones is a remainder. -/
theorem land_ones (count : Nat) (value : Int) :
    Int.land value (2 ^ count - 1) = value % 2 ^ count := by
  induction count generalizing value with
  | zero =>
      rw [pow_zero, Int.sub_self, Int.emod_one]
      cases value with
      | ofNat number => simp [Int.land]
      | negSucc number =>
          have none : Nat.ldiff 0 number = 0 :=
            Nat.eq_of_testBit_eq fun place => by simp [Nat.testBit_ldiff]
          simp [Int.land, none]
  | succ count inductionHypothesis =>
      rcases exists_bit value with ⟨lowest, rest, rfl⟩
      have ones : (2 : Int) ^ (count + 1) - 1 = Int.bit true (2 ^ count - 1) := by
        rw [Int.bit_val, cond_true, pow_succ']
        omega
      rw [ones, Int.land_bit, Bool.and_true, inductionHypothesis, pow_succ',
        bit_emod lowest rest (pow_pos (by decide) count)]

/-- Setting bits below those of a shifted integer is an addition. -/
theorem lor_shifted (count : Nat) (value : Int) {low : Int} (nonnegative : 0 ≤ low)
    (below : low < 2 ^ count) : Int.lor (value * 2 ^ count) low = value * 2 ^ count + low := by
  induction count generalizing low with
  | zero =>
      have none : low = 0 := by
        rw [pow_zero] at below
        omega
      rw [none, Int.add_zero, pow_zero, Int.mul_one]
      cases value with
      | ofNat number => simp [Int.lor]
      | negSucc number =>
          have all : Nat.ldiff number 0 = number :=
            Nat.eq_of_testBit_eq fun place => by simp [Nat.testBit_ldiff]
          simp [Int.lor, all]
  | succ count inductionHypothesis =>
      rcases exists_bit low with ⟨lowest, rest, rfl⟩
      have shifted : value * 2 ^ (count + 1) = Int.bit false (value * 2 ^ count) := by
        rw [Int.bit_val, cond_false, Int.add_zero, pow_succ', Int.mul_left_comm]
      rw [pow_succ'] at below
      rw [Int.bit_val] at nonnegative below
      have bounds : 0 ≤ rest ∧ rest < 2 ^ count := by
        cases lowest with
        | false =>
            rw [cond_false] at nonnegative below
            omega
        | true =>
            rw [cond_true] at nonnegative below
            omega
      rw [shifted, Int.lor_bit, Bool.false_or, inductionHypothesis bounds.1 bounds.2,
        Int.bit_val, Int.bit_val, Int.bit_val, cond_false]
      omega

/-! ## Packing -/

/-- Join nibbles by shifting and setting bits. -/
def joinBits (elements : List Int) : Int :=
  elements.foldl (fun word element => Int.lor (word <<< (4 : Nat)) (Int.land element 15)) 0

/-- Joining one more nibble. -/
theorem join_step (word element : Int) :
    Int.lor (word <<< (4 : Nat)) (Int.land element 15) = 16 * word + element % 16 := by
  have masked : Int.land element 15 = element % 16 := land_ones 4 element
  have nonnegative : 0 ≤ element % 16 := Int.emod_nonneg element (by decide)
  have below : element % 16 < 2 ^ 4 := Int.emod_lt_of_pos element (by decide)
  rw [masked, Int.shiftLeft_eq, lor_shifted 4 word nonnegative below, Int.mul_comm word]
  rfl

theorem pack_eq_joinBits (elements : List Int) : pack elements = joinBits elements := by
  have step : (fun word element : Int => 16 * word + element % 16) =
      fun word element : Int => Int.lor (word <<< (4 : Nat)) (Int.land element 15) := by
    funext word element
    exact (join_step word element).symm
  rw [pack, joinBits, step]

/-- Packed nibbles are the digits of the packed number. -/
theorem pack_eq_positional (elements : List Int) :
    pack elements = positional 16 (elements.map fun element => element % 16) := by
  rw [← foldl_zero_eq_positional, List.foldl_map, pack]

theorem pack_append (front back : List Int) :
    pack (front ++ back) = pack front * 16 ^ back.length + pack back := by
  rw [pack_eq_positional, List.map_append, positional_append, List.length_map,
    ← pack_eq_positional, ← pack_eq_positional]

/-! ## Nibbles -/

theorem nibbleAt_zero_val (value : Int) : ((nibbleAt 0 value).val : Int) = value % 16 :=
  Int.toNat_of_nonneg (Int.emod_nonneg value (by decide))

/-- A nibble is read by shifting and masking. -/
theorem nibbleAt_eq_land (place : Nat) (value : Int) :
    ((nibbleAt place value).val : Int) = Int.land (value >>> (4 * place)) 15 := by
  induction place generalizing value with
  | zero =>
      rw [nibbleAt_zero_val, Nat.mul_zero, Int.shiftRight_zero]
      exact (land_ones 4 value).symm
  | succ place inductionHypothesis =>
      have first : value / 16 = value >>> (4 : Nat) := (Int.shiftRight_eq_div_pow value 4).symm
      rw [nibbleAt, inductionHypothesis, first, ← Int.shiftRight_add, Nat.mul_succ, Nat.add_comm]

/-- Four packed elements are read back by their lowest bits. -/
theorem elements_ofWord_pack (first second third fourth : Int) :
    (Nibbles.ofWord (pack [first, second, third, fourth])).elements =
      [first % 16, second % 16, third % 16, fourth % 16] := by
  let nibbles : Nibbles :=
    ⟨nibbleAt 0 first, nibbleAt 0 second, nibbleAt 0 third, nibbleAt 0 fourth⟩
  have lowest : nibbles.elements = [first % 16, second % 16, third % 16, fourth % 16] := by
    simp only [nibbles, Nibbles.elements, Nibbles.toList, List.map_cons, List.map_nil,
      nibbleAt_zero_val]
  have packed : pack [first, second, third, fourth] = nibbles.word := by
    rw [Nibbles.word, lowest, pack_eq_positional, pack_eq_positional]
    simp only [List.map_cons, List.map_nil, Int.emod_emod]
  rw [packed, Nibbles.ofWord_word, lowest]

/-- The nibbles of a word, highest first, as shifts and masks. -/
theorem elements_ofWord (word : Int) :
    (Nibbles.ofWord word).elements =
      List.map (fun shift : Nat => Int.land (word >>> shift) 15) [12, 8, 4, 0] := by
  simp only [Nibbles.ofWord, Nibbles.elements, Nibbles.toList, List.map_cons, List.map_nil,
    nibbleAt_eq_land]

/-- Packing a list of any length is what shifting and setting bits gives, and it is positional
notation in base sixteen, in which every element counts by its lowest four bits; so a list that is
packed in two parts is its first part moved up by the places of the second.  The nibbles of four
packed elements are the lowest bits of each, and packing the nibbles of any integer, as shifting
and masking read them, gives its lowest sixteen bits. -/
theorem packing_is_positional :
    (forall elements : List Int,
      pack elements = joinBits elements ∧
        pack elements = positional 16 (elements.map fun element => element % 16)) ∧
      (forall front back : List Int,
        pack (front ++ back) = pack front * 16 ^ back.length + pack back) ∧
      (forall first second third fourth : Int,
        (Nibbles.ofWord (pack [first, second, third, fourth])).elements =
          [first % 16, second % 16, third % 16, fourth % 16]) ∧
      forall word : Int,
        (Nibbles.ofWord word).elements =
            List.map (fun shift : Nat => Int.land (word >>> shift) 15) [12, 8, 4, 0] ∧
          pack (Nibbles.ofWord word).elements = word % 65536 :=
  ⟨fun elements => ⟨pack_eq_joinBits elements, pack_eq_positional elements⟩, pack_append,
    elements_ofWord_pack, fun word => ⟨elements_ofWord word, Nibbles.word_ofWord_eq_emod word⟩⟩

end NibbleMachine
