import NibbleMachine.Word
import Mathlib.Algebra.Order.Ring.Int

namespace NibbleMachine
namespace Field

/-!
# What a field of bits holds

Placing takes every integer below the size of the field that is not farther below zero, which
is twice as far on both sides as reading goes: only the integers within half the size are read as
they were placed, and each of the others shares its bits with one of those.  From the field's side
nothing is lost, for whatever is read is placed as the same bits.

All this is about widths whose size can be stored: in the digits of an integer, and in memory.
The width is checked before the integer is looked at, so any other width is refused for every
integer, and for all of them in the same way.
-/

/-! ## Widths -/

section

variable {memory : Nat} {bits : Int}

theorem checkWidth_of_negative (negative : bits < 0) :
    checkWidth memory bits = .error .negativeWidth :=
  if_pos negative

theorem checkWidth_of_tooManyDigits (wide : widthLimit < bits) :
    checkWidth memory bits = .error .tooManyDigits := by
  have nonnegative : ¬ bits < 0 := by
    unfold widthLimit digitBits digitCapacity at wide
    omega
  rw [checkWidth, if_neg nonnegative, if_pos wide]

theorem checkWidth_of_stored (nonnegative : 0 ≤ bits) (countable : bits ≤ widthLimit)
    (stored : bits ≤ memory) : checkWidth memory bits = .ok bits.toNat := by
  rw [checkWidth, if_neg (Int.not_lt.mpr nonnegative), if_neg (Int.not_lt.mpr countable),
    if_neg (by omega)]

/-- A width that is refused is refused for every integer. -/
theorem fit_of_refused {error : Error} (refused : checkWidth memory bits = .error error)
    (value : Int) : fit memory value bits = .error error := by
  rw [fit, refused]
  rfl

theorem fit_of_checked {width : Nat} (checked : checkWidth memory bits = .ok width)
    (value : Int) : fit memory value bits = place value width := by
  rw [fit, checked]
  rfl

end

/-! ## Placing and reading -/

/-- What is compared with the size of a field: a negative integer is raised by the size. -/
def raise (size value : Int) : Int :=
  if value < 0 then size + value else value

/-- The integers that a field takes: those below its size, and not farther below zero. -/
def Accepts (size value : Int) : Prop :=
  -size ≤ value ∧ value < size

theorem raise_eq_emod {size value : Int} (accepted : Accepts size value) :
    raise size value = value % size := by
  unfold raise
  split
  · have least := accepted.1
    rw [← Int.add_emod_left size value]
    exact (Int.emod_eq_of_lt (by omega) (by omega)).symm
  · exact (Int.emod_eq_of_lt (by omega) accepted.2).symm

theorem holds_iff_lt_two_pow {width : Nat} {value : Int} (nonnegative : 0 ≤ value) :
    holds width value.toNat = true <-> value < 2 ^ width := by
  rw [holds_iff, ← Int.ofNat_lt, Int.toNat_of_nonneg nonnegative]
  have size : ((Nat.pow 2 width : Nat) : Int) = 2 ^ width := Int.natCast_pow 2 width
  rw [size]

/-- Placing gives the remainder by the size of the field. -/
theorem place_of_accepted {value : Int} {width : Nat} (accepted : Accepts (2 ^ width) value) :
    place value width = .ok (value % 2 ^ width) := by
  have size : ((Nat.pow 2 width : Nat) : Int) = 2 ^ width := Int.natCast_pow 2 width
  have least := accepted.1
  rw [place, size, ← raise_eq_emod accepted, raise]
  by_cases negative : value < 0
  · rw [if_pos negative, if_pos negative]
    exact if_pos (by omega)
  · have fits := (holds_iff_lt_two_pow (Int.not_lt.mp negative)).mpr accepted.2
    rw [if_neg negative, if_neg negative, if_pos fits]

theorem place_of_not_accepted {value : Int} {width : Nat}
    (missed : ¬ Accepts (2 ^ width) value) :
    place value width = .error (.doesNotFit (raise (2 ^ width) value) width) := by
  have size : ((Nat.pow 2 width : Nat) : Int) = 2 ^ width := Int.natCast_pow 2 width
  rw [place, size, raise]
  by_cases negative : value < 0
  · rw [if_pos negative, if_pos negative]
    exact if_neg fun reached => missed ⟨by omega, by omega⟩
  · have above : ¬ holds width value.toNat = true := by
      intro fits
      have greatest := (holds_iff_lt_two_pow (Int.not_lt.mp negative)).mp fits
      exact missed ⟨by omega, greatest⟩
    rw [if_neg negative, if_neg negative, if_neg above]

theorem place_eq_ok_iff (value stored : Int) (width : Nat) :
    place value width = .ok stored <-> Accepts (2 ^ width) value ∧ stored = value % 2 ^ width := by
  by_cases accepted : Accepts (2 ^ width) value
  · rw [place_of_accepted accepted, Except.ok.injEq]
    exact ⟨fun same => ⟨accepted, same.symm⟩, fun both => both.2.symm⟩
  · rw [place_of_not_accepted accepted]
    exact ⟨nofun, fun both => absurd both.1 accepted⟩

theorem place_eq_error_iff (value : Int) (width : Nat) (error : Error) :
    place value width = .error error <->
      ¬ Accepts (2 ^ width) value ∧ error = .doesNotFit (raise (2 ^ width) value) width := by
  by_cases accepted : Accepts (2 ^ width) value
  · rw [place_of_accepted accepted]
    exact ⟨nofun, fun both => absurd accepted both.1⟩
  · rw [place_of_not_accepted accepted, Except.error.injEq]
    exact ⟨fun same => ⟨accepted, same.symm⟩, fun both => both.2.symm⟩

/-- The size of a field is twice the size of the field that is one bit narrower. -/
theorem two_pow_toNat {bits : Int} (positive : 1 ≤ bits) :
    (2 : Int) ^ bits.toNat = 2 * 2 ^ (bits.toNat - 1) := by
  have narrower : bits.toNat = bits.toNat - 1 + 1 := by omega
  rw [narrower, pow_succ', Nat.add_sub_cancel]

/-- Of the integers that a field takes, those within half its size are read as they were placed. -/
theorem signed_emod_eq_iff {half value : Int} (positive : 0 < half)
    (accepted : Accepts (2 * half) value) :
    (if value % (2 * half) < half then value % (2 * half) else value % (2 * half) - 2 * half) =
        value <->
      -half ≤ value ∧ value < half := by
  rw [← raise_eq_emod accepted]
  unfold Accepts at accepted
  unfold raise
  split
  · split
    · omega
    · omega
  · split
    · omega
    · omega

/-- What is read from a field is taken by it, and leaves the bits that were read. -/
theorem signed_of_bits {half value : Int} (nonnegative : 0 ≤ value) (below : value < 2 * half) :
    Accepts (2 * half) (if value < half then value else value - 2 * half) ∧
      (if value < half then value else value - 2 * half) % (2 * half) = value := by
  split
  · exact ⟨⟨by omega, by omega⟩, Int.emod_eq_of_lt nonnegative below⟩
  · refine ⟨⟨by omega, by omega⟩, ?_⟩
    rw [Int.sub_emod_right]
    exact Int.emod_eq_of_lt nonnegative below

section

variable {memory : Nat} {bits : Int} (positive : 1 ≤ bits) (countable : bits ≤ widthLimit)
  (storable : bits ≤ memory)

include positive countable storable

/-- Reading takes the size of the field off the integers in its upper half. -/
theorem toSigned_of_stored (value : Int) :
    toSigned memory value bits =
      .ok (if value < 2 ^ (bits.toNat - 1) then value
        else value - 2 * 2 ^ (bits.toNat - 1)) := by
  have lower : checkWidth memory (bits - 1) = .ok (bits.toNat - 1) := by
    rw [checkWidth_of_stored (by omega) (by omega) (by omega), Int.pred_toNat]
  have whole := checkWidth_of_stored (Int.le_trans (by decide) positive) countable storable
  have size : ((Nat.pow 2 bits.toNat : Nat) : Int) = 2 * 2 ^ (bits.toNat - 1) :=
    (Int.natCast_pow 2 _).trans (two_pow_toNat positive)
  have inLower : (value < 0 ∨ holds (bits.toNat - 1) value.toNat = true) <->
      value < 2 ^ (bits.toNat - 1) := by
    have half : (0 : Int) < 2 ^ (bits.toNat - 1) := pow_pos (by decide) _
    by_cases negative : value < 0
    · exact ⟨fun _ => by omega, fun _ => Or.inl negative⟩
    · rw [holds_iff_lt_two_pow (Int.not_lt.mp negative)]
      exact ⟨fun either => either.resolve_left negative, Or.inr⟩
  rw [toSigned, lower]
  simp only [bind, Except.bind, inLower, whole, size]
  split
  · rfl
  · rfl

theorem fit_of_stored (value : Int) : fit memory value bits = place value bits.toNat :=
  fit_of_checked (checkWidth_of_stored (Int.le_trans (by decide) positive) countable storable)
    value

/-- The integers that are read as they were placed. -/
theorem toSigned_fit_eq_iff (value : Int) :
    (fit memory value bits >>= fun stored => toSigned memory stored bits) = .ok value <->
      -(2 ^ (bits.toNat - 1)) ≤ value ∧ value < 2 ^ (bits.toNat - 1) := by
  have half : (0 : Int) < 2 ^ (bits.toNat - 1) := pow_pos (by decide) _
  rw [fit_of_stored positive countable storable]
  by_cases accepted : Accepts (2 ^ bits.toNat) value
  · rw [place_of_accepted accepted]
    change toSigned memory (value % 2 ^ bits.toNat) bits = .ok value <-> _
    rw [toSigned_of_stored positive countable storable, Except.ok.injEq]
    rw [two_pow_toNat positive] at accepted ⊢
    exact signed_emod_eq_iff half accepted
  · rw [place_of_not_accepted accepted]
    refine ⟨nofun, fun within => absurd ?_ accepted⟩
    rw [two_pow_toNat positive]
    exact ⟨by omega, by omega⟩

/-- What is read from the bits of a field is placed as the same bits. -/
theorem fit_toSigned {value : Int} (nonnegative : 0 ≤ value) (below : value < 2 ^ bits.toNat) :
    (toSigned memory value bits >>= fun read => fit memory read bits) = .ok value := by
  rw [toSigned_of_stored positive countable storable]
  change fit memory (if value < _ then value else _) bits = .ok value
  rw [two_pow_toNat positive] at below
  have back := signed_of_bits nonnegative below
  rw [fit_of_stored positive countable storable, place_eq_ok_iff, two_pow_toNat positive]
  exact ⟨back.1, back.2.symm⟩

end

end Field

/-! ## Bytes -/

/-- The nibbles of a byte depend on the lowest eight bits only. -/
theorem byteNibbles_congr {first second : Int} (same : first % 256 = second % 256) :
    byteNibbles first = byteNibbles second := by
  simp only [byteNibbles, nibbleAt, Prod.mk.injEq]
  constructor
  · apply Fin.ext
    simp only
    omega
  · apply Fin.ext
    simp only
    omega

theorem byteNibbles_value (value : Int) :
    16 * ((byteNibbles value).1.val : Int) + (byteNibbles value).2.val = value % 256 := by
  simp only [byteNibbles, nibbleAt]
  omega

/-- An integer that fits into a byte is cut into the nibbles of its lowest eight bits. -/
theorem splitByte_of_accepted {value : Int} (accepted : Field.Accepts 256 value) :
    splitByte value = .ok (byteNibbles value) := by
  have placed : Field.place value 8 = .ok (value % 256) := Field.place_of_accepted accepted
  rw [splitByte, placed]
  exact congrArg Except.ok (byteNibbles_congr (Int.emod_emod value 256))

theorem splitByte_of_not_accepted {value : Int} (missed : ¬ Field.Accepts 256 value) :
    splitByte value = .error (.doesNotFit (Field.raise 256 value) 8) := by
  have refused : Field.place value 8 = .error (.doesNotFit (Field.raise 256 value) 8) :=
    Field.place_of_not_accepted missed
  rw [splitByte, refused]
  rfl

/-! ## Fields of every width -/

/-- A field of a width whose size can be stored takes the integers below its size that are not
farther below zero, and holds their remainders by the size; any other integer does not fit.
Reading gives back an integer that was placed exactly when the integer lies within half the
size, and placing gives back whatever bits were read.  Splitting a byte takes the integers that
a field of eight bits takes, and gives the two nibbles of the remainder.

A negative width is refused for every integer, and so is a width whose size needs more digits
than an integer can have. -/
theorem fields_hold_twos_complement (memory : Nat) :
    (forall value bits : Int, 1 ≤ bits -> bits ≤ Field.widthLimit -> bits ≤ memory ->
      (forall stored, Field.fit memory value bits = .ok stored <->
          (-(2 ^ bits.toNat) ≤ value ∧ value < 2 ^ bits.toNat) ∧
            stored = value % 2 ^ bits.toNat) ∧
        (forall error, Field.fit memory value bits = .error error <->
          ¬ (-(2 ^ bits.toNat) ≤ value ∧ value < 2 ^ bits.toNat) ∧
            error = .doesNotFit (if value < 0 then 2 ^ bits.toNat + value else value) bits) ∧
        ((Field.fit memory value bits >>= fun stored => Field.toSigned memory stored bits) =
            .ok value <->
          -(2 ^ (bits.toNat - 1)) ≤ value ∧ value < 2 ^ (bits.toNat - 1)) ∧
        (0 ≤ value -> value < 2 ^ bits.toNat ->
          (Field.toSigned memory value bits >>= fun read => Field.fit memory read bits) =
            .ok value)) ∧
      (forall value : Int, -256 ≤ value ∧ value < 256 ->
        Exists fun high => Exists fun low => splitByte value = .ok (high, low) ∧
          16 * (high.val : Int) + low.val = value % 256) ∧
      (forall value : Int, ¬ (-256 ≤ value ∧ value < 256) ->
        splitByte value = .error (.doesNotFit (if value < 0 then 256 + value else value) 8)) ∧
      (forall value bits : Int, bits < 0 ->
        Field.fit memory value bits = .error .negativeWidth) ∧
      forall value bits : Int, Field.widthLimit < bits ->
        Field.fit memory value bits = .error .tooManyDigits := by
  refine ⟨?_, ?_, ?_, ?_, ?_⟩
  · intro value bits positive countable storable
    have width : ((bits.toNat : Nat) : Int) = bits := Int.toNat_of_nonneg (by omega)
    have refused := Field.place_eq_error_iff value bits.toNat
    rw [width] at refused
    rw [Field.fit_of_stored positive countable storable]
    refine ⟨fun stored => Field.place_eq_ok_iff value stored bits.toNat, refused, ?_,
      Field.fit_toSigned positive countable storable⟩
    rw [← Field.fit_of_stored positive countable storable]
    exact Field.toSigned_fit_eq_iff positive countable storable value
  · intro value accepted
    exact ⟨_, _, splitByte_of_accepted accepted, byteNibbles_value value⟩
  · intro value missed
    exact splitByte_of_not_accepted missed
  · intro value bits negative
    exact Field.fit_of_refused (Field.checkWidth_of_negative negative) value
  · intro value bits wide
    exact Field.fit_of_refused (Field.checkWidth_of_tooManyDigits wide) value

/-- The least integer of a byte is read as it was placed.  The integer one below it is placed as the
greatest, and 256 is not placed at all. -/
theorem fields_hold_twos_complement_of_samples :
    (Field.fit 64 (-128) 8 >>= fun stored => Field.toSigned 64 stored 8) = .ok (-128) ∧
      Field.fit 64 (-129) 8 = .ok 127 ∧
      (Field.fit 64 (-129) 8 >>= fun stored => Field.toSigned 64 stored 8) ≠ .ok (-129) ∧
      Field.fit 64 256 8 = .error (.doesNotFit 256 8) ∧
      (Field.toSigned 64 255 8 >>= fun read => Field.fit 64 read 8) = .ok 255 ∧
      (Exists fun high => Exists fun low => splitByte (-129) = .ok (high, low) ∧
        16 * (high.val : Int) + low.val = 127) ∧
      splitByte (-257) = .error (.doesNotFit (-1) 8) ∧
      Field.fit 64 0 (-1) = .error .negativeWidth ∧
      Field.fit 64 0 69175290276410818321 = .error .tooManyDigits := by
  rcases fields_hold_twos_complement 64 with ⟨fields, bytes, noBytes, negative, wide⟩
  have byte := fun value => fields value 8 (by decide) (by decide) (by decide)
  refine ⟨(byte (-128)).2.2.1.mpr (by decide), ((byte (-129)).1 127).mpr (by decide), ?_,
    ((byte 256).2.1 _).mpr (by decide), (byte 255).2.2.2 (by decide) (by decide),
    bytes (-129) (by decide), noBytes (-257) (by decide), negative 0 (-1) (by decide),
    wide 0 69175290276410818321 (by decide)⟩
  intro same
  exact absurd ((byte (-129)).2.2.1.mp same) (by decide)

theorem accepts_one {width : Nat} (positive : 0 < width) : Field.Accepts (2 ^ width) 1 := by
  have size : (1 : Int) < 2 ^ width := one_lt_pow₀ (by decide) (Nat.ne_of_gt positive)
  exact ⟨by omega, size⟩

/-- Not every width is that of a field: one is below the size of a field of ten to the power of
twenty-five bits, and is not placed in it, however much memory there is. -/
theorem wide_field_refuses_one :
    (1 : Int) ≤ 10000000000000000000000000 ∧
      (-(2 ^ Int.toNat 10000000000000000000000000) ≤ (1 : Int) ∧
        (1 : Int) < 2 ^ Int.toNat 10000000000000000000000000) ∧
      forall memory, Field.fit memory 1 10000000000000000000000000 = .error .tooManyDigits :=
  ⟨by decide, accepts_one (by decide), fun _ =>
    Field.fit_of_refused (Field.checkWidth_of_tooManyDigits (by decide)) 1⟩

end NibbleMachine
