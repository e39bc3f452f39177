import NibbleMachine.Proofs.Numeral
import NibbleMachine.Proofs.Positional

namespace NibbleMachine
namespace Numeral

/-!
# Numerals by their digits

Which texts an operand numeral is read from, and what is read, said by lists of digits alone.  A
text is the mark and digits below sixteen, or a sign and digits below ten, or neither, and it is
never both.  The reader tells the three kinds apart, and its answer in each is one equation: the
positional value, the signed positional value unless there are too many digits, and a refusal that
quotes the text.

Integers are written in digits that are worth them, so they are read from their own texts.  In
base sixteen nothing bounds their size.
-/

/-! ## Two kinds of numerals -/

/-- The text of a hexadecimal numeral: the mark, then digits. -/
def IsHexadecimal (text : String) (digits : List Nat) : Prop :=
  AreDigits 16 digits ∧ text = "0x" ++ String.ofList (digitText digits)

/-- The signs that a decimal numeral may have, with what they say. -/
def signs : List (String × Bool) :=
  [("", false), ("+", false), ("-", true)]

/-- The text of a decimal numeral: a sign, then digits. -/
def IsDecimal (text : String) (negative : Bool) (digits : List Nat) : Prop :=
  AreDigits 10 digits ∧ Exists fun sign =>
    (sign, negative) ∈ signs ∧ text = sign ++ String.ofList (digitText digits)

theorem isDigit_digitChar : forall digit, digit < 10 ->
    (Nat.digitChar digit).isDigit = true := by decide

theorem isHexDigit_digitChar : forall digit, digit < 16 ->
    isHexDigit (Nat.digitChar digit) = true := by decide

theorem digitValue_digitChar : forall digit, digit < 16 ->
    digitValue (Nat.digitChar digit) = digit := by decide

theorem isDigits_digitText {digits : List Nat} (areDigits : AreDigits 10 digits) :
    IsDigits (digitText digits) := by
  constructor
  · exact fun empty => areDigits.nonempty (List.map_eq_nil_iff.mp empty)
  · exact List.forall_mem_map.mpr fun digit member =>
      isDigit_digitChar digit (areDigits.below digit member)

theorem exists_digits_of_isDigits {characters : List Char} (wellFormed : IsDigits characters) :
    Exists fun digits => AreDigits 10 digits ∧ characters = digitText digits :=
  exists_digitText wellFormed.1 fun c member => exists_digitChar (wellFormed.2 c member)

/-- A hexadecimal numeral is recognised with its digits. -/
theorem IsHexadecimal.hexDigits? {text : String} {digits : List Nat}
    (written : IsHexadecimal text digits) : hexDigits? text.toList = some (digitText digits) := by
  rcases written with ⟨areDigits, rfl⟩
  apply (hexDigits?_eq_some_iff _ _).mpr
  refine ⟨by simp, ?_, ?_⟩
  · exact fun empty => areDigits.nonempty (List.map_eq_nil_iff.mp empty)
  · exact List.forall_mem_map.mpr fun digit member =>
      isHexDigit_digitChar digit (areDigits.below digit member)

theorem exists_isHexadecimal {text : String} {characters : List Char}
    (found : Numeral.hexDigits? text.toList = some characters) :
    Exists fun digits => IsHexadecimal text digits := by
  rcases (hexDigits?_eq_some_iff _ _).mp found with ⟨shape, nonempty, all⟩
  rcases exists_digitText nonempty fun c member => exists_hexDigitChar (all c member) with
    ⟨digits, areDigits, rfl⟩
  refine ⟨digits, areDigits, String.toList_inj.mp ?_⟩
  rw [shape, String.toList_append, String.toList_ofList, String.toList_ofList]
  rfl

/-- A decimal numeral is recognised with its sign and digits. -/
theorem IsDecimal.signedDigits {text : String} {negative : Bool} {digits : List Nat}
    (written : IsDecimal text negative digits) :
    SignedDigits text.toList ⟨negative, digitText digits⟩ := by
  rcases written with ⟨areDigits, sign, listed, rfl⟩
  have wellFormed := isDigits_digitText areDigits
  simp only [signs, List.mem_cons, Prod.mk.injEq, List.not_mem_nil, or_false] at listed
  rw [String.toList_append, String.toList_ofList]
  rcases listed with ⟨rfl, rfl⟩ | ⟨rfl, rfl⟩ | ⟨rfl, rfl⟩
  · exact .unsigned _ wellFormed
  · exact .plus _ wellFormed
  · exact .minus _ wellFormed

theorem exists_isDecimal {text : String} {numeral : Decimal}
    (written : SignedDigits text.toList numeral) :
    Exists fun negative => Exists fun digits => IsDecimal text negative digits := by
  have signed : forall sign negative characters, (sign, negative) ∈ signs ->
      IsDigits characters -> text.toList = sign.toList ++ characters ->
        Exists fun negative => Exists fun digits => IsDecimal text negative digits := by
    intro sign negative characters listed wellFormed shape
    rcases exists_digits_of_isDigits wellFormed with ⟨digits, areDigits, rfl⟩
    refine ⟨negative, digits, areDigits, sign, listed, String.toList_inj.mp ?_⟩
    rw [shape, String.toList_append, String.toList_ofList]
  generalize shape : text.toList = characters at written
  cases written with
  | unsigned _ wellFormed => exact signed "" false characters (by decide) wellFormed shape
  | plus digits wellFormed => exact signed "+" false digits (by decide) wellFormed shape
  | minus digits wellFormed => exact signed "-" true digits (by decide) wellFormed shape

/-! ## Reading each kind -/

theorem read_of_isHexadecimal {text : String} {digits : List Nat}
    (written : IsHexadecimal text digits) : read text = .ok (positional 16 digits : Nat) := by
  have value : valueInBase 16 (digitText digits) = positional 16 digits :=
    foldl_digitText digitValue digitValue_digitChar written.1.below
  simp only [read, written.hexDigits?, value]

theorem read_of_isDecimal {text : String} {negative : Bool} {digits : List Nat}
    (written : IsDecimal text negative digits) :
    read text =
      if digits.length ≤ 4300 then .ok (signed negative (positional 10 digits))
      else .error (.tooManyDigits digits.length) := by
  have value : Nat.ofDigitChars 10 (digitText digits) 0 = positional 10 digits :=
    foldl_digitText (fun c => c.toNat - '0'.toNat) (by decide) written.1.below
  have length : (digitText digits).length = digits.length := List.length_map _
  simp only [read, hexDigits?_of_signedDigits written.signedDigits,
    (ofText?_eq_some_iff _ _).mpr written.signedDigits, Decimal.read, Decimal.isReadable,
    Decimal.value, value, length, digitLimit, decide_eq_true_eq]

/-- Neither kind of numeral. -/
def IsNoNumeral (text : String) : Prop :=
  (forall digits, ¬ IsHexadecimal text digits) ∧
    forall negative digits, ¬ IsDecimal text negative digits

theorem read_of_isNoNumeral {text : String} (other : IsNoNumeral text) :
    read text = .error (.notNumeral text) := by
  have unmarked : hexDigits? text.toList = none := by
    cases found : hexDigits? text.toList with
    | none => rfl
    | some characters =>
        rcases exists_isHexadecimal found with ⟨digits, written⟩
        exact absurd written (other.1 digits)
  have unsigned : Decimal.ofText? text.toList = none := by
    cases found : Decimal.ofText? text.toList with
    | none => rfl
    | some numeral =>
        rcases exists_isDecimal ((ofText?_eq_some_iff _ _).mp found) with
          ⟨negative, digits, written⟩
        exact absurd written (other.2 negative digits)
  simp only [read, unmarked, unsigned]

/-- Every text is a numeral of one kind or none. -/
theorem kind_of_text (text : String) :
    (Exists fun digits => IsHexadecimal text digits) ∨
      (Exists fun negative => Exists fun digits => IsDecimal text negative digits) ∨
      IsNoNumeral text := by
  by_cases marked : Exists fun digits => IsHexadecimal text digits
  · exact Or.inl marked
  · by_cases signed : Exists fun negative => Exists fun digits => IsDecimal text negative digits
    · exact Or.inr (Or.inl signed)
    · exact Or.inr (Or.inr ⟨not_exists.mp marked, fun negative digits written =>
        signed ⟨negative, digits, written⟩⟩)

/-! ## What is read, and what is not -/

/-- What is read from a text, by its kind and its digits. -/
inductive Reading (text : String) : Except Error Int -> Prop
  | hexadecimal (digits : List Nat) (written : IsHexadecimal text digits) :
      Reading text (.ok (positional 16 digits : Nat))
  | decimal (negative : Bool) (digits : List Nat) (written : IsDecimal text negative digits)
      (short : digits.length ≤ 4300) :
      Reading text (.ok (signed negative (positional 10 digits)))
  | long (negative : Bool) (digits : List Nat) (written : IsDecimal text negative digits)
      (long : 4300 < digits.length) : Reading text (.error (.tooManyDigits digits.length))
  | other (other : IsNoNumeral text) : Reading text (.error (.notNumeral text))

theorem reading_read (text : String) : Reading text (read text) := by
  rcases kind_of_text text with ⟨digits, written⟩ | ⟨negative, digits, written⟩ | other
  · rw [read_of_isHexadecimal written]
    exact .hexadecimal digits written
  · rw [read_of_isDecimal written]
    split
    · next short => exact .decimal negative digits written short
    · next long => exact .long negative digits written (Nat.not_le.mp long)
  · rw [read_of_isNoNumeral other]
    exact .other other

theorem read_eq_iff (text : String) (result : Except Error Int) :
    read text = result <-> Reading text result := by
  constructor
  · rintro rfl
    exact reading_read text
  · intro reading
    cases reading with
    | hexadecimal digits written => exact read_of_isHexadecimal written
    | decimal negative digits written short => rw [read_of_isDecimal written, if_pos short]
    | long negative digits written long =>
        rw [read_of_isDecimal written, if_neg (Nat.not_le.mpr long)]
    | other other => exact read_of_isNoNumeral other

/-- The numerals with their values. -/
theorem read_eq_ok_iff_digits (text : String) (value : Int) :
    read text = .ok value <->
      (Exists fun digits => IsHexadecimal text digits ∧ value = (positional 16 digits : Nat)) ∨
        Exists fun negative => Exists fun digits => IsDecimal text negative digits ∧
          digits.length ≤ 4300 ∧ value = signed negative (positional 10 digits) := by
  rw [read_eq_iff]
  constructor
  · intro reading
    cases reading with
    | hexadecimal digits written => exact Or.inl ⟨digits, written, rfl⟩
    | decimal negative digits written short =>
        exact Or.inr ⟨negative, digits, written, short, rfl⟩
  · rintro (⟨digits, written, rfl⟩ | ⟨negative, digits, written, short, rfl⟩)
    · exact .hexadecimal digits written
    · exact .decimal negative digits written short

/-- The decimal numerals that are too long to be read. -/
theorem read_eq_tooManyDigits_iff (text : String) (count : Nat) :
    read text = .error (.tooManyDigits count) <->
      Exists fun negative => Exists fun digits => IsDecimal text negative digits ∧
        4300 < digits.length ∧ count = digits.length := by
  rw [read_eq_iff]
  constructor
  · intro reading
    cases reading with
    | long negative digits written long => exact ⟨negative, digits, written, long, rfl⟩
  · rintro ⟨negative, digits, written, long, rfl⟩
    exact .long negative digits written long

/-- The texts that are no numerals are refused with themselves. -/
theorem read_eq_notNumeral_iff (text shown : String) :
    read text = .error (.notNumeral shown) <-> IsNoNumeral text ∧ shown = text := by
  rw [read_eq_iff]
  constructor
  · intro reading
    cases reading with
    | other other => exact ⟨other, rfl⟩
  · rintro ⟨other, rfl⟩
    exact .other other

/-- An integer is read from its decimal text, if it has one. -/
theorem exists_decimal?_read {value : Int} (bound : value.natAbs < Nat.pow 10 4300) :
    Exists fun text => decimal? value = some text ∧ read text = .ok value := by
  have writable := (isWritable_iff value).mpr bound
  exact ⟨decimal value, if_pos writable, read_decimal writable⟩

/-- A number is read from its hexadecimal text, whatever its size. -/
theorem read_toDigits_sixteen (number : Nat) :
    read ("0x" ++ String.ofList (Nat.toDigits 16 number)) = .ok (number : Int) := by
  have large : 1 < 16 := by decide
  rcases exists_toDigits large number with ⟨digits, areDigits, shape, value⟩
  rw [shape, read_of_isHexadecimal ⟨areDigits, rfl⟩, value]

/-- A text is read as a value when it is the mark and digits below sixteen of that positional
value, or a sign and at most 4300 digits below ten that are worth it.  Every other text is
refused: with the number of digits when there are too many, and else as no numeral.  So an integer
within the limit is read from its decimal text, and any number from its hexadecimal one. -/
theorem numerals_are_read_by_their_digits :
    (forall (text : String) (value : Int), read text = .ok value <->
      (Exists fun digits => IsHexadecimal text digits ∧ value = (positional 16 digits : Nat)) ∨
        Exists fun negative => Exists fun digits => IsDecimal text negative digits ∧
          digits.length ≤ 4300 ∧ value = signed negative (positional 10 digits)) ∧
      (forall (text : String) (count : Nat), read text = .error (.tooManyDigits count) <->
        Exists fun negative => Exists fun digits => IsDecimal text negative digits ∧
          4300 < digits.length ∧ count = digits.length) ∧
      (forall text shown : String, read text = .error (.notNumeral shown) <->
        IsNoNumeral text ∧ shown = text) ∧
      (forall value : Int, value.natAbs < Nat.pow 10 4300 ->
        Exists fun text => decimal? value = some text ∧ read text = .ok value) ∧
      forall number : Nat,
        read ("0x" ++ String.ofList (Nat.toDigits 16 number)) = .ok (number : Int) :=
  ⟨read_eq_ok_iff_digits, read_eq_tooManyDigits_iff, read_eq_notNumeral_iff,
    fun _ bound => exists_decimal?_read bound, read_toDigits_sixteen⟩

/-- Leading zeros and a sign, the mark with zeros behind it, a capital letter, and one digit more
than are read. -/
theorem numerals_are_read_by_their_digits_of_samples :
    read "-0042" = .ok (-42) ∧
      read "0x00ff" = .ok 255 ∧
      read "0xFF" = .error (.notNumeral "0xFF") ∧
      read ("+" ++ String.ofList (digitText (List.replicate 4301 7))) =
        .error (.tooManyDigits 4301) ∧
      Exists fun text => decimal? (-42) = some text ∧ read text = .ok (-42) := by
  rcases numerals_are_read_by_their_digits with ⟨values, long, others, written, -⟩
  have sevens : forall count, AreDigits 10 (List.replicate (count + 1) 7) := by
    intro count
    refine ⟨List.cons_ne_nil _ _, fun digit member => ?_⟩
    rw [List.eq_of_mem_replicate member]
    decide
  have capital : IsNoNumeral "0xFF" := by
    constructor
    · intro digits marked
      have unmarked : Numeral.hexDigits? "0xFF".toList = none := by decide
      rw [marked.hexDigits?] at unmarked
      cases unmarked
    · intro negative digits signed
      have unsigned : Decimal.ofText? "0xFF".toList = none := by decide
      rw [(ofText?_eq_some_iff _ _).mpr signed.signedDigits] at unsigned
      cases unsigned
  have signed : IsDecimal "-0042" true [0, 0, 4, 2] :=
    ⟨⟨by decide, by decide⟩, "-", by decide, by decide⟩
  have marked : IsHexadecimal "0x00ff" [0, 0, 15, 15] := ⟨⟨by decide, by decide⟩, by decide⟩
  refine ⟨?_, ?_, (others _ _).mpr ⟨capital, rfl⟩, ?_, written (-42) ?_⟩
  · exact (values _ _).mpr (Or.inr ⟨true, _, signed, by decide, by decide⟩)
  · exact (values _ _).mpr (Or.inl ⟨_, marked, by decide⟩)
  · refine (long _ _).mpr ⟨false, _, ⟨sevens 4300, "+", by decide, rfl⟩, ?_⟩
    rw [List.length_replicate]
    exact ⟨by decide, rfl⟩
  · exact (isWritable_iff (-42)).mp (isWritable_of_signedByte (by decide) (by decide))

end Numeral
end NibbleMachine
