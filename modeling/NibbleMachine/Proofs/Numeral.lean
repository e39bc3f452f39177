import NibbleMachine.Numeral.Operand

namespace NibbleMachine
namespace Numeral

/-!
# The numerals that operands are read from

Reading a numeral first looks for the hexadecimal mark and then for a sign and
digits.  The statements here say which texts are accepted and what they stand
for without going through the reader: a decimal numeral is an optional sign
before at least one digit, a hexadecimal one is the mark before at least one
small hexadecimal digit.  No text is both, because the mark is no digit.
-/

/-- A text of at least one digit. -/
def IsDigits (digits : List Char) : Prop :=
  digits ≠ [] ∧ forall c, c ∈ digits -> c.isDigit = true

/-- A text made of an optional sign and digits. -/
inductive SignedDigits : List Char -> Decimal -> Prop
  | unsigned (digits : List Char) (wellFormed : IsDigits digits) :
      SignedDigits digits ⟨false, digits⟩
  | plus (digits : List Char) (wellFormed : IsDigits digits) :
      SignedDigits ('+' :: digits) ⟨false, digits⟩
  | minus (digits : List Char) (wellFormed : IsDigits digits) :
      SignedDigits ('-' :: digits) ⟨true, digits⟩

theorem splitSign_of_isDigits {digits : List Char} (wellFormed : IsDigits digits) :
    splitSign digits = (false, digits) := by
  rcases wellFormed with ⟨-, all⟩
  unfold splitSign
  split
  · exact absurd (all '-' List.mem_cons_self) (by decide)
  · exact absurd (all '+' List.mem_cons_self) (by decide)
  · rfl

theorem splitSign_cases (text : List Char) :
    (Exists fun rest => text = '-' :: rest ∧ splitSign text = (true, rest)) ∨
      (Exists fun rest => text = '+' :: rest ∧ splitSign text = (false, rest)) ∨
      splitSign text = (false, text) := by
  unfold splitSign
  split
  · next rest => exact Or.inl ⟨rest, rfl, rfl⟩
  · next rest => exact Or.inr (Or.inl ⟨rest, rfl, rfl⟩)
  · exact Or.inr (Or.inr rfl)

theorem recognised_iff (digits : List Char) :
    (!digits.isEmpty && digits.all Char.isDigit) = true <-> IsDigits digits := by
  simp [IsDigits, List.all_eq_true]

/-- The decimal numerals are an optional sign before at least one digit. -/
theorem ofText?_eq_some_iff (text : List Char) (numeral : Decimal) :
    Decimal.ofText? text = some numeral <-> SignedDigits text numeral := by
  constructor
  · intro recognised
    unfold Decimal.ofText? at recognised
    rcases splitSign_cases text with ⟨rest, rfl, sign⟩ | ⟨rest, rfl, sign⟩ | sign
    · rw [sign] at recognised
      rcases Option.ite_none_right_eq_some.mp recognised with ⟨accepted, same⟩
      exact Option.some.inj same ▸ .minus rest ((recognised_iff rest).mp accepted)
    · rw [sign] at recognised
      rcases Option.ite_none_right_eq_some.mp recognised with ⟨accepted, same⟩
      exact Option.some.inj same ▸ .plus rest ((recognised_iff rest).mp accepted)
    · rw [sign] at recognised
      rcases Option.ite_none_right_eq_some.mp recognised with ⟨accepted, same⟩
      exact Option.some.inj same ▸ .unsigned text ((recognised_iff text).mp accepted)
  · intro signed
    unfold Decimal.ofText?
    cases signed with
    | unsigned _ wellFormed =>
        rw [splitSign_of_isDigits wellFormed]
        exact if_pos ((recognised_iff text).mpr wellFormed)
    | plus digits wellFormed => exact if_pos ((recognised_iff digits).mpr wellFormed)
    | minus digits wellFormed => exact if_pos ((recognised_iff digits).mpr wellFormed)

/-- The hexadecimal numerals are the mark before at least one digit. -/
theorem hexDigits?_eq_some_iff (text digits : List Char) :
    hexDigits? text = some digits <->
      text = '0' :: 'x' :: digits ∧ digits ≠ [] ∧ forall c, c ∈ digits -> isHexDigit c = true := by
  constructor
  · intro recognised
    unfold hexDigits? at recognised
    split at recognised
    · next found =>
        split at recognised
        · next accepted =>
            cases recognised
            exact ⟨rfl, by simpa [List.all_eq_true] using accepted⟩
        · cases recognised
    · cases recognised
  · rintro ⟨rfl, nonempty, all⟩
    simp only [hexDigits?]
    exact if_pos (by simpa [List.all_eq_true] using And.intro nonempty all)

/-- No hexadecimal numeral is a decimal one. -/
theorem hexDigits?_of_signedDigits {text : List Char} {numeral : Decimal}
    (signed : SignedDigits text numeral) : hexDigits? text = none := by
  cases found : hexDigits? text with
  | none => rfl
  | some digits =>
      rcases (hexDigits?_eq_some_iff text digits).mp found with ⟨rfl, -, -⟩
      cases signed with
      | unsigned _ wellFormed => exact absurd (wellFormed.2 'x' (by simp)) (by decide)

/-- The numerals of operands with their values: decimal ones within the limit on
digits and hexadecimal ones of any length. -/
inductive OperandNumeral : List Char -> Int -> Prop
  | decimal (text : List Char) (numeral : Decimal) (signed : SignedDigits text numeral)
      (short : numeral.digits.length ≤ 4300) : OperandNumeral text numeral.value
  | hexadecimal (digits : List Char) (nonempty : digits ≠ [])
      (all : forall c, c ∈ digits -> isHexDigit c = true) :
      OperandNumeral ('0' :: 'x' :: digits) (valueInBase 16 digits)

/-- The texts that are read are the operand numerals. -/
theorem read_eq_ok_iff (text : String) (value : Int) :
    read text = .ok value <-> OperandNumeral text.toList value := by
  constructor
  · intro readable
    unfold read at readable
    cases hex : hexDigits? text.toList with
    | some digits =>
        simp only [hex, Except.ok.injEq] at readable
        rcases (hexDigits?_eq_some_iff _ _).mp hex with ⟨shape, nonempty, all⟩
        rw [shape, ← readable]
        exact .hexadecimal digits nonempty all
    | none =>
        cases recognised : Decimal.ofText? text.toList with
        | none => simp [hex, recognised] at readable
        | some numeral =>
            have signed := (ofText?_eq_some_iff _ _).mp recognised
            simp only [hex, recognised, Decimal.read] at readable
            cases short : numeral.isReadable with
            | false =>
                rw [short, if_neg Bool.false_ne_true] at readable
                cases readable
            | true =>
                rw [short, if_pos rfl] at readable
                rw [← Except.ok.inj readable]
                exact .decimal _ numeral signed (of_decide_eq_true short)
  · intro written
    generalize shape : text.toList = characters at written
    cases written with
    | decimal _ numeral signed short =>
        have readable : numeral.isReadable = true := decide_eq_true short
        simp [read, shape, hexDigits?_of_signedDigits signed,
          (ofText?_eq_some_iff _ _).mpr signed, Decimal.read, readable]
    | hexadecimal digits nonempty all =>
        have hex := (hexDigits?_eq_some_iff text.toList digits).mpr ⟨shape, nonempty, all⟩
        simp [read, hex]

/-! ## Written integers -/

theorem isDigits_toDigits (number : Nat) : IsDigits (Nat.toDigits 10 number) :=
  ⟨Nat.toDigits_ne_nil, fun _ member =>
    Nat.isDigit_of_mem_toDigits (by decide) (by decide) member⟩

theorem signedDigits_decimalDigits (value : Int) :
    SignedDigits (decimalDigits value)
      ⟨decide (value < 0), Nat.toDigits 10 value.natAbs⟩ := by
  cases value with
  | ofNat number => exact .unsigned _ (isDigits_toDigits number)
  | negSucc number =>
      rw [decide_eq_true (Int.negSucc_lt_zero number)]
      exact .minus _ (isDigits_toDigits (number + 1))

theorem signedDigits_decimal (value : Int) :
    SignedDigits (decimal value).toList ⟨decide (value < 0), Nat.toDigits 10 value.natAbs⟩ := by
  rw [decimal, String.toList_ofList]
  exact signedDigits_decimalDigits value

/-- The text of an integer stands for that integer only. -/
theorem value_of_signedDigits_decimal {value : Int} {numeral : Decimal}
    (written : SignedDigits (decimal value).toList numeral) : numeral.value = value := by
  have recognised := (ofText?_eq_some_iff _ _).mpr written
  have reads := value_of_decimalDigits value
  rw [decimal, String.toList_ofList] at recognised
  rw [recognised] at reads
  exact Option.some.inj reads

theorem length_toDigits_le {number limit : Nat} (positive : 0 < limit)
    (below : number < Nat.pow 10 limit) : (Nat.toDigits 10 number).length ≤ limit :=
  (Nat.length_toDigits_le_iff (by decide) positive).mpr below

theorem natAbs_lt_of_isWritable {value : Int} (writable : isWritable value = true) :
    value.natAbs < Nat.pow 10 digitLimit :=
  of_decide_eq_true writable

/-- An integer within the limit on digits is read from its decimal text. -/
theorem read_decimal {value : Int} (writable : isWritable value = true) :
    read (decimal value) = .ok value := by
  have signed := signedDigits_decimalDigits value
  have recognised := (ofText?_eq_some_iff _ _).mpr signed
  have same := value_of_decimalDigits value
  rw [recognised] at same
  have short : (Nat.toDigits 10 value.natAbs).length ≤ digitLimit :=
    length_toDigits_le (by decide) (natAbs_lt_of_isWritable writable)
  have written := OperandNumeral.decimal _ _ signed short
  rw [Option.some.inj same] at written
  apply (read_eq_ok_iff _ _).mpr
  rw [decimal, String.toList_ofList]
  exact written

/-- Powers of ten grow; none of them is computed. -/
theorem pow_ten_le {least greatest : Nat} (grows : least ≤ greatest) :
    Nat.pow 10 least ≤ Nat.pow 10 greatest :=
  Nat.pow_le_pow_right (by decide) grows

/-- A signed byte stays within the limit on digits. -/
theorem isWritable_of_signedByte {value : Int} (least : -128 ≤ value) (greatest : value ≤ 127) :
    isWritable value = true := by
  have small : value.natAbs < 1000 := by omega
  have limit : 3 ≤ digitLimit := by decide
  have below : value.natAbs < Nat.pow 10 digitLimit :=
    Nat.lt_of_lt_of_le small (pow_ten_le limit)
  exact decide_eq_true below

/-! ## Digits -/

theorem digit_lt_ten {c : Char} (digit : c.isDigit = true) : c.toNat - '0'.toNat < 10 := by
  have bounds : 48 ≤ c.toNat ∧ c.toNat ≤ 57 := by
    simpa [Char.isDigit, UInt32.le_iff_toNat_le] using digit
  have zero : '0'.toNat = 48 := rfl
  omega

theorem digitChar_of_isDigit {c : Char} (digit : c.isDigit = true) :
    Nat.digitChar (c.toNat - '0'.toNat) = c := by
  have range : forall code : Fin 10, Nat.digitChar code = Char.ofNat (48 + code) := by decide
  have bounds : 48 ≤ c.toNat ∧ c.toNat ≤ 57 := by
    simpa [Char.isDigit, UInt32.le_iff_toNat_le] using digit
  have here := range ⟨c.toNat - 48, by omega⟩
  calc
    Nat.digitChar (c.toNat - '0'.toNat) = Char.ofNat (48 + (c.toNat - 48)) := here
    _ = Char.ofNat c.toNat := by rw [Nat.add_sub_cancel' bounds.1]
    _ = c := Char.ofNat_toNat c

/-- The digits are those that numbers below ten are written with. -/
theorem exists_digitChar {c : Char} (digit : c.isDigit = true) :
    Exists fun value => value < 10 ∧ c = Nat.digitChar value :=
  ⟨_, digit_lt_ten digit, (digitChar_of_isDigit digit).symm⟩

/-- The hexadecimal digits are those that numbers below sixteen are written with. -/
theorem exists_hexDigitChar {c : Char} (digit : isHexDigit c = true) :
    Exists fun value => value < 16 ∧ c = Nat.digitChar value := by
  simp only [isHexDigit, Bool.or_eq_true, Bool.and_eq_true, decide_eq_true_eq] at digit
  rcases digit with decimal | letter
  · rcases exists_digitChar decimal with ⟨value, within, shape⟩
    exact ⟨value, Nat.lt_trans within (by decide), shape⟩
  · have letters : forall code : Fin 6, Nat.digitChar (10 + code) = Char.ofNat (97 + code) := by
      decide
    have bounds : 97 ≤ c.toNat ∧ c.toNat ≤ 102 := letter
    have here := letters ⟨c.toNat - 97, by omega⟩
    rw [Nat.add_sub_cancel' bounds.1, Char.ofNat_toNat] at here
    exact ⟨10 + (c.toNat - 97), by omega, here.symm⟩

/-! ## The limit on digits -/

theorem ofDigitChars_lt {base : Nat} {digits : List Char}
    (all : forall c, c ∈ digits -> c.toNat - '0'.toNat < base) (start : Nat) :
    Nat.ofDigitChars base digits start < (start + 1) * Nat.pow base digits.length := by
  induction digits generalizing start with
  | nil =>
      change start < (start + 1) * 1
      omega
  | cons c rest inductionHypothesis =>
      have digit := all c List.mem_cons_self
      have later := inductionHypothesis (fun other member =>
        all other (List.mem_cons_of_mem c member)) (base * start + (c.toNat - '0'.toNat))
      have room : base * start + (c.toNat - '0'.toNat) + 1 ≤ (start + 1) * base := by
        rw [Nat.add_mul, Nat.one_mul, Nat.mul_comm start base]
        omega
      rw [Nat.ofDigitChars_cons]
      refine Nat.lt_of_lt_of_le later ?_
      calc
        (base * start + (c.toNat - '0'.toNat) + 1) * Nat.pow base rest.length
            ≤ ((start + 1) * base) * Nat.pow base rest.length :=
          Nat.mul_le_mul_right _ room
        _ = (start + 1) * (Nat.pow base rest.length * base) := by
          rw [Nat.mul_assoc, Nat.mul_comm base]

theorem natAbs_signed (negative : Bool) (magnitude : Nat) :
    (signed negative magnitude).natAbs = magnitude := by
  cases negative with
  | false => rfl
  | true => exact Int.natAbs_neg magnitude

/-- An integer can be written when its magnitude stays below the power of ten that the limit
stands for. -/
theorem isWritable_iff (value : Int) :
    isWritable value = true <-> value.natAbs < Nat.pow 10 4300 := by
  have limit : 4300 = digitLimit := rfl
  rw [limit]
  exact ⟨of_decide_eq_true, decide_eq_true⟩

/-- What can be read can be written: a numeral within the limit on digits stands
for an integer within it. -/
theorem isWritable_of_signedDigits {text : List Char} {numeral : Decimal}
    (written : SignedDigits text numeral) (short : numeral.digits.length ≤ digitLimit) :
    isWritable numeral.value = true := by
  have all : forall c, c ∈ numeral.digits -> c.isDigit = true := by
    cases written with
    | unsigned _ wellFormed => exact wellFormed.2
    | plus _ wellFormed => exact wellFormed.2
    | minus _ wellFormed => exact wellFormed.2
  have below : Nat.ofDigitChars 10 numeral.digits 0 < Nat.pow 10 numeral.digits.length := by
    have bound := ofDigitChars_lt (fun c member => digit_lt_ten (all c member)) 0
    rwa [Nat.zero_add, Nat.one_mul] at bound
  apply decide_eq_true
  rw [Decimal.value, natAbs_signed]
  exact Nat.lt_of_lt_of_le below (pow_ten_le short)

end Numeral
end NibbleMachine
