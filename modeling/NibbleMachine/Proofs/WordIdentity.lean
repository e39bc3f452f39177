import NibbleMachine.Instruction.Record
import NibbleMachine.Proofs.RoundTrip

namespace NibbleMachine

/-!
# What a disassembly tells of a word

The text of a word names the word up to multiples of the word size.  Three steps lead back
from the text.  The tokens are cut from it; they tell the instruction, because the first
token decides the form and the command, and registers, immediates and binary words are
written so that no two look alike; and the instruction tells the nibbles of the word.
Only plain data shows the word itself, of whatever size and sign.

The other direction holds for commands alone.  A word read as a command is read by its
nibbles, which a multiple of the word size does not change.  Data keeps its word.
-/

/-! ## Numerals that look alike -/

namespace Numeral

theorem decimal_injective {first second : Int} (same : decimal first = decimal second) :
    first = second := by
  have digits : decimalDigits first = decimalDigits second := String.ofList_injective same
  have values := value_of_decimalDigits first
  rw [digits, value_of_decimalDigits second] at values
  exact (Option.some.inj values).symm

/-- A filled binary text is a sign and digits of the magnitude behind zeros. -/
theorem splitSign_binaryDigits (width : Nat) (value : Int) :
    Exists fun zeros => splitSign (binaryDigits width value) =
      (decide (value < 0), List.replicate zeros '0' ++ Nat.toDigits 2 value.natAbs) := by
  unfold binaryDigits
  split
  · next negative =>
      rw [decide_eq_true negative]
      exact ⟨_, rfl⟩
  · next nonnegative =>
      rw [decide_eq_false nonnegative]
      refine ⟨_, splitSign_of_isDigits ⟨by simp, ?_⟩⟩
      intro c member
      rcases List.mem_append.mp member with zero | digit
      · rw [List.eq_of_mem_replicate zero]
        decide
      · exact Nat.isDigit_of_mem_toDigits (by decide) (by decide) digit

theorem ofBinaryDigits_filled (zeros magnitude : Nat) :
    ofBinaryDigits (List.replicate zeros '0' ++ Nat.toDigits 2 magnitude) = magnitude := by
  simp [ofBinaryDigits, Nat.ofDigitChars_append, Nat.ofDigitChars_replicate_zero,
    Nat.ofDigitChars_toDigits]

theorem binary_injective {width : Nat} {first second : Int}
    (same : binary width first = binary width second) : first = second := by
  have digits : binaryDigits width first = binaryDigits width second :=
    String.ofList_injective same
  rcases splitSign_binaryDigits width first with ⟨zeros, split⟩
  rcases splitSign_binaryDigits width second with ⟨otherZeros, otherSplit⟩
  rw [digits, otherSplit, Prod.mk.injEq, decide_eq_decide] at split
  have magnitudes := congrArg ofBinaryDigits split.2
  rw [ofBinaryDigits_filled, ofBinaryDigits_filled] at magnitudes
  omega

end Numeral

/-! ## Instructions that look alike -/

namespace Instruction

def command? : Instruction -> Option Command
  | .calculate op _ _ _ => some (.calculate op)
  | .immediate op _ _ => some (.immediate op)
  | .memory op _ _ => some (.memory op)
  | .data _ => none

/-- The first token tells the command. -/
theorem ofMnemonic?_head (instruction : Instruction) :
    instruction.tokens.head?.bind Command.ofMnemonic? = instruction.command? := by
  cases instruction with
  | calculate op target left right => exact Command.ofMnemonic?_mnemonic (.calculate op)
  | immediate op target value => exact Command.ofMnemonic?_mnemonic (.immediate op)
  | memory op target address => exact Command.ofMnemonic?_mnemonic (.memory op)
  | data word =>
      change Command.ofMnemonic? ".word" = none
      decide

/-- The tokens tell the instruction. -/
theorem tokens_injective {first second : Instruction} (same : first.tokens = second.tokens) :
    first = second := by
  have commands : first.command? = second.command? := by
    rw [← first.ofMnemonic?_head, same, second.ofMnemonic?_head]
  cases first with
  | calculate op target left right =>
      cases second with
      | calculate other otherTarget otherLeft otherRight =>
          cases commands
          simp only [tokens, List.cons.injEq, true_and, and_true] at same
          rw [registerText_injective _ _ same.1, registerText_injective _ _ same.2.1,
            registerText_injective _ _ same.2.2]
      | immediate | memory | data => cases commands
  | immediate op target value =>
      cases second with
      | immediate other otherTarget otherValue =>
          cases commands
          simp only [tokens, List.cons.injEq, true_and, and_true] at same
          rw [registerText_injective _ _ same.1, Numeral.decimal_injective same.2]
      | calculate | memory | data => cases commands
  | memory op target address =>
      cases second with
      | memory other otherTarget otherAddress =>
          cases commands
          simp only [tokens, List.cons.injEq, true_and, and_true, String.append_left_inj,
            String.append_right_inj] at same
          rw [registerText_injective _ _ same.1, registerText_injective _ _ same.2]
      | calculate | immediate | data => cases commands
  | data word =>
      cases second with
      | data other =>
          simp only [tokens, List.cons.injEq, true_and, and_true, String.append_right_inj] at same
          rw [Numeral.binary_injective same]
      | calculate | immediate | memory => cases commands

/-- The text tells the instruction. -/
theorem text_injective {first second : Instruction} (same : first.text = second.text) :
    first = second := by
  apply tokens_injective
  rw [← first.tokensOf_clean_text, same, second.tokensOf_clean_text]

end Instruction

/-! ## Words that are read alike -/

/-- Words with the same reading have the same nibbles. -/
theorem ofWord_of_decode_eq {first second : Int}
    (same : Instruction.decode first = Instruction.decode second) :
    Nibbles.ofWord first = Nibbles.ofWord second := by
  cases decoded : Instruction.decode second with
  | calculate op target left right =>
      rw [ofWord_of_decode_calculate decoded, ofWord_of_decode_calculate (same.trans decoded)]
  | immediate op target value =>
      rw [(ofWord_of_decode_immediate decoded).2,
        (ofWord_of_decode_immediate (same.trans decoded)).2]
  | memory op target address =>
      rw [ofWord_of_decode_memory decoded, ofWord_of_decode_memory (same.trans decoded)]
  | data shown => rw [eq_of_decode_data decoded, eq_of_decode_data (same.trans decoded)]

/-- The nibbles of an integer are those of its lowest sixteen bits. -/
theorem Nibbles.ofWord_eq_iff (first second : Int) :
    Nibbles.ofWord first = Nibbles.ofWord second <-> first % 65536 = second % 65536 := by
  constructor
  · intro same
    rw [← Nibbles.word_ofWord_eq_emod, same, Nibbles.word_ofWord_eq_emod]
  · intro congruent
    rw [← Nibbles.ofWord_word (Nibbles.ofWord first), Nibbles.word_ofWord_eq_emod, congruent,
      ← Nibbles.word_ofWord_eq_emod, Nibbles.ofWord_word]

/-- Congruent words are read alike, unless both are data. -/
theorem decode_of_congruent {first second : Int} (congruent : first % 65536 = second % 65536) :
    Instruction.decode first = Instruction.decode second ∨
      Instruction.decode second = .data second := by
  have nibbles := (Nibbles.ofWord_eq_iff first second).mpr congruent
  have bytes : signedByte first = signedByte second := by
    have lastBytes : first % 256 = second % 256 := by omega
    rw [signedByte, signedByte, lastBytes]
  unfold Instruction.decode
  rw [nibbles, bytes]
  dsimp only
  split
  · split
    · exact Or.inl rfl
    · exact Or.inr rfl
  · split
    · exact Or.inl rfl
    · exact Or.inl rfl
    · exact Or.inr rfl

/-- A disassembly names its word up to multiples of the word size: integers of any size and
sign that have the same text are congruent.  And a word that is read as a command is read in
the same way, with the same nibbles and the same text, when any multiple of the word size is
added to it. -/
theorem disassembly_identifies_word :
    (forall first second : Int, disassemble first = disassemble second ->
      first % 65536 = second % 65536) ∧
      forall word : Int,
        (Instruction.decode word).record.mnemonic ≠ some InstructionRecord.unknown ->
          forall multiple : Int,
            Instruction.decode (word + 65536 * multiple) = Instruction.decode word ∧
              Nibbles.ofWord (word + 65536 * multiple) = Nibbles.ofWord word ∧
              disassemble (word + 65536 * multiple) = disassemble word := by
  constructor
  · intro first second same
    exact (Nibbles.ofWord_eq_iff first second).mp
      (ofWord_of_decode_eq (Instruction.text_injective same))
  · intro word known multiple
    have congruent : (word + 65536 * multiple) % 65536 = word % 65536 :=
      Int.add_mul_emod_self_left word 65536 multiple
    have decoded : Instruction.decode (word + 65536 * multiple) = Instruction.decode word := by
      rcases decode_of_congruent congruent with same | data
      · exact same
      · rw [data] at known
        exact absurd rfl known
    exact ⟨decoded, ofWord_of_decode_eq decoded, congrArg Instruction.text decoded⟩

/-- A memory command on registers that the machine does not have, three word sizes below, and
the word of ones only, seven word sizes below. -/
theorem disassembly_identifies_word_of_samples :
    disassemble (0x5F31 - 65536 * 3) = disassemble 0x5F31 ∧
      (0x5F31 - 65536 * 3 : Int) % 65536 = 0x5F31 % 65536 ∧
      Instruction.decode (-1 + 65536 * -7) = .immediate .andi 15 (-1) ∧
      disassemble (-1 + 65536 * -7) = "andi r15, -1" := by
  have same : disassemble (0x5F31 - 65536 * 3) = disassemble 0x5F31 := by decide +kernel
  have alike := disassembly_identifies_word.2 (-1) (by decide) (-7)
  refine ⟨same, disassembly_identifies_word.1 _ _ same, ?_, ?_⟩
  · rw [alike.1]
    decide
  · rw [alike.2.2]
    decide +kernel

end NibbleMachine
