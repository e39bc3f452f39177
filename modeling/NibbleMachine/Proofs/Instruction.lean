import NibbleMachine.Proofs.Command
import NibbleMachine.Proofs.Field
import NibbleMachine.Proofs.Numeral
import NibbleMachine.Proofs.Operand
import NibbleMachine.Proofs.Text

namespace NibbleMachine

/-!
# Writing and reading instructions

Two round trips meet here.  An instruction is written as a text from which the
assembler cuts exactly its tokens, so nothing is lost between the disassembler's
punctuation and the assembler's.  And the word packed from the nibbles of a
command is read back as that command, although encoding goes by name and
decoding by number: the numbers of the calculations and of the immediate
commands are all different, and the memory commands are told apart by their
last nibble.
-/

/-! ## Tokens that survive cleaning -/

/-- Whether a character is neither changed nor cut away by cleaning. -/
def isTokenChar (c : Char) : Bool :=
  Text.isSmallAscii c && c != '/' && c != ',' && !Text.isBlank c

/-- A token that cleaning neither changes nor cuts. -/
def IsPlainToken (token : String) : Prop :=
  token.toList ≠ [] ∧ forall c, c ∈ token.toList -> isTokenChar c = true

theorem isPlainToken_of_all {token : String} (nonempty : token.toList ≠ [])
    (all : token.toList.all isTokenChar = true) : IsPlainToken token :=
  ⟨nonempty, List.all_eq_true.mp all⟩

/-- A first token, followed by operands with a comma between them. -/
def writtenTokens : List String -> String
  | [] => ""
  | name :: operands => name ++ " " ++ String.intercalate ", " operands

theorem isTokenChar_iff (c : Char) :
    isTokenChar c = true <->
      Text.isSmallAscii c = true ∧ c ≠ '/' ∧ c ≠ ',' ∧ Text.isBlank c = false := by
  simp [isTokenChar, and_assoc]

theorem map_blankComma_of_plain {token : List Char}
    (plain : forall c, c ∈ token -> isTokenChar c = true) : token.map blankComma = token :=
  map_blankComma_of_commaFree fun c member => ((isTokenChar_iff c).mp (plain c member)).2.2.1

theorem fields_map_blankComma_intercalate (operands : List String)
    (plain : forall token, token ∈ operands -> IsPlainToken token) :
    (Text.fields ((String.intercalate ", " operands).toList.map blankComma)).map String.ofList =
      operands := by
  induction operands with
  | nil => rfl
  | cons first rest inductionHypothesis =>
      have here := plain first List.mem_cons_self
      have solid : forall c, c ∈ first.toList -> Text.isBlank c = false := fun c member =>
        ((isTokenChar_iff c).mp (here.2 c member)).2.2.2
      have later := inductionHypothesis fun token member =>
        plain token (List.mem_cons_of_mem first member)
      rw [String.toList_intercalate] at later ⊢
      cases rest with
      | nil =>
          rw [List.map_cons, List.map_nil, List.intercalate_singleton,
            map_blankComma_of_plain here.2, Text.fields_of_solid here.1 solid]
          simp
      | cons second others =>
          rw [List.map_cons] at later ⊢
          rw [List.map_cons, List.intercalate_cons_cons, List.map_append, List.map_append,
            map_blankComma_of_plain here.2, List.append_assoc]
          -- the comma and the space between two operands are two blanks
          have separator : (", ".toList.map blankComma) = [' ', ' '] := by decide
          rw [separator, List.cons_append, List.cons_append, List.nil_append,
            Text.fields_append_blank _ _ Text.isBlank_space,
            Text.fields_cons_blank _ Text.isBlank_space,
            Text.fields_of_solid here.1 solid, List.map_append, later]
          simp

theorem mem_intercalate {separator : List Char} {texts : List (List Char)} {c : Char}
    (member : c ∈ List.intercalate separator texts) :
    c ∈ separator ∨ Exists fun text => text ∈ texts ∧ c ∈ text := by
  induction texts with
  | nil => exact absurd member List.not_mem_nil
  | cons first rest inductionHypothesis =>
      cases rest with
      | nil =>
          rw [List.intercalate_singleton] at member
          exact Or.inr ⟨first, List.mem_cons_self, member⟩
      | cons second others =>
          rw [List.intercalate_cons_cons, List.append_assoc] at member
          rcases List.mem_append.mp member with inFirst | later
          · exact Or.inr ⟨first, List.mem_cons_self, inFirst⟩
          · rcases List.mem_append.mp later with inSeparator | inRest
            · exact Or.inl inSeparator
            · exact (inductionHypothesis inRest).imp_right fun found =>
                found.imp fun _ listed => ⟨List.mem_cons_of_mem first listed.1, listed.2⟩

/-- A written text is made of token characters, spaces and commas. -/
theorem characters_writtenTokens {tokens : List String}
    (plain : forall token, token ∈ tokens -> IsPlainToken token) {c : Char}
    (member : c ∈ (writtenTokens tokens).toList) :
    isTokenChar c = true ∨ c = ' ' ∨ c = ',' := by
  cases tokens with
  | nil => exact absurd member List.not_mem_nil
  | cons name operands =>
      rw [writtenTokens, String.toList_append, String.toList_append, List.append_assoc] at member
      rcases List.mem_append.mp member with inName | later
      · exact Or.inl ((plain name List.mem_cons_self).2 c inName)
      · rcases List.mem_append.mp later with space | inOperands
        · exact Or.inr (Or.inl (List.mem_singleton.mp space))
        · rw [String.toList_intercalate] at inOperands
          rcases mem_intercalate inOperands with separator | ⟨text, listed, inText⟩
          · have either : c = ',' ∨ c = ' ' := by simpa using separator
            exact Or.inr either.symm
          · rcases List.mem_map.mp listed with ⟨token, isOperand, rfl⟩
            exact Or.inl ((plain token (List.mem_cons_of_mem name isOperand)).2 c inText)

/-- Plain tokens are cut from the text that is written for them. -/
theorem tokensOf_clean_writtenTokens (tokens : List String)
    (plain : forall token, token ∈ tokens -> IsPlainToken token) :
    tokensOf (clean (writtenTokens tokens)) = tokens := by
  cases tokens with
  | nil => decide
  | cons name operands =>
      have here := plain name List.mem_cons_self
      have rest : forall token, token ∈ operands -> IsPlainToken token := fun token member =>
        plain token (List.mem_cons_of_mem name member)
      have solid : forall c, c ∈ name.toList -> Text.isBlank c = false := fun c member =>
        ((isTokenChar_iff c).mp (here.2 c member)).2.2.2
      have kinds := fun c => characters_writtenTokens (c := c) plain
      rw [tokensOf_clean_of_isSettled]
      · rw [writtenTokens, String.toList_append, String.toList_append, List.map_append,
          List.map_append, map_blankComma_of_plain here.2, List.append_assoc]
        have separator : (" ".toList.map blankComma) = [' '] := by decide
        rw [separator, List.cons_append, List.nil_append,
          Text.fields_append_blank _ _ Text.isBlank_space, Text.fields_of_solid here.1 solid,
          List.map_append, fields_map_blankComma_intercalate operands rest]
        simp
      · intro c member
        apply Text.isSettled_of_isSmallAscii
        rcases kinds c member with plainChar | rfl | rfl
        · exact ((isTokenChar_iff c).mp plainChar).1
        · decide
        · decide
      · -- a comment starts with a slash, and no slash is written
        intro comment
        rcases List.mem_map.mp (comment.subset List.mem_cons_self) with ⟨c, member, slash⟩
        rw [blankComma_eq_slash_iff] at slash
        rcases kinds c member with plainChar | rfl | rfl
        · exact ((isTokenChar_iff c).mp plainChar).2.1 slash
        · cases slash
        · cases slash

/-! ## The tokens of an instruction -/

namespace Instruction

def tokens : Instruction -> List String
  | .calculate op target left right =>
      [op.mnemonic, registerText target, registerText left, registerText right]
  | .immediate op target value => [op.mnemonic, registerText target, Numeral.decimal value]
  | .memory op target address =>
      [op.mnemonic, registerText target, "(" ++ registerText address ++ ")"]
  | .data word => [".word", "0b" ++ wordText word]

theorem text_eq_writtenTokens (instruction : Instruction) :
    instruction.text = writtenTokens instruction.tokens := by
  apply String.toList_inj.mp
  cases instruction <;>
    simp [text, tokens, writtenTokens, dataText]

end Instruction

theorem isTokenChar_digitChar : forall value, value < 16 ->
    isTokenChar (Nat.digitChar value) = true := by decide

theorem isTokenChar_of_isHexDigit {c : Char} (digit : Numeral.isHexDigit c = true) :
    isTokenChar c = true := by
  rcases Numeral.exists_hexDigitChar digit with ⟨value, within, rfl⟩
  exact isTokenChar_digitChar value within

theorem isTokenChar_of_isDigit {c : Char} (digit : c.isDigit = true) : isTokenChar c = true := by
  rcases Numeral.exists_digitChar digit with ⟨value, within, rfl⟩
  exact isTokenChar_digitChar value (Nat.lt_trans within (by decide))

theorem isTokenChar_of_mem_toDigits {base number : Nat} (positive : 0 < base) (small : base ≤ 10)
    {c : Char} (member : c ∈ Nat.toDigits base number) : isTokenChar c = true :=
  isTokenChar_of_isDigit (Nat.isDigit_of_mem_toDigits positive small member)

theorem isPlainToken_registerText (nibble : Nibble) :
    IsPlainToken (Instruction.registerText nibble) := by
  rw [IsPlainToken, registerText_toList]
  refine ⟨List.cons_ne_nil _ _, ?_⟩
  intro c member
  rcases List.mem_cons.mp member with rfl | digit
  · decide
  · exact isTokenChar_of_mem_toDigits (by decide) (by decide) digit

theorem isPlainToken_decimal (value : Int) : IsPlainToken (Numeral.decimal value) := by
  rw [IsPlainToken, Numeral.decimal, String.toList_ofList]
  cases value with
  | ofNat number =>
      exact ⟨Nat.toDigits_ne_nil, fun c member =>
        isTokenChar_of_mem_toDigits (by decide) (by decide) member⟩
  | negSucc number =>
      refine ⟨List.cons_ne_nil _ _, ?_⟩
      intro c member
      rcases List.mem_cons.mp member with rfl | digit
      · decide
      · exact isTokenChar_of_mem_toDigits (by decide) (by decide) digit

/-- A numeral that is read is a plain token. -/
theorem isPlainToken_of_read {token : String} {value : Int}
    (reads : Numeral.read token = .ok value) : IsPlainToken token := by
  have written := (Numeral.read_eq_ok_iff token value).mp reads
  rw [IsPlainToken]
  generalize token.toList = characters at written
  cases written with
  | decimal _ numeral signed =>
      cases signed with
      | unsigned _ digits =>
          exact ⟨digits.1, fun c member => isTokenChar_of_isDigit (digits.2 c member)⟩
      | plus rest digits =>
          refine ⟨List.cons_ne_nil _ _, ?_⟩
          intro c member
          rcases List.mem_cons.mp member with rfl | inRest
          · decide
          · exact isTokenChar_of_isDigit (digits.2 c inRest)
      | minus rest digits =>
          refine ⟨List.cons_ne_nil _ _, ?_⟩
          intro c member
          rcases List.mem_cons.mp member with rfl | inRest
          · decide
          · exact isTokenChar_of_isDigit (digits.2 c inRest)
  | hexadecimal digits _ all =>
      refine ⟨List.cons_ne_nil _ _, ?_⟩
      intro c member
      simp only [List.mem_cons] at member
      rcases member with rfl | rfl | inDigits
      · decide
      · decide
      · exact isTokenChar_of_isHexDigit (all c inDigits)

theorem IsPlainToken.append {first second : String} (plainFirst : IsPlainToken first)
    (plainSecond : IsPlainToken second) : IsPlainToken (first ++ second) := by
  rw [IsPlainToken, String.toList_append]
  refine ⟨by simp [plainFirst.1], ?_⟩
  intro c member
  rcases List.mem_append.mp member with inFirst | inSecond
  · exact plainFirst.2 c inFirst
  · exact plainSecond.2 c inSecond

theorem isPlainToken_bracketed (nibble : Nibble) :
    IsPlainToken ("(" ++ Instruction.registerText nibble ++ ")") := by
  have opening : IsPlainToken "(" := isPlainToken_of_all (by decide) (by decide)
  have closing : IsPlainToken ")" := isPlainToken_of_all (by decide) (by decide)
  exact (opening.append (isPlainToken_registerText nibble)).append closing

theorem isPlainToken_wordText (word : Int) : IsPlainToken (wordText word) := by
  rw [IsPlainToken, wordText, Numeral.binary, String.toList_ofList, Numeral.binaryDigits]
  split
  · refine ⟨List.cons_ne_nil _ _, ?_⟩
    intro c member
    rcases List.mem_cons.mp member with rfl | later
    · decide
    · rcases List.mem_append.mp later with filled | digit
      · rw [List.eq_of_mem_replicate filled]
        decide
      · exact isTokenChar_of_mem_toDigits (by decide) (by decide) digit
  · refine ⟨by simp, ?_⟩
    intro c member
    rcases List.mem_append.mp member with filled | digit
    · rw [List.eq_of_mem_replicate filled]
      decide
    · exact isTokenChar_of_mem_toDigits (by decide) (by decide) digit

theorem CalcOp.isPlainToken_mnemonic (op : CalcOp) : IsPlainToken op.mnemonic := by
  cases op <;> exact isPlainToken_of_all (by decide) (by decide)

theorem ImmOp.isPlainToken_mnemonic (op : ImmOp) : IsPlainToken op.mnemonic := by
  cases op <;> exact isPlainToken_of_all (by decide) (by decide)

theorem MemOp.isPlainToken_mnemonic (op : MemOp) : IsPlainToken op.mnemonic := by
  cases op <;> exact isPlainToken_of_all (by decide) (by decide)

theorem Command.isPlainToken_mnemonic (command : Command) : IsPlainToken command.mnemonic := by
  cases command with
  | calculate op => exact op.isPlainToken_mnemonic
  | immediate op => exact op.isPlainToken_mnemonic
  | memory op => exact op.isPlainToken_mnemonic
  | loadAddress => exact isPlainToken_of_all (by decide) (by decide)

theorem Instruction.isPlainToken_of_mem_tokens (instruction : Instruction) :
    forall token, token ∈ instruction.tokens -> IsPlainToken token := by
  have mark : IsPlainToken "0b" := isPlainToken_of_all (by decide) (by decide)
  have directive : IsPlainToken ".word" := isPlainToken_of_all (by decide) (by decide)
  cases instruction with
  | calculate op target left right =>
      simp [tokens, CalcOp.isPlainToken_mnemonic, isPlainToken_registerText]
  | immediate op target value =>
      simp [tokens, ImmOp.isPlainToken_mnemonic, isPlainToken_registerText, isPlainToken_decimal]
  | memory op target address =>
      simp [tokens, MemOp.isPlainToken_mnemonic, isPlainToken_registerText,
        isPlainToken_bracketed]
  | data word =>
      have digits := mark.append (isPlainToken_wordText word)
      simp [tokens, directive, digits]

/-- The assembler cuts the text of an instruction into the tokens of that
instruction. -/
theorem Instruction.tokensOf_clean_text (instruction : Instruction) :
    tokensOf (clean instruction.text) = instruction.tokens := by
  rw [Instruction.text_eq_writtenTokens]
  exact tokensOf_clean_writtenTokens _ instruction.isPlainToken_of_mem_tokens

/-! ## Decoding -/

theorem decode_calculate (op : CalcOp) (target left right : Nibble) :
    Instruction.decode (Nibbles.mk op.opcode target left right).word =
      .calculate op target left right := by
  unfold Instruction.decode
  rw [Nibbles.ofWord_word]
  dsimp only
  rw [if_neg op.opcode_ne_memory, CalcOp.ofOpcode?_opcode]

theorem decode_memory (op : MemOp) (target address : Nibble) :
    Instruction.decode (Nibbles.mk MemOp.opcode target address op.function).word =
      .memory op target address := by
  unfold Instruction.decode
  rw [Nibbles.ofWord_word]
  dsimp only
  rw [if_pos rfl, MemOp.ofFunction?_function]

/-- The last byte of a word of a signed byte is that byte. -/
theorem signedByte_byteCommand (opcode target : Nibble) {value : Int} (least : -128 ≤ value)
    (greatest : value ≤ 127) : signedByte (byteCommand opcode target value).word = value := by
  have lastByte : (byteCommand opcode target value).word % 256 = value % 256 := by
    rw [Nibbles.word_eq]
    simp only [byteCommand, byteNibbles, nibbleAt]
    omega
  rw [signedByte, lastByte]
  split
  · omega
  · omega

theorem decode_immediate (op : ImmOp) (target : Nibble) {value : Int} (least : -128 ≤ value)
    (greatest : value ≤ 127) :
    Instruction.decode (byteCommand op.opcode target value).word =
      .immediate op target value := by
  have command : (byteCommand op.opcode target value).command = op.opcode := rfl
  have notMemory : (byteCommand op.opcode target value).command ≠ MemOp.opcode :=
    op.opcode_ne_memory
  unfold Instruction.decode
  rw [Nibbles.ofWord_word, signedByte_byteCommand _ _ least greatest]
  dsimp only
  rw [if_neg notMemory, command, ImmOp.ofOpcode?_calculation, ImmOp.ofOpcode?_opcode]
  rfl

/-- A signed byte is an immediate. -/
theorem immediateOperand_signedByte (value : Int) :
    immediateOperand (Numeral.decimal (signedByte value)) = .ok (signedByte value, []) := by
  have bounds := signedByte_bounds value
  apply (immediateOperand_eq_clear_iff _ _).mpr
  exact ⟨Numeral.read_decimal (Numeral.isWritable_of_signedByte bounds.1 bounds.2), bounds⟩

/-- The nibbles of an integer make up its lowest sixteen bits. -/
theorem Nibbles.word_ofWord_eq_emod (word : Int) : (Nibbles.ofWord word).word = word % 65536 := by
  rw [Nibbles.word_eq]
  simp only [Nibbles.ofWord, nibbleAt]
  omega

theorem Nibbles.word_ofWord {word : Int} (bounds : 0 ≤ word ∧ word < 65536) :
    (Nibbles.ofWord word).word = word := by
  rw [Nibbles.word_ofWord_eq_emod]
  exact Int.emod_eq_of_lt bounds.1 bounds.2

theorem byteNibbles_signedByte (word : Int) :
    byteNibbles (signedByte word) = byteNibbles word := by
  apply byteNibbles_congr
  unfold signedByte
  split
  · omega
  · omega

/-! ## What a reading says of the word -/

/-- The readings of a word, each with the nibbles that it was read from. -/
inductive DecodedAs (word : Int) : Instruction -> Prop
  | calculate (op : CalcOp) (target left right : Nibble)
      (nibbles : Nibbles.ofWord word = ⟨op.opcode, target, left, right⟩) :
      DecodedAs word (.calculate op target left right)
  | immediate (op : ImmOp) (target : Nibble)
      (nibbles : Nibbles.ofWord word = byteCommand op.opcode target (signedByte word)) :
      DecodedAs word (.immediate op target (signedByte word))
  | memory (op : MemOp) (target address : Nibble)
      (nibbles : Nibbles.ofWord word = ⟨MemOp.opcode, target, address, op.function⟩) :
      DecodedAs word (.memory op target address)
  | data : DecodedAs word (.data word)

theorem decodedAs_decode (word : Int) : DecodedAs word (Instruction.decode word) := by
  unfold Instruction.decode
  dsimp only
  split
  · next selected =>
      split
      · next op found =>
          apply DecodedAs.memory
          rw [(MemOp.ofFunction?_eq_some_iff _ _).mp found, ← selected]
      · exact .data
  · split
    · next op _ found =>
        apply DecodedAs.calculate
        rw [(CalcOp.ofOpcode?_eq_some_iff _ _).mp found]
    · next op found =>
        apply DecodedAs.immediate
        rw [byteCommand, byteNibbles_signedByte, (ImmOp.ofOpcode?_eq_some_iff _ _).mp found]
        rfl
    · exact .data

section

variable {word : Int} {target : Nibble}

/-- Reading a calculation uses all nibbles of the word. -/
theorem ofWord_of_decode_calculate {op : CalcOp} {left right : Nibble}
    (decoded : Instruction.decode word = .calculate op target left right) :
    Nibbles.ofWord word = ⟨op.opcode, target, left, right⟩ := by
  have reading := decodedAs_decode word
  rw [decoded] at reading
  cases reading with
  | calculate _ _ _ _ nibbles => exact nibbles

/-- Reading an immediate command takes the last byte as signed. -/
theorem ofWord_of_decode_immediate {op : ImmOp} {value : Int}
    (decoded : Instruction.decode word = .immediate op target value) :
    value = signedByte word ∧ Nibbles.ofWord word = byteCommand op.opcode target value := by
  have reading := decodedAs_decode word
  rw [decoded] at reading
  cases reading with
  | immediate _ _ nibbles => exact ⟨rfl, nibbles⟩

/-- Reading a memory command takes the last nibble as its function. -/
theorem ofWord_of_decode_memory {op : MemOp} {address : Nibble}
    (decoded : Instruction.decode word = .memory op target address) :
    Nibbles.ofWord word = ⟨MemOp.opcode, target, address, op.function⟩ := by
  have reading := decodedAs_decode word
  rw [decoded] at reading
  cases reading with
  | memory _ _ _ nibbles => exact nibbles

/-- Data shows its word. -/
theorem eq_of_decode_data {shown : Int} (decoded : Instruction.decode word = .data shown) :
    word = shown := by
  have reading := decodedAs_decode word
  rw [decoded] at reading
  cases reading with
  | data => rfl

end

end NibbleMachine
