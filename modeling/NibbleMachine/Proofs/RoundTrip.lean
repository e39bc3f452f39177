import NibbleMachine.Proofs.Program

namespace NibbleMachine

/-!
# Assembling a disassembly

A list of words that fits into an image is disassembled line by line and the
lines are assembled again.  This always returns, because no line of a
disassembly loads an address and every immediate in it is a signed byte.  It
goes without a problem exactly when every word is read as a command on
registers that the machine has, and then the words are back at the start of the
image.  The two kinds of words for which it does not work stay visible: data is
no command of the source language, and a nibble above seven is written as a
register that the assembler refuses.

A disassembly holds no directive, so no symbol is replaced in it and its entries
are the tokens of its instructions.
-/

namespace Instruction

/-- The instructions on registers that the machine has. -/
def IsAssemblable : Instruction -> Prop
  | .calculate _ target left right => target.val ≤ 7 ∧ left.val ≤ 7 ∧ right.val ≤ 7
  | .immediate _ target _ => target.val ≤ 7
  | .memory _ target address => target.val ≤ 7 ∧ address.val ≤ 7
  | .data _ => False

/-- The order that the text of an instruction stands for; data has none. -/
def order? : Instruction -> Option Order
  | .calculate op target left right =>
      some ⟨.calculate op, [registerText target, registerText left, registerText right]⟩
  | .immediate op target value =>
      some ⟨.immediate op, [registerText target, Numeral.decimal value]⟩
  | .memory op target address =>
      some ⟨.memory op, [registerText target, "(" ++ registerText address ++ ")"]⟩
  | .data _ => none

theorem orderOf_data (operands : List String) :
    orderOf (".word" :: operands) = .error .unknownCommand := by
  have noAbbreviation : Abbreviation.ofMnemonic? ".word" = none := by decide
  have noCommand : Command.ofMnemonic? ".word" = none := by decide
  simp only [orderOf, namedOrder, noAbbreviation, noCommand]

theorem orderOf_tokens_eq_ok_iff (instruction : Instruction) (order : Order) :
    orderOf instruction.tokens = .ok order <-> instruction.order? = some order := by
  have named : forall other : Order, instruction.tokens = other.tokens ->
      instruction.order? = some other ->
        (orderOf instruction.tokens = .ok order <-> instruction.order? = some order) := by
    intro other tokens ordered
    rw [tokens, ordered, orderOf_tokens, Except.ok.injEq, Option.some.injEq]
  cases instruction with
  | calculate op target left right => exact named _ rfl rfl
  | immediate op target value => exact named _ rfl rfl
  | memory op target address => exact named _ rfl rfl
  | data word =>
      rw [tokens, orderOf_data]
      constructor
      · intro refused
        cases refused
      · intro missing
        cases missing

/-- No instruction opens a directive. -/
theorem opens_tokens (instruction : Instruction) (directive : Directive) :
    directive.opens instruction.tokens = false := by
  have apart : forall name rest, name ≠ directive.keyword ->
      directive.opens (name :: rest) = false := by
    intro name rest different
    simp [Directive.opens, different]
  cases instruction with
  | calculate op target left right =>
      exact apart _ _ (Command.mnemonic_ne_keyword (.calculate op) directive)
  | immediate op target value =>
      exact apart _ _ (Command.mnemonic_ne_keyword (.immediate op) directive)
  | memory op target address =>
      exact apart _ _ (Command.mnemonic_ne_keyword (.memory op) directive)
  | data word => exact apart _ _ (by cases directive <;> decide)

theorem registerText_injective (first second : Nibble)
    (same : registerText first = registerText second) : first = second := by
  revert first second
  decide +kernel

/-- A nibble is written as a register of the machine when it is at most seven. -/
theorem registerText_eq_iff (nibble : Nibble) :
    (Exists fun register : Register => registerText nibble = registerText register.toNibble) <->
      nibble.val ≤ 7 := by
  constructor
  · rintro ⟨register, same⟩
    rw [registerText_injective _ _ same]
    exact Nat.le_of_lt_succ register.isLt
  · intro small
    exact ⟨⟨nibble.val, Nat.lt_succ_of_le small⟩, rfl⟩

end Instruction

/-! ## Encoding what was decoded -/

theorem immediateOperand_of_decode {word : Int} {op : ImmOp} {target : Nibble} {value : Int}
    (decoded : Instruction.decode word = .immediate op target value) :
    immediateOperand (Numeral.decimal value) = .ok (value, []) := by
  rcases ofWord_of_decode_immediate decoded with ⟨rfl, -⟩
  exact immediateOperand_signedByte word

/-- The order of a word that was read is encoded, with or without problems. -/
theorem exists_encodeOrder_of_decode (lines : List Line) {word : Int} {order : Order}
    (ordered : (Instruction.decode word).order? = some order) :
    Exists fun encoding => encodeOrder lines order = .ok encoding := by
  cases decoded : Instruction.decode word with
  | calculate op target left right =>
      rw [decoded] at ordered
      cases ordered
      exact ⟨_, rfl⟩
  | immediate op target value =>
      rw [decoded] at ordered
      cases ordered
      exact ⟨_, encodeOrder_of_encodedAs
        (.immediate op _ _ value [] (immediateOperand_of_decode decoded))⟩
  | memory op target address =>
      rw [decoded] at ordered
      cases ordered
      exact ⟨_, rfl⟩
  | data data =>
      rw [decoded] at ordered
      cases ordered

/-- An instruction on registers of the machine is encoded as the word it was read
from. -/
theorem clear_of_isAssemblable (lines : List Line) {word : Int}
    (assemblable : (Instruction.decode word).IsAssemblable) :
    Exists fun order =>
      (Instruction.decode word).order? = some order ∧
        ClearEncoding lines order ⟨some (Nibbles.ofWord word), [], none⟩ := by
  cases decoded : Instruction.decode word with
  | calculate op target left right =>
      rw [decoded] at assemblable
      rw [ofWord_of_decode_calculate decoded]
      exact ⟨_, rfl, .calculate op ⟨target.val, Nat.lt_succ_of_le assemblable.1⟩
        ⟨left.val, Nat.lt_succ_of_le assemblable.2.1⟩
        ⟨right.val, Nat.lt_succ_of_le assemblable.2.2⟩⟩
  | immediate op target value =>
      rw [decoded] at assemblable
      rw [(ofWord_of_decode_immediate decoded).2]
      exact ⟨_, rfl, .immediate op ⟨target.val, Nat.lt_succ_of_le assemblable⟩ _ value
        (immediateOperand_of_decode decoded)⟩
  | memory op target address =>
      rw [decoded] at assemblable
      rw [ofWord_of_decode_memory decoded]
      exact ⟨_, rfl, .memory op ⟨target.val, Nat.lt_succ_of_le assemblable.1⟩
        ⟨address.val, Nat.lt_succ_of_le assemblable.2⟩⟩
  | data data =>
      rw [decoded] at assemblable
      cases assemblable

/-- Only instructions on registers of the machine are encoded without a
problem. -/
theorem isAssemblable_of_clear {lines : List Line} {instruction : Instruction} {order : Order}
    {encoding : Encoding} (ordered : instruction.order? = some order)
    (clear : ClearEncoding lines order encoding) : instruction.IsAssemblable := by
  have register := fun nibble => (Instruction.registerText_eq_iff nibble).mp
  cases instruction with
  | calculate op target left right =>
      cases clear with
      | calculate _ first second third =>
          simp only [Instruction.order?, Option.some.injEq, Order.mk.injEq, List.cons.injEq]
            at ordered
          rcases ordered with ⟨-, sameTarget, sameLeft, sameRight, -⟩
          exact ⟨register target ⟨first, sameTarget⟩, register left ⟨second, sameLeft⟩,
            register right ⟨third, sameRight⟩⟩
      | _ => simp [Instruction.order?] at ordered
  | immediate op target value =>
      cases clear with
      | immediate _ first =>
          simp only [Instruction.order?, Option.some.injEq, Order.mk.injEq, List.cons.injEq]
            at ordered
          exact register target ⟨first, ordered.2.1⟩
      | _ => simp [Instruction.order?] at ordered
  | memory op target address =>
      cases clear with
      | memory _ first second =>
          simp only [Instruction.order?, Option.some.injEq, Order.mk.injEq, List.cons.injEq,
            memoryText, String.append_left_inj, String.append_right_inj] at ordered
          rcases ordered with ⟨-, sameTarget, sameAddress, -⟩
          exact ⟨register target ⟨first, sameTarget⟩, register address ⟨second, sameAddress⟩⟩
      | _ => simp [Instruction.order?] at ordered
  | data word => cases ordered

/-! ## The text of a disassembly -/

/-- Words disassembled one to a line. -/
def disassembly (words : List Int) : String :=
  String.intercalate "\n" (words.map disassemble)

/-- The text of an instruction is one line. -/
theorem Instruction.solid_text (instruction : Instruction) :
    instruction.text.toList ≠ [] ∧
      forall c, c ∈ instruction.text.toList -> c ≠ '\r' ∧ c ≠ '\n' := by
  rw [Instruction.text_eq_writtenTokens]
  constructor
  · cases instruction <;> simp [tokens, writtenTokens]
  · intro c member
    rcases characters_writtenTokens instruction.isPlainToken_of_mem_tokens member with
      tokenChar | rfl | rfl
    · constructor
      · rintro rfl
        exact absurd tokenChar (by decide)
      · rintro rfl
        exact absurd tokenChar (by decide)
    · decide
    · decide

theorem lines_disassembly (words : List Int) :
    Text.lines (disassembly words).toList = words.map fun word => (disassemble word).toList := by
  have separator : "\n".toList = ['\n'] := by decide
  rw [disassembly, String.toList_intercalate, separator, List.map_map]
  apply Text.lines_intercalate
  intro text member
  rcases List.mem_map.mp member with ⟨word, -, rfl⟩
  exact (Instruction.decode word).solid_text

theorem sourceEntries_disassembly (words : List Int) :
    sourceEntries (disassembly words) = (words.zipIdx 1).map fun numbered =>
      ⟨numbered.2, (Instruction.decode numbered.1).tokens⟩ := by
  apply sourceEntries_of_rows disassemble (fun word => (Instruction.decode word).tokens) _ _
    (lines_disassembly words)
  · exact fun word _ => (Instruction.decode word).tokensOf_clean_text
  · intro word _
    cases Instruction.decode word <;> exact List.cons_ne_nil _ _

theorem map_tokens_sourceEntries (words : List Int) :
    (sourceEntries (disassembly words)).map Entry.tokens =
      words.map fun word => (Instruction.decode word).tokens := by
  have forgets := congrArg (List.map fun word => (Instruction.decode word).tokens)
    (List.zipIdx_map_fst 1 words)
  rw [List.map_map] at forgets
  rw [sourceEntries_disassembly, List.map_map]
  exact forgets

/-- No line of a disassembly is a directive. -/
theorem unopened_disassembly {words : List Int} (directive : Directive) (entry : Entry)
    (member : entry ∈ sourceEntries (disassembly words)) :
    directive.opens entry.tokens = false := by
  rw [sourceEntries_disassembly] at member
  rcases List.mem_map.mp member with ⟨numbered, -, rfl⟩
  exact (Instruction.decode numbered.1).opens_tokens directive

theorem commandEntries_disassembly (words : List Int) :
    commandEntries (disassembly words) = sourceEntries (disassembly words) :=
  commandEntries_of_unopened unopened_disassembly

/-! ## The round trip -/

section

variable {words : List Int}

theorem exists_word_of_mem_sourceEntries {entry : Entry}
    (member : entry ∈ sourceEntries (disassembly words)) :
    Exists fun word => word ∈ words ∧ entry.tokens = (Instruction.decode word).tokens := by
  rw [sourceEntries_disassembly] at member
  rcases List.mem_map.mp member with ⟨numbered, listed, rfl⟩
  exact ⟨numbered.1, List.fst_mem_of_mem_zipIdx listed, rfl⟩

theorem exists_entry_of_mem_words {word : Int} (member : word ∈ words) :
    Exists fun entry =>
      entry ∈ sourceEntries (disassembly words) ∧
        entry.tokens = (Instruction.decode word).tokens := by
  have listed := List.mem_map_of_mem (f := fun word => (Instruction.decode word).tokens) member
  rw [← map_tokens_sourceEntries] at listed
  exact List.mem_map.mp listed

theorem exists_assembly_disassembly (words : List Int) :
    Exists fun assembly => assemble (disassembly words) = .ok assembly := by
  apply (exists_assembly_iff _).mpr
  intro entry order member ordered
  rw [commandEntries_disassembly] at member
  rcases exists_word_of_mem_sourceEntries member with ⟨word, -, tokens⟩
  rw [tokens, Instruction.orderOf_tokens_eq_ok_iff] at ordered
  exact exists_encodeOrder_of_decode _ ordered

/-- A disassembly is assembled without findings exactly when all its instructions
are on registers of the machine. -/
theorem findings_disassembly_eq_nil_iff {assembly : Assembly} (short : words.length ≤ 256)
    (returned : assemble (disassembly words) = .ok assembly) :
    assembly.findings = [] <->
      forall word, word ∈ words -> (Instruction.decode word).IsAssemblable := by
  rw [findings_eq_nil_iff_of_unopened unopened_disassembly returned]
  constructor
  · rintro ⟨commands, -⟩ word member
    rcases exists_entry_of_mem_words member with ⟨entry, listed, tokens⟩
    rcases commands entry listed with ⟨order, encoding, ordered, clear⟩
    rw [tokens, Instruction.orderOf_tokens_eq_ok_iff] at ordered
    exact isAssemblable_of_clear ordered clear
  · intro assemblable
    constructor
    · intro entry member
      rcases exists_word_of_mem_sourceEntries member with ⟨word, inWords, tokens⟩
      rcases clear_of_isAssemblable (placedLines (disassembly words))
        (assemblable word inWords) with ⟨order, ordered, clear⟩
      rw [tokens]
      exact ⟨order, _, (Instruction.orderOf_tokens_eq_ok_iff _ _).mpr ordered, clear⟩
    · rw [sourceEntries_disassembly, List.length_map, List.length_zipIdx]
      exact short

theorem orderWord_of_clear {lines : List Line} {order : Order} {nibbles : Nibbles}
    (clear : ClearEncoding lines order ⟨some nibbles, [], none⟩) :
    orderWord lines order = nibbles.word := by
  rw [orderWord, encodeOrder_of_clear clear]
  rfl

/-- The orders of a disassembly are encoded as the words that were
disassembled. -/
theorem map_orderWord_commandOrders (lines : List Line)
    (bounds : forall word, word ∈ words -> 0 ≤ word ∧ word < 65536)
    (assemblable : forall word, word ∈ words -> (Instruction.decode word).IsAssemblable) :
    (commandOrders (disassembly words)).map (orderWord lines) = words := by
  let read (tokens : List String) : Option Order := (orderOf tokens).toOption
  have orders : commandOrders (disassembly words) =
      words.filterMap fun word => read (Instruction.decode word).tokens := by
    have onTokens := List.filterMap_map (f := Entry.tokens) (g := read)
      (l := commandEntries (disassembly words))
    rw [commandEntries_disassembly, map_tokens_sourceEntries, List.filterMap_map] at onTokens
    rw [commandOrders, commandEntries_disassembly]
    exact onTokens.symm
  have back : forall word, word ∈ words ->
      (read (Instruction.decode word).tokens).map (orderWord lines) = some word := by
    intro word member
    rcases clear_of_isAssemblable lines (assemblable word member) with ⟨order, ordered, clear⟩
    have own := (Instruction.orderOf_tokens_eq_ok_iff _ _).mpr ordered
    simp only [read, own, Except.toOption, Option.map_some]
    rw [orderWord_of_clear clear, Nibbles.word_ofWord (bounds word member)]
  rw [orders, List.map_filterMap, List.filterMap_congr back, List.filterMap_some]

theorem image_disassembly {assembly : Assembly} (short : words.length ≤ 256)
    (bounds : forall word, word ∈ words -> 0 ≤ word ∧ word < 65536)
    (returned : assemble (disassembly words) = .ok assembly)
    (assemblable : forall word, word ∈ words -> (Instruction.decode word).IsAssemblable) :
    assembly.image = words ++ List.replicate (256 - words.length) 0 := by
  have all : words.take imageSize = words := List.take_of_length_le short
  rw [image_eq_buildImage returned, buildImage_eq, programWords_eq returned,
    map_orderWord_commandOrders _ bounds assemblable, fillImage, all]
  rfl

end

/-- Disassembled words are assembled again without a problem exactly when each
of them is read as an instruction on registers of the machine, and then they
stand at the start of the image, followed by zeros. -/
theorem assemble_disassembly (words : List Int) (short : words.length ≤ 256)
    (bounds : forall word, word ∈ words -> 0 ≤ word ∧ word ≤ 65535) :
    Exists fun assembly =>
      assemble (String.intercalate "\n" (words.map disassemble)) = .ok assembly ∧
        (assembly.diagnostics.count = 0 <->
          forall word, word ∈ words -> (Instruction.decode word).IsAssemblable) ∧
        ((forall word, word ∈ words -> (Instruction.decode word).IsAssemblable) ->
          assembly.image = words ++ List.replicate (256 - words.length) 0) := by
  rcases exists_assembly_disassembly words with ⟨assembly, returned⟩
  refine ⟨assembly, returned, ?_, ?_⟩
  · rw [assembly.count_eq_zero_iff]
    exact findings_disassembly_eq_nil_iff short returned
  · refine image_disassembly short ?_ returned
    intro word member
    have within := bounds word member
    exact ⟨within.1, by omega⟩

/-- Three commands come back; data and a ninth register are reported. -/
theorem assemble_disassembly_of_samples :
    (Exists fun assembly =>
      assemble (String.intercalate "\n" ([0x0123, 0xA2FB, 0x5670].map disassemble)) = .ok assembly ∧
        assembly.diagnostics.count = 0 ∧
        assembly.image = [0x0123, 0xA2FB, 0x5670] ++ List.replicate 253 0) ∧
      Exists fun assembly =>
        assemble (String.intercalate "\n" ([0x0128, 0x2000].map disassemble)) = .ok assembly ∧
          assembly.diagnostics.count ≠ 0 := by
  constructor
  · rcases assemble_disassembly [0x0123, 0xA2FB, 0x5670] (by decide) (by decide) with
      ⟨assembly, returned, clear, image⟩
    have assemblable : forall word, word ∈ [0x0123, 0xA2FB, 0x5670] ->
        (Instruction.decode word).IsAssemblable := by
      intro word member
      simp only [List.mem_cons, List.not_mem_nil, or_false] at member
      rcases member with rfl | rfl | rfl
      · exact ⟨by decide, by decide, by decide⟩
      · exact (by decide : (2 : Nat) ≤ 7)
      · exact ⟨by decide, by decide⟩
    exact ⟨assembly, returned, clear.mpr assemblable, image assemblable⟩
  · rcases assemble_disassembly [0x0128, 0x2000] (by decide) (by decide) with
      ⟨assembly, returned, clear, -⟩
    refine ⟨assembly, returned, ?_⟩
    intro none
    exact clear.mp none 0x2000 (by decide)

end NibbleMachine
