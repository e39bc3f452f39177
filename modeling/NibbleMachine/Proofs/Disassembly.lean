import NibbleMachine.Proofs.Image
import NibbleMachine.Proofs.Instruction

namespace NibbleMachine

/-!
# Disassembling what was assembled

The word of a line without problems is read back as the line's own command.  Two
things are not recovered, because the word does not hold them: an address load
is read as loading the immediate it resolved to, and an immediate comes back as
the decimal text of its value, however it was written.  `ReadBack` relates the
tokens that a line ends with to the instruction read from its word, form by
form; `canonicalTokens` says the same on tokens alone.

A line that was abbreviated, whose symbols were replaced or whose target was
resolved is compared as the passes left it, after these changes.
-/

/-- The decimal text of the value that a numeral stands for. -/
def canonicalNumeral (token : String) : String :=
  match Numeral.read token with
  | .ok value => Numeral.decimal value
  | .error _ => token

/-- Tokens with an address load read as loading an immediate, and an immediate
written in decimal. -/
def canonicalTokens : List String -> List String
  | [] => []
  | name :: operands =>
      match Command.ofMnemonic? name, operands with
      | some .loadAddress, _ => ImmOp.li.mnemonic :: operands
      | some (.immediate _), [target, numeral] => [name, target, canonicalNumeral numeral]
      | _, _ => name :: operands

/-- The instructions that tokens are read back as. -/
inductive ReadBack : List String -> Instruction -> Prop
  | calculate (op : CalcOp) (target left right : Register) :
      ReadBack [op.mnemonic, Instruction.registerText target.toNibble,
          Instruction.registerText left.toNibble, Instruction.registerText right.toNibble]
        (.calculate op target.toNibble left.toNibble right.toNibble)
  | immediate (op : ImmOp) (target : Register) (numeral : String) (value : Int)
      (reads : Numeral.read numeral = .ok value) :
      ReadBack [op.mnemonic, Instruction.registerText target.toNibble, numeral]
        (.immediate op target.toNibble value)
  | memory (op : MemOp) (target address : Register) :
      ReadBack [op.mnemonic, Instruction.registerText target.toNibble, memoryText address]
        (.memory op target.toNibble address.toNibble)
  | loadAddress (target : Register) (value : Int) :
      ReadBack ["la", Instruction.registerText target.toNibble, Numeral.decimal value]
        (.immediate .li target.toNibble value)

/-- An instruction read back has the canonical tokens. -/
theorem ReadBack.tokens_eq {tokens : List String} {instruction : Instruction}
    (readBack : ReadBack tokens instruction) :
    instruction.tokens = canonicalTokens tokens := by
  cases readBack with
  | calculate op target left right =>
      have named := Command.ofMnemonic?_mnemonic (.calculate op)
      simp only [Command.mnemonic] at named
      simp [Instruction.tokens, canonicalTokens, named]
  | immediate op target numeral value reads =>
      have named := Command.ofMnemonic?_mnemonic (.immediate op)
      simp only [Command.mnemonic] at named
      simp [Instruction.tokens, canonicalTokens, named, canonicalNumeral, reads]
  | memory op target address =>
      have named := Command.ofMnemonic?_mnemonic (.memory op)
      simp only [Command.mnemonic] at named
      simp [Instruction.tokens, canonicalTokens, named, memoryText]
  | loadAddress target value =>
      have named := Command.ofMnemonic?_mnemonic .loadAddress
      simp only [Command.mnemonic] at named
      simp [Instruction.tokens, canonicalTokens, named]

/-- A command encoded without a problem is read back from its nibbles. -/
theorem readBack_of_clear {lines : List Line} {order : Order} {encoding : Encoding}
    {tokens : Option (List String)} (clear : ClearEncoding lines order encoding)
    (shown : showResolved (some order.tokens) encoding.resolved = .ok tokens) :
    Exists fun nibbles => Exists fun final =>
      encoding.nibbles = some nibbles ∧ tokens = some final ∧
        ReadBack final (Instruction.decode nibbles.word) := by
  cases clear with
  | calculate op target left right =>
      cases shown
      refine ⟨_, _, rfl, rfl, ?_⟩
      rw [decode_calculate]
      exact .calculate op target left right
  | immediate op target numeral value reads =>
      cases shown
      rcases (immediateOperand_eq_clear_iff numeral value).mp reads with ⟨read, least, greatest⟩
      refine ⟨_, _, rfl, rfl, ?_⟩
      rw [decode_immediate op target.toNibble least greatest]
      exact .immediate op target numeral value read
  | memory op target address =>
      cases shown
      refine ⟨_, _, rfl, rfl, ?_⟩
      rw [decode_memory]
      exact .memory op target address
  | loadAddress target operand value resolves =>
      rcases (resolveTarget_eq_clear_iff lines operand value).mp resolves with
        ⟨_, line, _, _, _, rfl⟩
      cases shown
      refine ⟨_, _, rfl, rfl, ?_⟩
      have bounds := signedByte_bounds (line.position.getD 0)
      rw [decode_immediate .li target.toNibble bounds.1 bounds.2]
      exact .loadAddress target _

/-- Disassembling the word of a valid line on which no problem was recorded, and
cutting the text into tokens again, gives the tokens of the line in canonical
form; the instruction read from the word is that of the tokens. -/
theorem disassemble_line_without_problem (text : String) (assembly : Assembly)
    (returned : assemble text = .ok assembly) (line : Line) (member : line ∈ assembly.lines)
    (valid : line.valid = true)
    (unreported : forall problem, Finding.atLine line.number problem ∉ assembly.findings) :
    Exists fun tokens =>
      line.tokens = some tokens ∧
        tokensOf (clean (disassemble line.word)) = canonicalTokens tokens ∧
        ReadBack tokens (Instruction.decode line.word) := by
  rcases clear_of_unreported returned member valid unreported with
    ⟨order, encoding, clear, shown, -, encoded⟩
  rcases readBack_of_clear clear shown with ⟨nibbles, tokens, packed, final, readBack⟩
  have word : line.word = nibbles.word :=
    (packed_of_mem_lines returned member).word_of_nibbles (encoded.trans packed)
  rw [← word] at readBack
  refine ⟨tokens, final, ?_, readBack⟩
  rw [disassemble, Instruction.tokensOf_clean_text]
  exact readBack.tokens_eq

/-- An address load after an abbreviation is read back as an immediate load. -/
theorem disassemble_line_without_problem_of_sample :
    Exists fun assembly => Exists fun line =>
      assemble "nop\nla r2, 2" = .ok assembly ∧ line ∈ assembly.lines ∧
        line.tokens = some ["la", "r2", "1"] ∧
        tokensOf (clean (disassemble line.word)) = ["li", "r2", "1"] := by
  rcases exists_assembly_of_map "nop\nla r2, 2"
    (fun assembly => (assembly.findings,
      assembly.lines[1]?.map fun line => (line.valid, line.tokens)))
    (show _ = some ([], some (true, some ["la", "r2", "1"])) by decide +kernel) with
      ⟨assembly, returned, read⟩
  have noFindings : assembly.findings = [] := congrArg Prod.fst read
  rcases Option.map_eq_some_iff.mp (congrArg Prod.snd read) with ⟨line, second, fields⟩
  have member : line ∈ assembly.lines := List.mem_of_getElem? second
  have shown : line.tokens = some ["la", "r2", "1"] := congrArg Prod.snd fields
  rcases disassemble_line_without_problem _ assembly returned line member
    (congrArg Prod.fst fields) (by simp [noFindings]) with ⟨tokens, final, cut, -⟩
  rw [shown] at final
  cases final
  refine ⟨assembly, line, returned, member, shown, cut.trans ?_⟩
  decide +kernel

end NibbleMachine
