import NibbleMachine.Abbreviation
import NibbleMachine.Instruction
import NibbleMachine.Source.Symbols

namespace NibbleMachine

/-!
# Names and numbers of commands

Commands and abbreviations are found by name when source text is read, and by
number when a word is read.  Every lookup goes through a list of all the
candidates and takes the first one that fits, so it finds a candidate exactly
when that candidate fits: each one is found under its own key, and therefore no
two share it.

Names of different kinds do not meet either.  An abbreviation is never the name
of a command, and neither starts a directive.  A calculation, an immediate
command and the memory commands never share their first nibble, so the order in
which decoding tries them does not matter.
-/

/-- A lookup in which every item is found under its own key. -/
theorem find?_key_eq_some_iff {Item Key : Type} [DecidableEq Key] {items : List Item}
    {key : Item -> Key}
    (own : forall item, items.find? (fun other => key other == key item) = some item)
    (wanted : Key) (item : Item) :
    items.find? (fun other => key other == wanted) = some item <-> key item = wanted := by
  constructor
  · intro found
    have fits : (key item == wanted) = true :=
      List.find?_some (p := fun other => key other == wanted) found
    exact eq_of_beq fits
  · rintro rfl
    exact own item

theorem Command.ofMnemonic?_eq_some_iff (name : String) (command : Command) :
    Command.ofMnemonic? name = some command <-> command.mnemonic = name :=
  find?_key_eq_some_iff Command.ofMnemonic?_mnemonic name command

theorem Abbreviation.ofMnemonic?_eq_some_iff (name : String) (abbreviation : Abbreviation) :
    Abbreviation.ofMnemonic? name = some abbreviation <-> abbreviation.mnemonic = name :=
  find?_key_eq_some_iff Abbreviation.ofMnemonic?_mnemonic name abbreviation

theorem CalcOp.ofOpcode?_eq_some_iff (nibble : Nibble) (op : CalcOp) :
    CalcOp.ofOpcode? nibble = some op <-> op.opcode = nibble :=
  find?_key_eq_some_iff CalcOp.ofOpcode?_opcode nibble op

theorem ImmOp.ofOpcode?_eq_some_iff (nibble : Nibble) (op : ImmOp) :
    ImmOp.ofOpcode? nibble = some op <-> op.opcode = nibble :=
  find?_key_eq_some_iff ImmOp.ofOpcode?_opcode nibble op

theorem MemOp.ofFunction?_eq_some_iff (nibble : Nibble) (op : MemOp) :
    MemOp.ofFunction? nibble = some op <-> op.function = nibble :=
  find?_key_eq_some_iff MemOp.ofFunction?_function nibble op

/-! ## Names that do not meet -/

theorem Abbreviation.ofMnemonic?_command (command : Command) :
    Abbreviation.ofMnemonic? command.mnemonic = none := by
  rcases command with op | op | op | _
  · cases op <;> decide
  · cases op <;> decide
  · cases op <;> decide
  · decide

theorem Command.mnemonic_ne_keyword (command : Command) (directive : Directive) :
    command.mnemonic ≠ directive.keyword := by
  rcases command with op | op | op | _
  · cases op <;> cases directive <;> decide
  · cases op <;> cases directive <;> decide
  · cases op <;> cases directive <;> decide
  · cases directive <;> decide

/-! ## Numbers that do not meet -/

theorem CalcOp.opcode_ne_memory (op : CalcOp) : op.opcode ≠ MemOp.opcode := by
  cases op <;> decide

theorem ImmOp.opcode_ne_memory (op : ImmOp) : op.opcode ≠ MemOp.opcode := by
  cases op <;> decide

theorem ImmOp.ofOpcode?_calculation (op : ImmOp) : CalcOp.ofOpcode? op.opcode = none := by
  cases op <;> decide

end NibbleMachine
