import NibbleMachine.Proofs.Renumbering

namespace NibbleMachine

/-!
# Relocation

The numbers of source lines are what a label stands for, but they are not what a
program is about.  In a text that uses labels in the ordinary way, blank lines
and comments may be put in and taken out at will: every line number changes, the
label values with them and the operands of the address loads with those, and the
image stays the same.

Using labels in the ordinary way means that no replacement does more than turn
the operand of an address load into a number.  Since names are replaced wherever
they occur, also in values already put in, this takes some conditions on names:
none occurs in another, none could occur in a number, and a token that is not a
name contains none.  An address load must name its line by a label; a line
number written out would not move.
-/

/-! ## Ordinary use of labels -/

def labelNames (text : String) : List String :=
  (Directive.label.table (definedEntries text)).entries.map Prod.fst

/-- The entries of a text that are no directives, with defines replaced. -/
def plainEntries (text : String) : List Entry :=
  (definedEntries text).filter fun entry => !Directive.label.opens entry.tokens

/-- Labels are used as targets of address loads and for nothing else, and nothing
else is a target. -/
structure Relocatable (text : String) : Prop where
  /-- No name occurs in another. -/
  apart : forall name, name ∈ labelNames text -> forall other, other ∈ labelNames text ->
    other ≠ name -> ¬ Occurs other name
  /-- A name has a character that is no digit. -/
  marked : forall name, name ∈ labelNames text ->
    Exists fun c => c ∈ name.toList ∧ c.isDigit = false
  /-- A token is a name or contains none. -/
  whole : forall entry, entry ∈ plainEntries text -> forall token, token ∈ entry.tokens ->
    token ∈ labelNames text ∨ forall name, name ∈ labelNames text -> ¬ Occurs name token
  /-- A name stands only as the second of two operands of an address load. -/
  loaded : forall entry, entry ∈ plainEntries text -> forall index name,
    name ∈ labelNames text -> entry.tokens[index]? = some name ->
      index = 2 ∧ Exists fun target => entry.tokens = ["la", target, name]
  /-- The second of two operands of an address load is a name. -/
  named : forall entry, entry ∈ plainEntries text -> forall target operand,
    entry.tokens = ["la", target, operand] -> operand ∈ labelNames text

/-- A name with a character that is no digit does not occur in a number. -/
theorem not_occurs_decimal {name : String}
    (marked : Exists fun c => c ∈ name.toList ∧ c.isDigit = false) (number : Nat) :
    ¬ Occurs name (Numeral.decimal number) := by
  rcases marked with ⟨c, inName, noDigit⟩
  intro inside
  have written : c ∈ Nat.toDigits 10 number := by
    have found := List.IsInfix.subset inside inName
    rwa [Numeral.decimal, String.toList_ofList] at found
  rw [Nat.isDigit_of_mem_toDigits (by decide) (by decide) written] at noDigit
  cases noDigit

/-- An entry at another number, with the labels of renumbered entries replaced. -/
def Entry.labelled (entries : List Entry) (renumber : Nat -> Nat) (entry : Entry) : Entry :=
  (entry.renumbered renumber).substituted
    (Directive.label.table (entries.map (Entry.renumbered renumber))).entries

theorem renumbered_id : Entry.renumbered id = id := rfl

theorem commandEntries_eq_labelled (text : String) :
    commandEntries text = (plainEntries text).map (Entry.labelled (definedEntries text) id) := by
  unfold Entry.labelled
  rw [renumbered_id, List.map_id]
  rfl

theorem commandEntries_relocate_labelled {before after : String}
    (same : solidLines after = solidLines before) :
    commandEntries after = (plainEntries before).map
      (Entry.labelled (definedEntries before) (relocate before after)) := by
  rw [commandEntries, Directive.remaining, definedEntries_relocate same,
    filter_renumbered _ fun tokens => !Directive.label.opens tokens, List.map_map]
  rfl

theorem substituteToken_free {text : String} (renumber : Nat -> Nat) {token : String}
    (free : forall name, name ∈ labelNames text -> ¬ Occurs name token) :
    substituteToken (Directive.label.table
      ((definedEntries text).map (Entry.renumbered renumber))).entries token = token := by
  apply substituteToken_of_not_occurs
  intro name listed
  exact free name ((mem_names_renumbered renumber _ name).mp listed)

section

variable {text : String} (relocatable : Relocatable text)

include relocatable

/-- A label is replaced by the number of its last declaration, whatever the
numbers are. -/
theorem exists_number_of_label {name : String} (listed : name ∈ labelNames text) :
    Exists fun number =>
      number ∈ (definedEntries text).map Entry.number ∧
        forall renumber : Nat -> Nat,
          substituteToken (Directive.label.table
            ((definedEntries text).map (Entry.renumbered renumber))).entries name =
              Numeral.decimal (renumber number) := by
  rcases List.mem_map.mp listed with ⟨⟨label, value⟩, declared, rfl⟩
  rcases (mem_table_label_iff _ _ _).mp declared with ⟨front, number, back, split, -, last⟩
  refine ⟨number, ?_, ?_⟩
  · rw [split]
    simp
  · intro renumber
    have solid : label ≠ "" := by
      rintro rfl
      rcases relocatable.marked "" listed with ⟨c, inName, -⟩
      cases inName
    apply substituteToken_name (SymbolTable.nodup_ofList _)
      (mem_table_label_renumbered renumber ⟨front, back, split, last⟩) solid
    intro other inTable different
    have inNames := (mem_names_renumbered renumber _ other).mp inTable
    exact ⟨relocatable.apart label listed other inNames different,
      not_occurs_decimal (relocatable.marked other inNames) _⟩

/-- An entry is an address load, whose operand becomes a number, or is not changed
at all. -/
theorem labelled_of_mem_plainEntries {entry : Entry} (member : entry ∈ plainEntries text) :
    (Exists fun target => Exists fun number =>
      number ∈ (definedEntries text).map Entry.number ∧
        forall renumber, entry.labelled (definedEntries text) renumber =
          ⟨renumber entry.number, ["la", target, Numeral.decimal (renumber number)]⟩) ∨
      (forall target operand, entry.tokens ≠ ["la", target, operand]) ∧
        forall renumber, entry.labelled (definedEntries text) renumber =
          entry.renumbered renumber := by
  -- a name stands at the third place only, so the first two tokens are free of names
  have free : forall index token, index ≠ 2 -> entry.tokens[index]? = some token ->
      forall name, name ∈ labelNames text -> ¬ Occurs name token := by
    intro index token elsewhere found
    rcases relocatable.whole entry member token (List.mem_of_getElem? found) with
      listed | none
    · exact absurd (relocatable.loaded entry member index token listed found).1 elsewhere
    · exact none
  by_cases loads : Exists fun target => Exists fun operand => entry.tokens = ["la", target, operand]
  · rcases loads with ⟨target, operand, tokens⟩
    rcases exists_number_of_label relocatable
      (relocatable.named entry member target operand tokens) with ⟨number, numbered, replaced⟩
    refine Or.inl ⟨target, number, numbered, ?_⟩
    intro renumber
    have command := substituteToken_free renumber
      (free 0 "la" (by decide) (by rw [tokens]; rfl))
    have register := substituteToken_free renumber
      (free 1 target (by decide) (by rw [tokens]; rfl))
    rw [Entry.labelled, Entry.substituted, Entry.renumbered, tokens, List.map_cons, List.map_cons,
      List.map_cons, command, register, replaced]
    rfl
  · refine Or.inr ⟨fun target operand tokens => loads ⟨target, operand, tokens⟩, ?_⟩
    intro renumber
    have kept : forall token, token ∈ entry.tokens ->
        substituteToken (Directive.label.table
          ((definedEntries text).map (Entry.renumbered renumber))).entries token = token := by
      intro token inTokens
      apply substituteToken_free
      rcases relocatable.whole entry member token inTokens with listed | none
      · rcases List.mem_iff_getElem?.mp inTokens with ⟨index, found⟩
        rcases (relocatable.loaded entry member index token listed found).2 with ⟨target, tokens⟩
        exact absurd ⟨target, token, tokens⟩ loads
      · exact none
    rw [Entry.labelled, Entry.substituted]
    congr 1
    calc
      entry.tokens.map _ = entry.tokens.map id := List.map_congr_left kept
      _ = entry.tokens := List.map_id _

end

/-! ## Relocated orders -/

theorem mem_solidNumbers_of_defined {text : String} {number : Nat}
    (member : number ∈ (definedEntries text).map Entry.number) : number ∈ solidNumbers text :=
  (number_sublist_remaining .define _).subset member

theorem mem_solidNumbers_of_order {text : String} {number : Nat}
    (member : number ∈ (numberedOrders text).map Prod.fst) : number ∈ solidNumbers text := by
  rcases List.mem_map.mp member with ⟨⟨own, order⟩, listed, rfl⟩
  rcases (mem_numberedOrders_iff _ _ _).mp listed with ⟨entry, inCommands, rfl, -⟩
  apply mem_solidNumbers_of_defined
  exact (number_sublist_remaining .label _).subset (List.mem_map_of_mem inCommands)

section

variable {before after : String} (same : solidLines after = solidLines before)
  (relocatable : Relocatable before)

include same relocatable

theorem commandEntries_relocate :
    commandEntries after =
      (commandEntries before).map (Entry.relocated (relocate before after)) := by
  rw [commandEntries_relocate_labelled same, commandEntries_eq_labelled before, List.map_map]
  apply List.map_congr_left
  intro entry member
  rcases labelled_of_mem_plainEntries relocatable member with
    ⟨target, number, -, labelled⟩ | ⟨other, labelled⟩
  · rw [Function.comp, labelled, labelled, ← relocatedOperand_decimal]
    rfl
  · rw [Function.comp, labelled, labelled, renumbered_id, id, Entry.relocated,
      relocatedTokens_of_not_load _ other]
    rfl

theorem numberedOrders_relocate :
    numberedOrders after =
      (numberedOrders before).map (relocatedPair (relocate before after)) := by
  rw [numberedOrders, commandEntries_relocate same relocatable, List.filterMap_map,
    numberedOrders, List.map_filterMap]
  exact List.filterMap_congr fun entry _ => numberedOrder?_relocated _ entry

omit same in
/-- An address load names a line of the text. -/
theorem number_of_load {number : Nat} {target operand : String}
    (member : (number, Order.mk .loadAddress [target, operand]) ∈ numberedOrders before) :
    Exists fun line : Nat => line ∈ solidNumbers before ∧ operand = Numeral.decimal line := by
  rcases (mem_numberedOrders_iff _ _ _).mp member with ⟨entry, listed, -, ordered⟩
  have tokens := tokens_of_loadAddress ordered
  rw [commandEntries_eq_labelled] at listed
  rcases List.mem_map.mp listed with ⟨plain, inPlain, rfl⟩
  rcases labelled_of_mem_plainEntries relocatable inPlain with
    ⟨register, line, numbered, labelled⟩ | ⟨other, labelled⟩
  · rw [labelled] at tokens
    have operands : target = register ∧ operand = Numeral.decimal line := by
      simpa using tokens.symm
    exact ⟨line, mem_solidNumbers_of_defined numbered, operands.2⟩
  · rw [labelled] at tokens
    exact absurd tokens (other target operand)

/-- The target of an address load is at the same position in both texts. -/
theorem resolveTarget_relocate (occupied : numberedOrders before ≠ []) {number : Nat}
    (solid : number ∈ solidNumbers before)
    (named : targetLine (Numeral.decimal number) = .ok ((number : Int), []))
    (movedNamed : targetLine (Numeral.decimal (relocate before after number)) =
      .ok ((relocate before after number : Int), [])) :
    resolveTarget (placedLines after) (Numeral.decimal (relocate before after number)) =
      resolveTarget (placedLines before) (Numeral.decimal number) := by
  have positive := (number_bounds_sourceEntries solid).1
  have movedPositive := (number_bounds_sourceEntries (relocate_mem same solid)).1
  have numbers : (numberedOrders after).map Prod.fst =
      ((numberedOrders before).map Prod.fst).map (relocate before after) := by
    rw [numberedOrders_relocate same relocatable, List.map_map, List.map_map]
    rfl
  have movedOccupied : numberedOrders after ≠ [] := by
    rw [numberedOrders_relocate same relocatable]
    exact fun empty => occupied (List.map_eq_nil_iff.mp empty)
  have lands := targetPosition_placedLines occupied (Int.natCast_pos.mpr positive)
  have movedLands := targetPosition_placedLines movedOccupied (Int.natCast_pos.mpr movedPositive)
  rw [numbers, landing_map (relocate before after) fun other listed =>
    relocate_lt_iff same (mem_solidNumbers_of_order listed) solid] at movedLands
  rw [resolveTarget_of_landing movedNamed movedLands, resolveTarget_of_landing named lands]

omit same in
/-- The orders of a text are relocated at the targets of address loads and nowhere
else. -/
theorem relocated_cases {placed : Nat × Order} (member : placed ∈ numberedOrders before) :
    (Exists fun target => Exists fun line : Nat =>
      line ∈ solidNumbers before ∧
        placed.2 = ⟨.loadAddress, [target, Numeral.decimal line]⟩ ∧
        placed.2.relocated (relocate before after) =
          ⟨.loadAddress, [target, Numeral.decimal (relocate before after line)]⟩) ∨
      (forall target operand, placed.2 ≠ ⟨.loadAddress, [target, operand]⟩) ∧
        placed.2.relocated (relocate before after) = placed.2 := by
  rcases placed with ⟨number, order⟩
  by_cases loads : Exists fun target => Exists fun operand =>
      order = ⟨.loadAddress, [target, operand]⟩
  · rcases loads with ⟨target, operand, rfl⟩
    rcases number_of_load relocatable member with ⟨line, solid, rfl⟩
    refine Or.inl ⟨target, line, solid, rfl, ?_⟩
    rw [← relocatedOperand_decimal]
    rfl
  · have other : forall target operand, order ≠ ⟨.loadAddress, [target, operand]⟩ :=
      fun target operand same => loads ⟨target, operand, same⟩
    exact Or.inr ⟨other, Order.relocated_of_not_load _ other⟩

/-- Orders are encoded alike in both texts, unless a new line number is too long to
be read. -/
theorem encodeOrder_relocate {assembly : Assembly} (returned : assemble before = .ok assembly)
    {placed : Nat × Order} (member : placed ∈ numberedOrders before)
    (reads : forall target operand,
      placed.2.relocated (relocate before after) = ⟨.loadAddress, [target, operand]⟩ ->
        Exists fun result => targetLine operand = .ok result) :
    encodeOrder (placedLines after) (placed.2.relocated (relocate before after)) =
      encodeOrder (placedLines before) placed.2 := by
  rcases relocated_cases relocatable member with
    ⟨target, line, solid, loads, movedLoads⟩ | ⟨other, kept⟩
  · rcases exists_encoding_of_mem_numberedOrders returned member with ⟨encoding, encoded⟩
    rw [loads] at encoded
    have named := targetLine_decimal_of_ok (number_bounds_sourceEntries solid).1
      (targetLine_of_encodeOrder encoded)
    have movedNamed := targetLine_decimal_of_ok
      (number_bounds_sourceEntries (relocate_mem same solid)).1 (reads _ _ movedLoads)
    rw [movedLoads, loads]
    rw [encodeOrder_loadAddress, encodeOrder_loadAddress, resolveTarget_relocate same relocatable
      (List.ne_nil_of_mem member) solid named movedNamed]
  · rw [kept]
    exact encodeOrder_of_not_load _ _ other

/-- The other text is assembled as well, if it is not too long. -/
theorem exists_assembly_relocate {assembly : Assembly} (returned : assemble before = .ok assembly)
    (short : (Text.lines after.toList).length < Nat.pow 10 Numeral.digitLimit) :
    Exists fun moved => assemble after = .ok moved := by
  apply exists_assembly_of_alike (numberedOrders_relocate same relocatable) _ returned
  intro placed member
  apply encodeOrder_relocate same relocatable returned member
  intro target operand loads
  rcases relocated_cases relocatable member with
    ⟨register, line, solid, -, movedLoads⟩ | ⟨other, kept⟩
  · -- the new operand is the number of a line of the other text, which has few lines
    have bounds := number_bounds_sourceEntries (relocate_mem same solid)
    rw [movedLoads] at loads
    cases loads
    exact ⟨_, targetLine_decimal bounds.1 (Nat.lt_of_le_of_lt bounds.2 short)⟩
  · rw [kept] at loads
    exact absurd loads (other target operand)

/-- When both texts are assembled, all orders are encoded alike. -/
theorem encodeOrder_relocate_of_returned {assembly moved : Assembly}
    (returned : assemble before = .ok assembly) (movedReturned : assemble after = .ok moved)
    {placed : Nat × Order} (member : placed ∈ numberedOrders before) :
    encodeOrder (placedLines after) (placed.2.relocated (relocate before after)) =
      encodeOrder (placedLines before) placed.2 := by
  apply encodeOrder_relocate same relocatable returned member
  intro target operand loads
  have movedMember : relocatedPair (relocate before after) placed ∈ numberedOrders after := by
    rw [numberedOrders_relocate same relocatable]
    exact List.mem_map_of_mem member
  rcases exists_encoding_of_mem_numberedOrders movedReturned movedMember with
    ⟨encoding, encoded⟩
  rw [relocatedPair, loads] at encoded
  exact targetLine_of_encodeOrder encoded

theorem programWords_relocate {assembly moved : Assembly}
    (returned : assemble before = .ok assembly) (movedReturned : assemble after = .ok moved) :
    programWords moved.lines = programWords assembly.lines :=
  programWords_of_alike (numberedOrders_relocate same relocatable)
    (fun _ => encodeOrder_relocate_of_returned same relocatable returned movedReturned) returned
    movedReturned

/-- The findings on the other text are the same ones, at the new numbers. -/
theorem findings_relocate {assembly moved : Assembly}
    (returned : assemble before = .ok assembly) (movedReturned : assemble after = .ok moved) :
    moved.findings =
      assembly.findings.map (Finding.renumbered (relocate before after)) := by
  apply findings_of_alike (numberedOrders_relocate same relocatable)
    (fun _ => encodeOrder_relocate_of_returned same relocatable returned movedReturned) returned
    movedReturned
  · rw [sourceEntries_relocate same, findingsOf_renumbered]
  · rw [definedEntries_relocate same, findingsOf_renumbered]
  · rw [commandEntries_relocate same relocatable, List.flatMap_map, List.map_flatMap]
    exact List.flatMap_congr fun entry _ => resolveFindings_relocated _ entry

end

/-- Blank lines and comments do not matter in a text that uses labels in the
ordinary way.  Any text with the same other lines has the same image, and its
messages differ only in the line numbers they start with, which are those of the
same lines.  It is assembled unless it has so many lines that their numbers
cannot be read back. -/
theorem assembly_relocation (before after : String) (assembly : Assembly)
    (same : solidLines after = solidLines before) (returned : assemble before = .ok assembly)
    (relocatable : Relocatable before) :
    ((Text.lines after.toList).length < Nat.pow 10 Numeral.digitLimit ->
      Exists fun moved => assemble after = .ok moved) ∧
      forall moved, assemble after = .ok moved ->
        moved.image = assembly.image ∧
          moved.findings = assembly.findings.map (Finding.renumbered (relocate before after)) ∧
          moved.diagnostics.messages = assembly.findings.map fun finding =>
            (finding.renumbered (relocate before after)).message := by
  refine ⟨exists_assembly_relocate same relocatable returned, ?_⟩
  intro moved movedReturned
  have findings := findings_relocate same relocatable returned movedReturned
  refine ⟨?_, findings, ?_⟩
  · rw [image_eq_buildImage movedReturned, image_eq_buildImage returned, buildImage_eq,
      buildImage_eq, programWords_relocate same relocatable returned movedReturned]
  · rw [Assembly.diagnostics, Diagnostics.ofFindings, findings, List.map_map]
    rfl

/-- A comment and blank lines before a label, behind it and before its use. -/
theorem assembly_relocation_of_sample :
    Exists fun assembly => Exists fun moved =>
      assemble "li r1,1\n#label t\nx\nla r2,t" = .ok assembly ∧
        Relocatable "li r1,1\n#label t\nx\nla r2,t" ∧
        assemble "//\nli r1,1\n\n#label t\nx\n,\nla r2,t" = .ok moved ∧
        moved.image = assembly.image ∧ moved.findings = [.atLine 5 .unknownCommand] := by
  have defined : definedEntries "li r1,1\n#label t\nx\nla r2,t" =
      [⟨1, ["li", "r1", "1"]⟩, ⟨2, ["#label", "t"]⟩, ⟨3, ["x"]⟩, ⟨4, ["la", "r2", "t"]⟩] := by
    decide +kernel
  have names : labelNames "li r1,1\n#label t\nx\nla r2,t" = ["t"] := by
    rw [labelNames, defined]
    decide +kernel
  have plain : plainEntries "li r1,1\n#label t\nx\nla r2,t" =
      [⟨1, ["li", "r1", "1"]⟩, ⟨3, ["x"]⟩, ⟨4, ["la", "r2", "t"]⟩] := by
    rw [plainEntries, defined]
    decide +kernel
  have relocatable : Relocatable "li r1,1\n#label t\nx\nla r2,t" := by
    constructor
    · rw [names]
      intro name listed other otherListed different
      rw [List.mem_singleton.mp listed, List.mem_singleton.mp otherListed] at different
      exact absurd rfl different
    · rw [names]
      intro name listed
      rw [List.mem_singleton.mp listed]
      exact ⟨'t', by decide, by decide⟩
    · rw [names, plain]
      decide +kernel
    · rw [names, plain]
      intro entry member index name listed found
      rw [List.mem_singleton.mp listed] at found ⊢
      simp only [List.mem_cons, List.not_mem_nil, or_false] at member
      rcases member with rfl | rfl | rfl
      · rcases index with _ | _ | _ | index <;> simp at found
      · rcases index with _ | index <;> simp at found
      · rcases index with _ | _ | _ | index
        · simp at found
        · simp at found
        · exact ⟨rfl, "r2", rfl⟩
        · simp at found
    · rw [names, plain]
      intro entry member target operand tokens
      simp only [List.mem_cons, List.not_mem_nil, or_false] at member
      rcases member with rfl | rfl | rfl
      · simp at tokens
      · simp at tokens
      · simp at tokens
        simp [tokens]
  rcases exists_assembly_of_map "li r1,1\n#label t\nx\nla r2,t" Assembly.findings
    (show _ = some [.atLine 3 .unknownCommand] by decide +kernel) with
    ⟨assembly, returned, findings⟩
  have few : (Text.lines
      "//\nli r1,1\n\n#label t\nx\n,\nla r2,t".toList).length < Nat.pow 10 1 := by
    decide +kernel
  have grows : 1 ≤ Numeral.digitLimit := by decide
  have short := Nat.lt_of_lt_of_le few (Numeral.pow_ten_le grows)
  have relocated := assembly_relocation _
    "//\nli r1,1\n\n#label t\nx\n,\nla r2,t" assembly (by decide +kernel)
    returned relocatable
  rcases relocated.1 short with ⟨moved, movedReturned⟩
  rcases relocated.2 moved movedReturned with ⟨image, movedFindings, -⟩
  refine ⟨assembly, moved, returned, relocatable, movedReturned, image, ?_⟩
  rw [movedFindings, findings]
  decide +kernel

end NibbleMachine
