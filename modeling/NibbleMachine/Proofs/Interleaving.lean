import NibbleMachine.Proofs.Renumbering

namespace NibbleMachine

/-!
# Where the defines of a text stand

A define acts on the whole text.  What a text amounts to therefore depends on
two sequences, the lines that are defines and the lines that are not, and not on
how the two are interleaved.  Among the defines the order matters, because a
later define of a name replaces an earlier one and because the place of the
first decides when the name is replaced.

Moving a define changes line numbers, and line numbers are seen in two ways
only: a label stands for one, and an address load names one.  In a text without
either, the two sequences decide the image and the findings, up to the numbers
of the lines that the findings are about.
-/

/-! ## The two sequences -/

/-- The lines of a text that open a define. -/
def defineEntries (text : String) : List Entry :=
  (sourceEntries text).filter fun entry => Directive.define.opens entry.tokens

/-- The lines of a text that are neither blank nor open a define. -/
def otherEntries (text : String) : List Entry :=
  (sourceEntries text).filter fun entry => !Directive.define.opens entry.tokens

/-- Two texts with the same defines in the same order, and the same other lines in
the same order. -/
structure SameSequences (before after : String) : Prop where
  defines : (defineEntries after).map Entry.tokens = (defineEntries before).map Entry.tokens
  others : (otherEntries after).map Entry.tokens = (otherEntries before).map Entry.tokens

instance (before after : String) : Decidable (SameSequences before after) :=
  decidable_of_iff
    ((defineEntries after).map Entry.tokens = (defineEntries before).map Entry.tokens ∧
      (otherEntries after).map Entry.tokens = (otherEntries before).map Entry.tokens)
    ⟨fun both => ⟨both.1, both.2⟩, fun same => ⟨same.defines, same.others⟩⟩

/-- The numbers of the lines of a text, those of the defines first. -/
def sequenceNumbers (text : String) : List Nat :=
  (defineEntries text).map Entry.number ++ (otherEntries text).map Entry.number

/-- The number that a line of one text has in another with the same sequences: that
of the define or other line at the same place in its sequence. -/
def counterpart (before after : String) : Nat -> Nat :=
  correspond (sequenceNumbers before) (sequenceNumbers after)

theorem nodup_sequenceNumbers (text : String) : (sequenceNumbers text).Nodup := by
  have nodup : ((sourceEntries text).map Entry.number).Nodup :=
    (number_increases_sourceEntries text).imp Nat.ne_of_lt
  have parts := (List.filter_append_perm (fun entry => Directive.define.opens entry.tokens)
    (sourceEntries text)).map Entry.number
  rw [List.map_append] at parts
  exact parts.nodup_iff.mpr nodup

/-- Entries with the same tokens are the same up to their numbers. -/
theorem entries_eq_renumbered {entries others : List Entry} {renumber : Nat -> Nat}
    (numbers : others.map Entry.number = (entries.map Entry.number).map renumber)
    (tokens : others.map Entry.tokens = entries.map Entry.tokens) :
    others = entries.map (Entry.renumbered renumber) := by
  have moved : (entries.map (Entry.renumbered renumber)).map Entry.tokens =
      entries.map Entry.tokens := by
    rw [List.map_map]
    rfl
  rw [entries_eq_zipWith others, entries_eq_zipWith (entries.map (Entry.renumbered renumber)),
    moved, tokens, numbers, List.map_map, List.map_map]
  rfl

section

variable {before after : String} (same : SameSequences before after)

include same

/-- Each sequence is taken to the other text line by line. -/
theorem sequences_counterpart :
    defineEntries after = (defineEntries before).map (Entry.renumbered (counterpart before after)) ∧
      otherEntries after =
        (otherEntries before).map (Entry.renumbered (counterpart before after)) := by
  have defineLength := congrArg List.length same.defines
  have otherLength := congrArg List.length same.others
  rw [List.length_map, List.length_map] at defineLength otherLength
  have length : (sequenceNumbers before).length = (sequenceNumbers after).length := by
    simp only [sequenceNumbers, List.length_append, List.length_map, defineLength, otherLength]
  have numbers : (sequenceNumbers before).map (counterpart before after) =
      sequenceNumbers after := map_correspond (nodup_sequenceNumbers before) length
  -- the two halves have the same lengths in both texts, so they correspond one by one
  rw [sequenceNumbers, List.map_append] at numbers
  have halves := List.append_inj numbers (by simp [defineLength])
  exact ⟨entries_eq_renumbered halves.1.symm same.defines,
    entries_eq_renumbered halves.2.symm same.others⟩

end

/-! ## What the defines leave -/

/-- A directive declares what the entries that it opens declare. -/
theorem declarations_filter (directive : Directive) (entries : List Entry) :
    directive.declarations (entries.filter fun entry => directive.opens entry.tokens) =
      directive.declarations entries := by
  rw [Directive.declarations, List.filter_filter]
  simp only [Bool.and_self]
  rfl

theorem declarations_define (text : String) :
    Directive.define.declarations (sourceEntries text) =
      Directive.define.declarations (defineEntries text) :=
  (declarations_filter .define _).symm

theorem table_define (text : String) :
    Directive.define.table (sourceEntries text) =
      Directive.define.table (defineEntries text) := by
  rw [Directive.table, declarations_define]
  rfl

theorem definedEntries_eq (text : String) :
    definedEntries text = (otherEntries text).map
      (Entry.substituted (Directive.define.table (defineEntries text)).entries) := by
  rw [← table_define]
  rfl

section

variable {before after : String} (same : SameSequences before after)

include same

theorem findingsOf_define_counterpart :
    findingsOf (Directive.define.declarations (sourceEntries after)) =
      (findingsOf (Directive.define.declarations (sourceEntries before))).map
        (Finding.renumbered (counterpart before after)) := by
  rw [declarations_define, declarations_define, (sequences_counterpart same).1,
    findingsOf_renumbered]

/-- What the defines leave is the same in both texts, up to numbers. -/
theorem definedEntries_counterpart :
    definedEntries after =
      (definedEntries before).map (Entry.renumbered (counterpart before after)) := by
  rw [definedEntries_eq, definedEntries_eq, (sequences_counterpart same).1,
    (sequences_counterpart same).2, table_define_renumbered, List.map_map, List.map_map,
    Entry.substituted_renumbered]

end

/-! ## Orders without labels and address loads -/

theorem Entry.numberedOrder?_renumbered (renumber : Nat -> Nat) (entry : Entry) :
    (entry.renumbered renumber).numberedOrder? =
      entry.numberedOrder?.map fun placed => (renumber placed.1, placed.2) := by
  unfold Entry.numberedOrder? Entry.renumbered
  cases orderOf entry.tokens <;> rfl

theorem Entry.resolveFindings_renumbered (renumber : Nat -> Nat) (entry : Entry) :
    (entry.renumbered renumber).resolveFindings =
      entry.resolveFindings.map (Finding.renumbered renumber) := by
  unfold Entry.resolveFindings Entry.renumbered
  cases orderOf entry.tokens <;> rfl

section

variable {before after : String} (same : SameSequences before after)
  (unlabelled : forall entry, entry ∈ definedEntries before ->
    Directive.label.opens entry.tokens = false)

include same unlabelled

theorem commandEntries_counterpart :
    commandEntries after =
      (commandEntries before).map (Entry.renumbered (counterpart before after)) := by
  have alsoUnlabelled : forall entry, entry ∈ definedEntries after ->
      Directive.label.opens entry.tokens = false := by
    intro entry member
    rw [definedEntries_counterpart same] at member
    rcases List.mem_map.mp member with ⟨source, listed, rfl⟩
    rw [Entry.tokens_renumbered]
    exact unlabelled source listed
  rw [commandEntries, Directive.label.remaining_of_unopened alsoUnlabelled, commandEntries,
    Directive.label.remaining_of_unopened unlabelled, definedEntries_counterpart same]

theorem numberedOrders_counterpart :
    numberedOrders after = (numberedOrders before).map fun placed =>
      (counterpart before after placed.1, id placed.2) := by
  rw [numberedOrders, commandEntries_counterpart same unlabelled, List.filterMap_map,
    numberedOrders, List.map_filterMap]
  apply List.filterMap_congr
  intro entry _
  exact entry.numberedOrder?_renumbered _

theorem resolveFindings_counterpart :
    (commandEntries after).flatMap Entry.resolveFindings =
      ((commandEntries before).flatMap Entry.resolveFindings).map
        (Finding.renumbered (counterpart before after)) := by
  rw [commandEntries_counterpart same unlabelled, List.flatMap_map, List.map_flatMap]
  apply List.flatMap_congr
  intro entry _
  exact entry.resolveFindings_renumbered _

end

/-- Without address loads orders are encoded alike among all lines. -/
theorem encodeOrder_of_unloaded {text : String} {assembly : Assembly}
    (returned : assemble text = .ok assembly)
    (unloaded : forall line, line ∈ validLines assembly.lines -> ¬ line.LoadsAddress)
    (others : List Line) {placed : Nat × Order} (member : placed ∈ numberedOrders text) :
    encodeOrder others placed.2 = encodeOrder (placedLines text) placed.2 := by
  apply encodeOrder_of_not_load
  intro target operand loads
  have listed := List.mem_map_of_mem (f := Prod.snd) member
  rw [map_snd_numberedOrders] at listed
  apply (not_loadsAddress_iff returned).mp unloaded placed.2 listed
  rw [loads]

/-- Defines act wherever they stand.  A text that is assembled without a label and
without an address load may have its defines and its other lines interleaved in
any other way, with blank lines anywhere: it is assembled to the same image, and
the same problems are found in the same order, at the numbers that the lines have
in the new text. -/
theorem defines_act_regardless_of_place (before after : String) (assembly : Assembly)
    (same : SameSequences before after) (returned : assemble before = .ok assembly)
    (unlabelled : forall entry, entry ∈ definedEntries before ->
      Directive.label.opens entry.tokens = false)
    (unloaded : forall line, line ∈ validLines assembly.lines -> ¬ line.LoadsAddress) :
    defineEntries after = (defineEntries before).map (Entry.renumbered (counterpart before after)) ∧
      otherEntries after =
        (otherEntries before).map (Entry.renumbered (counterpart before after)) ∧
      Exists fun moved =>
        assemble after = .ok moved ∧ moved.image = assembly.image ∧
          moved.findings = assembly.findings.map (Finding.renumbered (counterpart before after)) ∧
          moved.diagnostics.messages = assembly.findings.map fun finding =>
            (finding.renumbered (counterpart before after)).message := by
  have orders := numberedOrders_counterpart same unlabelled
  have alike := fun placed (member : placed ∈ numberedOrders before) =>
    encodeOrder_of_unloaded returned unloaded (placedLines after) member
  rcases exists_assembly_of_alike orders alike returned with ⟨moved, movedReturned⟩
  have findings : moved.findings =
      assembly.findings.map (Finding.renumbered (counterpart before after)) := by
    apply findings_of_alike orders alike returned movedReturned
    · exact findingsOf_define_counterpart same
    · rw [definedEntries_counterpart same, findingsOf_renumbered]
    · exact resolveFindings_counterpart same unlabelled
  refine ⟨(sequences_counterpart same).1, (sequences_counterpart same).2, moved, movedReturned,
    image_of_alike orders alike returned movedReturned, findings, ?_⟩
  rw [Assembly.diagnostics, Diagnostics.ofFindings, findings, List.map_map]
  rfl

/-- A define made again, a malformed one and a comment are moved between and
behind the other lines. -/
theorem defines_act_regardless_of_place_of_sample :
    Exists fun assembly => Exists fun moved =>
      assemble "#define k r1\n#define k r2\nadd k,k,z\nx\n#define" = .ok assembly ∧
        SameSequences "#define k r1\n#define k r2\nadd k,k,z\nx\n#define"
          "Add k k z\n#define k r1\nx\n//\n#define k r2\n#define" ∧
        assemble "Add k k z\n#define k r1\nx\n//\n#define k r2\n#define" = .ok moved ∧
        moved.image = assembly.image ∧
        moved.findings =
          [.atLine 6 .malformedDefine, .atLine 3 .unknownCommand, .atLine 1 (.register .form)] := by
  have first : sourceEntries "#define k r1\n#define k r2\nadd k,k,z\nx\n#define" =
      [⟨1, ["#define", "k", "r1"]⟩, ⟨2, ["#define", "k", "r2"]⟩, ⟨3, ["add", "k", "k", "z"]⟩,
        ⟨4, ["x"]⟩, ⟨5, ["#define"]⟩] := by decide +kernel
  have second : sourceEntries "Add k k z\n#define k r1\nx\n//\n#define k r2\n#define" =
      [⟨1, ["add", "k", "k", "z"]⟩, ⟨2, ["#define", "k", "r1"]⟩, ⟨3, ["x"]⟩,
        ⟨5, ["#define", "k", "r2"]⟩, ⟨6, ["#define"]⟩] := by decide +kernel
  have same : SameSequences "#define k r1\n#define k r2\nadd k,k,z\nx\n#define"
      "Add k k z\n#define k r1\nx\n//\n#define k r2\n#define" := by
    constructor
    · rw [defineEntries, defineEntries, first, second]
      decide
    · rw [otherEntries, otherEntries, first, second]
      decide
  have unlabelled : forall entry,
      entry ∈ definedEntries "#define k r1\n#define k r2\nadd k,k,z\nx\n#define" ->
        Directive.label.opens entry.tokens = false := by
    rw [definedEntries, first]
    decide +kernel
  rcases exists_assembly_of_map "#define k r1\n#define k r2\nadd k,k,z\nx\n#define"
    (fun assembly => (assembly.findings,
      decide (forall line, line ∈ validLines assembly.lines -> ¬ line.LoadsAddress)))
    (show _ = some ([.atLine 5 .malformedDefine, .atLine 4 .unknownCommand,
      .atLine 3 (.register .form)], true) by decide +kernel) with ⟨assembly, returned, read⟩
  rw [Prod.mk.injEq, decide_eq_true_eq] at read
  rcases defines_act_regardless_of_place _ _ assembly same returned unlabelled read.2 with
    ⟨-, -, moved, movedReturned, image, findings, -⟩
  refine ⟨assembly, moved, returned, same, movedReturned, image, ?_⟩
  rw [findings, read.1, counterpart, sequenceNumbers, sequenceNumbers, defineEntries, defineEntries,
    otherEntries, otherEntries, first, second]
  decide

end NibbleMachine
