import NibbleMachine.Proofs.Labels
import Mathlib.Data.List.GetD
import Mathlib.Data.List.Sort

namespace NibbleMachine

/-!
# Renumbered lines

A line with nothing on it takes part in an assembly only by being counted: the
lines behind it have larger numbers.  Two texts with the same lines that are not
blank therefore have the same entries, up to their numbers, and the numbers of
one correspond to those of the other in order.

The statements here carry such a change of numbers through the directives.  What
a define does is not touched by it, and findings are moved to the new numbers.
A label is different, since its value is a number: its declarations are the same
ones, at the new numbers.
-/

/-! ## Corresponding numbers -/

/-- The number at the place in one list that a number has in another. -/
def correspond (source image : List Nat) (number : Nat) : Nat :=
  image.getD (source.idxOf number) 0

section

variable {source image : List Nat}

theorem correspond_getElem (nodup : source.Nodup) {index : Nat} (inSource : index < source.length)
    (inImage : index < image.length) : correspond source image source[index] = image[index] := by
  rw [correspond, nodup.idxOf_getElem index inSource, List.getD_eq_getElem _ _ inImage]

theorem map_correspond (nodup : source.Nodup) (length : source.length = image.length) :
    source.map (correspond source image) = image := by
  apply List.ext_getElem
  · rw [List.length_map, length]
  · intro index _ inImage
    rw [List.getElem_map, correspond_getElem nodup (length ▸ inImage) inImage]

/-- Growing numbers correspond to growing numbers in order. -/
theorem correspond_lt_iff (increases : source.Pairwise fun first second => first < second)
    (imageIncreases : image.Pairwise fun first second => first < second)
    (length : source.length = image.length) {first second : Nat} (inFirst : first ∈ source)
    (inSecond : second ∈ source) :
    correspond source image first < correspond source image second <-> first < second := by
  have nodup : source.Nodup := increases.imp Nat.ne_of_lt
  rcases List.getElem_of_mem inFirst with ⟨index, within, rfl⟩
  rcases List.getElem_of_mem inSecond with ⟨other, otherWithin, rfl⟩
  rw [correspond_getElem nodup within (length ▸ within),
    correspond_getElem nodup otherWithin (length ▸ otherWithin),
    imageIncreases.sortedLT.getElem_lt_getElem_iff, increases.sortedLT.getElem_lt_getElem_iff]

end

/-! ## Texts with the same lines -/

/-- Whether a line is neither blank nor only a comment. -/
def isSolid (line : List Char) : Bool :=
  !(clean (String.ofList line)).isEmpty

/-- The lines of a text that are neither blank nor only a comment. -/
def solidLines (text : String) : List (List Char) :=
  (Text.lines text.toList).filter isSolid

/-- The numbers of the lines that are neither blank nor only a comment. -/
def solidNumbers (text : String) : List Nat :=
  (sourceEntries text).map Entry.number

/-- The number that a line of one text has in another with the same solid lines. -/
def relocate (before after : String) : Nat -> Nat :=
  correspond (solidNumbers before) (solidNumbers after)

def Entry.renumbered (renumber : Nat -> Nat) (entry : Entry) : Entry :=
  { entry with number := renumber entry.number }

@[simp] theorem Entry.tokens_renumbered (renumber : Nat -> Nat) (entry : Entry) :
    (entry.renumbered renumber).tokens = entry.tokens := rfl

theorem Entry.substituted_renumbered (symbols : List (String × String)) (renumber : Nat -> Nat) :
    Entry.substituted symbols ∘ Entry.renumbered renumber =
      Entry.renumbered renumber ∘ Entry.substituted symbols := rfl

theorem tokens_sourceEntries (text : String) :
    (sourceEntries text).map Entry.tokens =
      (solidLines text).map fun line => tokensOf (clean (String.ofList line)) := by
  have numbered : forall next lines,
      ((List.zipIdx lines next).filterMap Entry.ofSource?).map Entry.tokens =
        (lines.filter isSolid).map fun line => tokensOf (clean (String.ofList line)) := by
    intro next lines
    induction lines generalizing next with
    | nil => rfl
    | cons line rest inductionHypothesis =>
        rw [List.zipIdx_cons]
        cases blank : (clean (String.ofList line)).isEmpty with
        | true =>
            have none : Entry.ofSource? (line, next) = none := by simp [Entry.ofSource?, blank]
            rw [List.filterMap_cons_none none, inductionHypothesis,
              List.filter_cons_of_neg (by simp [isSolid, blank])]
        | false =>
            have own : Entry.ofSource? (line, next) =
                some ⟨next, tokensOf (clean (String.ofList line))⟩ := by
              simp [Entry.ofSource?, blank]
            rw [List.filterMap_cons_some own, List.map_cons, inductionHypothesis,
              List.filter_cons_of_pos (by simp [isSolid, blank]), List.map_cons]
  exact numbered 1 _

theorem entries_eq_zipWith (entries : List Entry) :
    entries = List.zipWith Entry.mk (entries.map Entry.number) (entries.map Entry.tokens) := by
  induction entries with
  | nil => rfl
  | cons entry rest inductionHypothesis =>
      rw [List.map_cons, List.map_cons, List.zipWith_cons_cons, ← inductionHypothesis]

section

variable {before after : String}

theorem length_solidNumbers (same : solidLines after = solidLines before) :
    (solidNumbers before).length = (solidNumbers after).length := by
  have tokens := congrArg List.length (tokens_sourceEntries after)
  rw [same, ← tokens_sourceEntries before, List.length_map, List.length_map] at tokens
  rw [solidNumbers, solidNumbers, List.length_map, List.length_map, tokens]

/-- Relocation takes the lines of one text to those of the other. -/
theorem map_relocate (same : solidLines after = solidLines before) :
    (solidNumbers before).map (relocate before after) = solidNumbers after :=
  map_correspond ((number_increases_sourceEntries before).imp Nat.ne_of_lt)
    (length_solidNumbers same)

theorem relocate_mem (same : solidLines after = solidLines before) {number : Nat}
    (solid : number ∈ solidNumbers before) :
    relocate before after number ∈ solidNumbers after := by
  rw [← map_relocate same]
  exact List.mem_map_of_mem solid

/-- Relocation keeps the order of lines. -/
theorem relocate_lt_iff (same : solidLines after = solidLines before) {first second : Nat}
    (inFirst : first ∈ solidNumbers before) (inSecond : second ∈ solidNumbers before) :
    relocate before after first < relocate before after second <-> first < second :=
  correspond_lt_iff (number_increases_sourceEntries before) (number_increases_sourceEntries after)
    (length_solidNumbers same) inFirst inSecond

/-- Texts with the same solid lines have the same entries, at other numbers. -/
theorem sourceEntries_relocate (same : solidLines after = solidLines before) :
    sourceEntries after =
      (sourceEntries before).map (Entry.renumbered (relocate before after)) := by
  have numbers : (sourceEntries after).map Entry.number =
      ((sourceEntries before).map (Entry.renumbered (relocate before after))).map
        Entry.number := by
    have moved := map_relocate same
    rw [solidNumbers, List.map_map] at moved
    rw [List.map_map]
    exact moved.symm
  have tokens : (sourceEntries after).map Entry.tokens =
      ((sourceEntries before).map (Entry.renumbered (relocate before after))).map
        Entry.tokens := by
    rw [tokens_sourceEntries, same, ← tokens_sourceEntries, List.map_map]
    rfl
  -- numbers and tokens make up the entries
  rw [entries_eq_zipWith (sourceEntries after), numbers, tokens, ← entries_eq_zipWith]

end

/-! ## Directives at other numbers -/

def Finding.renumbered (renumber : Nat -> Nat) : Finding -> Finding
  | .atLine line problem => .atLine (renumber line) problem
  | .programTooLong => .programTooLong

section

variable (renumber : Nat -> Nat)

theorem filter_renumbered (keep : List String -> Bool) (entries : List Entry) :
    (entries.map (Entry.renumbered renumber)).filter (fun entry => keep entry.tokens) =
      (entries.filter fun entry => keep entry.tokens).map (Entry.renumbered renumber) := by
  rw [List.filter_map]
  rfl

theorem declarations_renumbered (directive : Directive) (entries : List Entry) :
    directive.declarations (entries.map (Entry.renumbered renumber)) =
      (entries.filter fun entry => directive.opens entry.tokens).map fun entry =>
        directive.declare (renumber entry.number) entry.tokens.tail := by
  rw [Directive.declarations, filter_renumbered renumber directive.opens, List.map_map]
  rfl

theorem finding?_declare_renumbered (directive : Directive) (number : Nat)
    (operands : List String) :
    (directive.declare (renumber number) operands).finding? =
      (directive.declare number operands).finding?.map (Finding.renumbered renumber) := by
  unfold Directive.declare
  split
  · rfl
  · rfl
  · rfl

/-- Malformed declarations are found at the new numbers. -/
theorem findingsOf_renumbered (directive : Directive) (entries : List Entry) :
    findingsOf (directive.declarations (entries.map (Entry.renumbered renumber))) =
      (findingsOf (directive.declarations entries)).map (Finding.renumbered renumber) := by
  rw [declarations_renumbered, findingsOf, findingsOf, Directive.declarations,
    List.filterMap_map, List.filterMap_map, List.map_filterMap]
  apply List.filterMap_congr
  intro entry _
  exact finding?_declare_renumbered renumber directive entry.number entry.tokens.tail

theorem symbol?_declare_define (number other : Nat) (operands : List String) :
    (Directive.define.declare number operands).symbol? =
      (Directive.define.declare other operands).symbol? := by
  rcases operands with _ | ⟨name, _ | ⟨value, _ | ⟨more, rest⟩⟩⟩
  · rfl
  · rfl
  · rfl
  · rfl

/-- Defines do not depend on line numbers. -/
theorem table_define_renumbered (entries : List Entry) :
    Directive.define.table (entries.map (Entry.renumbered renumber)) =
      Directive.define.table entries := by
  unfold Directive.table symbolsOf
  rw [declarations_renumbered, Directive.declarations, List.filterMap_map, List.filterMap_map]
  congr 1
  apply List.filterMap_congr
  intro entry _
  exact symbol?_declare_define _ _ _

theorem remaining_define_renumbered (entries : List Entry) :
    Directive.define.remaining (entries.map (Entry.renumbered renumber)) =
      (Directive.define.remaining entries).map (Entry.renumbered renumber) := by
  rw [Directive.remaining, table_define_renumbered,
    filter_renumbered renumber fun tokens => !Directive.define.opens tokens,
    Directive.remaining, List.map_map, List.map_map, Entry.substituted_renumbered]

theorem label?_renumbered (entry : Entry) :
    (entry.renumbered renumber).label? =
      entry.label?.map fun declared => (declared.1, renumber declared.2) := by
  rcases entry with ⟨number, tokens⟩
  simp only [Entry.label?, Entry.renumbered]
  split
  · rfl
  · rfl

/-- The names of the labels do not depend on line numbers. -/
theorem mem_names_renumbered (entries : List Entry) (name : String) :
    name ∈ (Directive.label.table (entries.map (Entry.renumbered renumber))).entries.map
        Prod.fst <->
      name ∈ (Directive.label.table entries).entries.map Prod.fst := by
  unfold Directive.table symbolsOf
  rw [SymbolTable.mem_keys_ofList, SymbolTable.mem_keys_ofList, symbols_label, symbols_label,
    List.filterMap_map, List.map_map, List.map_map]
  have same : Entry.label? ∘ Entry.renumbered renumber = fun entry =>
      entry.label?.map fun declared => (declared.1, renumber declared.2) :=
    funext (label?_renumbered renumber)
  rw [same, ← List.map_filterMap, List.map_map]
  rfl

/-- The values of the labels are the new numbers of their declarations. -/
theorem mem_table_label_renumbered {entries : List Entry} {name : String} {number : Nat}
    (declares : Exists fun front => Exists fun back =>
      entries = front ++ ⟨number, ["#label", name]⟩ :: back ∧
        forall later, later ∈ back -> later.tokens ≠ ["#label", name]) :
    (name, Numeral.decimal (renumber number)) ∈
      (Directive.label.table (entries.map (Entry.renumbered renumber))).entries := by
  rcases declares with ⟨front, back, rfl, last⟩
  refine (mem_table_label_iff _ _ _).mpr ⟨front.map (Entry.renumbered renumber),
    renumber number, back.map (Entry.renumbered renumber), ?_, rfl, ?_⟩
  · rw [List.map_append, List.map_cons]
    rfl
  · intro later member
    rcases List.mem_map.mp member with ⟨entry, inBack, rfl⟩
    exact last entry inBack

end

theorem definedEntries_relocate {before after : String}
    (same : solidLines after = solidLines before) :
    definedEntries after =
      (definedEntries before).map (Entry.renumbered (relocate before after)) := by
  rw [definedEntries, sourceEntries_relocate same, remaining_define_renumbered]
  rfl

/-! ## Orders at other numbers -/

/-- The operand of an address load at another number. -/
def relocatedOperand (renumber : Nat -> Nat) (operand : String) : String :=
  match Numeral.Decimal.ofText? operand.toList with
  | some numeral => Numeral.decimal (renumber numeral.value.toNat)
  | none => operand

/-- The tokens of an entry with the target of an address load at another number. -/
def relocatedTokens (renumber : Nat -> Nat) : List String -> List String
  | ["la", target, operand] => ["la", target, relocatedOperand renumber operand]
  | tokens => tokens

def Order.relocated (renumber : Nat -> Nat) : Order -> Order
  | ⟨.loadAddress, [target, operand]⟩ =>
      ⟨.loadAddress, [target, relocatedOperand renumber operand]⟩
  | order => order

/-- An entry at another number, with the target of an address load at another
number. -/
def Entry.relocated (renumber : Nat -> Nat) (entry : Entry) : Entry :=
  ⟨renumber entry.number, relocatedTokens renumber entry.tokens⟩

/-- An order at another number, with the target of an address load at another
number. -/
def relocatedPair (renumber : Nat -> Nat) (placed : Nat × Order) : Nat × Order :=
  (renumber placed.1, placed.2.relocated renumber)

section

variable (renumber : Nat -> Nat)

theorem relocatedOperand_decimal (number : Nat) :
    relocatedOperand renumber (Numeral.decimal number) = Numeral.decimal (renumber number) := by
  have written := Numeral.signedDigits_decimal number
  have value := Numeral.value_of_signedDigits_decimal written
  rw [relocatedOperand, (Numeral.ofText?_eq_some_iff _ _).mpr written]
  simp only [value, Int.toNat_natCast]

theorem relocatedTokens_of_not_load {tokens : List String}
    (other : forall target operand, tokens ≠ ["la", target, operand]) :
    relocatedTokens renumber tokens = tokens := by
  unfold relocatedTokens
  split
  · next target operand => exact absurd rfl (other target operand)
  · rfl

theorem Order.relocated_of_not_load {order : Order}
    (other : forall target operand, order ≠ ⟨.loadAddress, [target, operand]⟩) :
    order.relocated renumber = order := by
  unfold Order.relocated
  split
  · next target operand => exact absurd rfl (other target operand)
  · rfl

/-- Relocated tokens stand for the relocated order. -/
theorem orderOf_relocatedTokens (tokens : List String) :
    orderOf (relocatedTokens renumber tokens) =
      (orderOf tokens).map (Order.relocated renumber) := by
  by_cases loads : Exists fun target => Exists fun operand => tokens = ["la", target, operand]
  · rcases loads with ⟨target, operand, rfl⟩
    have own := orderOf_tokens ⟨.loadAddress, [target, operand]⟩
    have moved := orderOf_tokens ⟨.loadAddress, [target, relocatedOperand renumber operand]⟩
    exact moved.trans (congrArg (Except.map (Order.relocated renumber)) own).symm
  · rw [relocatedTokens_of_not_load renumber
      fun target operand same => loads ⟨target, operand, same⟩]
    cases ordered : orderOf tokens with
    | error problem => rfl
    | ok order =>
        rw [Except.map, Order.relocated_of_not_load]
        rintro target operand rfl
        exact loads ⟨target, operand, tokens_of_loadAddress ordered⟩

theorem numberedOrder?_relocated (entry : Entry) :
    (entry.relocated renumber).numberedOrder? =
      entry.numberedOrder?.map (relocatedPair renumber) := by
  unfold Entry.numberedOrder? Entry.relocated
  rw [orderOf_relocatedTokens]
  cases orderOf entry.tokens <;> rfl

theorem resolveFindings_relocated (entry : Entry) :
    (entry.relocated renumber).resolveFindings =
      entry.resolveFindings.map (Finding.renumbered renumber) := by
  unfold Entry.resolveFindings Entry.relocated
  rw [orderOf_relocatedTokens]
  cases orderOf entry.tokens <;> rfl

/-- Only an address load looks at the lines of its program. -/
theorem encodeOrder_of_not_load (lines others : List Line) {order : Order}
    (other : forall target operand, order ≠ ⟨.loadAddress, [target, operand]⟩) :
    encodeOrder lines order = encodeOrder others order := by
  cases order.hasForm with
  | calculate op first second third => rfl
  | immediate op first second => rfl
  | memory op first second => rfl
  | loadAddress target operand => exact absurd rfl (other target operand)
  | miscounted command operands wrong =>
      rw [encodeOrder_of_wrong_count lines wrong, encodeOrder_of_wrong_count others wrong]

end

/-! ## Targets at other numbers -/

/-- Numbers in the same order lead to the same place. -/
theorem landing_map (renumber : Nat -> Nat) {numbers : List Nat} {number : Nat}
    (ordered : forall other, other ∈ numbers ->
      (renumber other < renumber number <-> other < number)) :
    landing (numbers.map renumber) (renumber number) = landing numbers number := by
  have reached : (numbers.map renumber).any
      (fun other : Nat => (renumber number : Int) ≤ (other : Int)) =
        numbers.any (fun other : Nat => (number : Int) ≤ (other : Int)) := by
    apply Bool.eq_iff_iff.mpr
    simp only [List.any_map, List.any_eq_true, Function.comp, decide_eq_true_eq]
    apply exists_congr
    intro other
    apply and_congr_right
    intro listed
    have before := ordered other listed
    omega
  have place : ((numbers.map renumber).countP
      fun other : Nat => (other : Int) < (renumber number : Int)) =
        numbers.countP fun other : Nat => (other : Int) < (number : Int) := by
    rw [List.countP_map]
    apply List.countP_congr
    intro other listed
    have before := ordered other listed
    simp only [Function.comp, decide_eq_true_eq]
    omega
  rw [landing, landing, reached, place]

/-- A positive line number that is short enough is read back. -/
theorem targetLine_decimal {number : Nat} (positive : 1 ≤ number)
    (short : number < Nat.pow 10 Numeral.digitLimit) :
    targetLine (Numeral.decimal number) = .ok ((number : Int), []) := by
  have written := Numeral.signedDigits_decimal number
  have readable : Numeral.Decimal.isReadable
      ⟨decide ((number : Int) < 0), Nat.toDigits 10 (number : Int).natAbs⟩ = true :=
    decide_eq_true (Numeral.length_toDigits_le (by decide) short)
  exact (targetLine_eq_clear_iff _ _).mpr ⟨_, (Numeral.ofText?_eq_some_iff _ _).mpr written,
    readable, Numeral.value_of_signedDigits_decimal written, by omega⟩

/-- A line number that is read at all is read back. -/
theorem targetLine_decimal_of_ok {number : Nat} (positive : 1 ≤ number)
    (reads : Exists fun result => targetLine (Numeral.decimal number) = .ok result) :
    targetLine (Numeral.decimal number) = .ok ((number : Int), []) := by
  rcases reads with ⟨⟨line, problems⟩, named⟩
  rcases targetLine_eq_ok named with
    ⟨malformed, -⟩ | ⟨numeral, written, ⟨low, -⟩ | ⟨-, rfl, rfl⟩⟩
  · exact absurd (Numeral.signedDigits_decimal number) (malformed _)
  · rw [Numeral.value_of_signedDigits_decimal written] at low
    omega
  · rw [named, Numeral.value_of_signedDigits_decimal written]

/-! ## Texts whose orders are encoded alike -/

section

variable {before after : String} {renumber : Nat -> Nat} {move : Order -> Order}
  (orders : numberedOrders after =
    (numberedOrders before).map fun placed => (renumber placed.1, move placed.2))
  (alike : forall placed, placed ∈ numberedOrders before ->
    encodeOrder (placedLines after) (move placed.2) = encodeOrder (placedLines before) placed.2)

include orders alike

theorem exists_assembly_of_alike {assembly : Assembly} (returned : assemble before = .ok assembly) :
    Exists fun moved => assemble after = .ok moved := by
  apply (exists_assembly_iff after).mpr
  intro entry order listed ordered
  have member := (mem_numberedOrders_iff _ _ _).mpr ⟨entry, listed, rfl, ordered⟩
  rw [orders] at member
  rcases List.mem_map.mp member with ⟨placed, inBefore, same⟩
  rw [Prod.mk.injEq] at same
  rw [← same.2, alike placed inBefore]
  exact exists_encoding_of_mem_numberedOrders returned inBefore

theorem programWords_of_alike {assembly moved : Assembly}
    (returned : assemble before = .ok assembly) (movedReturned : assemble after = .ok moved) :
    programWords moved.lines = programWords assembly.lines := by
  rw [programWords_eq movedReturned, programWords_eq returned, ← map_snd_numberedOrders,
    ← map_snd_numberedOrders, orders, List.map_map, List.map_map, List.map_map]
  apply List.map_congr_left
  intro placed member
  simp only [Function.comp, orderWord, alike placed member]

theorem image_of_alike {assembly moved : Assembly}
    (returned : assemble before = .ok assembly) (movedReturned : assemble after = .ok moved) :
    moved.image = assembly.image := by
  rw [image_eq_buildImage movedReturned, image_eq_buildImage returned, buildImage_eq, buildImage_eq,
    programWords_of_alike orders alike returned movedReturned]

theorem encodeFindings_of_alike :
    encodeFindings (placedLines after) (numberedOrders after) =
      (encodeFindings (placedLines before) (numberedOrders before)).map
        (Finding.renumbered renumber) := by
  rw [encodeFindings, orders, List.flatMap_map, encodeFindings, List.map_flatMap]
  apply List.flatMap_congr
  intro placed member
  rw [List.map_map, orderProblems, alike placed member]
  rfl

/-- When the passes before encoding find the same at the new numbers, so does the
whole assembly. -/
theorem findings_of_alike {assembly moved : Assembly} (returned : assemble before = .ok assembly)
    (movedReturned : assemble after = .ok moved)
    (defines : findingsOf (Directive.define.declarations (sourceEntries after)) =
      (findingsOf (Directive.define.declarations (sourceEntries before))).map
        (Finding.renumbered renumber))
    (labels : findingsOf (Directive.label.declarations (definedEntries after)) =
      (findingsOf (Directive.label.declarations (definedEntries before))).map
        (Finding.renumbered renumber))
    (resolved : (commandEntries after).flatMap Entry.resolveFindings =
      ((commandEntries before).flatMap Entry.resolveFindings).map
        (Finding.renumbered renumber)) :
    moved.findings = assembly.findings.map (Finding.renumbered renumber) := by
  have whole : imageFindings moved.lines =
      (imageFindings assembly.lines).map (Finding.renumbered renumber) := by
    rw [imageFindings_eq, imageFindings_eq,
      programWords_of_alike orders alike returned movedReturned]
    split
    · rfl
    · rfl
  rw [findings_eq movedReturned, findings_eq returned, defines, labels, resolved,
    encodeFindings_of_alike orders alike, whole]
  simp only [List.map_append]

end

end NibbleMachine
