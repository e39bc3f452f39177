import NibbleMachine.Proofs.Image

namespace NibbleMachine

/-!
# Assemblies up to the texts of their lines

A line keeps the text it was read from, and after it has been cut nothing reads
that text again.  So the later passes do the same to lines that differ in their
texts only.  The layout and the encoding of lines without texts are those of the
lines, without their texts, and a fault is met at the same line.

An assembly without its texts is therefore decided by the resolved lines without
their texts, the tables of symbols and the findings so far.  Everything else
about a line is compared: its number, whether it is valid, its tokens, its order,
its position and its nibbles.
-/

def Line.withoutText (line : Line) : Line :=
  { line with text := "" }

def Assembly.withoutTexts (assembly : Assembly) : Assembly :=
  { assembly with lines := assembly.lines.map Line.withoutText }

/-! ## Layout -/

theorem layoutFrom_withoutText (next : Nat) (lines : List Line) :
    layoutFrom next (lines.map Line.withoutText) =
      (layoutFrom next lines).map Line.withoutText := by
  induction lines generalizing next with
  | nil => rfl
  | cons line rest inductionHypothesis =>
      have kept : line.withoutText.valid = line.valid := rfl
      rw [List.map_cons, layoutFrom, layoutFrom, kept]
      split
      · rw [List.map_cons, inductionHypothesis]
        rfl
      · rw [List.map_cons, inductionHypothesis]

/-! ## Encoding -/

section

variable (erase : Line -> Line) (keepsValid : forall line, (erase line).valid = line.valid)
  (keepsPosition : forall line, (erase line).position = line.position)

include keepsValid

theorem nextValid?_erased (lines : List Line) (number : Int) :
    nextValid? (lines.map erase) number = (nextValid? lines number).map erase := by
  have dropped : fromIndex (lines.map erase) (number - 1) =
      (fromIndex lines (number - 1)).map erase := by
    unfold fromIndex
    rw [List.length_map]
    split
    · rw [List.map_drop]
    · rw [List.map_drop]
  have sameValid : Line.valid ∘ erase = Line.valid := funext keepsValid
  rw [nextValid?, dropped, List.find?_map, sameValid]
  rfl

include keepsPosition

theorem targetPosition_erased (lines : List Line) (number : Int) :
    targetPosition (lines.map erase) number = targetPosition lines number := by
  unfold targetPosition
  rw [nextValid?_erased erase keepsValid]
  cases nextValid? lines number with
  | some line => simp only [Option.map_some, keepsPosition]
  | none =>
      cases lines with
      | nil => rfl
      | cons first rest => simp only [Option.map_none, List.map_cons, keepsPosition]

/-- Encoding an order looks at the validity and the positions of lines only. -/
theorem encodeOrder_erased (lines : List Line) (order : Order) :
    encodeOrder (lines.map erase) order = encodeOrder lines order := by
  have targets : forall operand,
      resolveTarget (lines.map erase) operand = resolveTarget lines operand := by
    intro operand
    simp only [resolveTarget, targetPosition_erased erase keepsValid keepsPosition]
  rcases order with ⟨command, operands⟩
  unfold encodeOrder
  simp only [targets]

end

theorem encodeOrder_withoutText (lines : List Line) (order : Order) :
    encodeOrder (lines.map Line.withoutText) order = encodeOrder lines order :=
  encodeOrder_erased Line.withoutText (fun _ => rfl) (fun _ => rfl) lines order

/-- The encoded lines serve as well as those that were laid out. -/
theorem encodeOrder_lines {text : String} {assembly : Assembly}
    (returned : assemble text = .ok assembly) (order : Order) :
    encodeOrder assembly.lines order = encodeOrder (placedLines text) order := by
  rw [← encodeOrder_erased Line.unencoded (fun _ => rfl) (fun _ => rfl) assembly.lines,
    map_unencoded_lines returned,
    encodeOrder_erased Line.unencoded (fun _ => rfl) (fun _ => rfl) (placedLines text)]

/-- The step of the encoding at a line without its text. -/
theorem encodeLine_withoutText (lines : List Line) (line : Line) :
    encodeLine (lines.map Line.withoutText) line.withoutText =
      (encodeLine lines line).map fun step => (step.1.withoutText, step.2) := by
  have order : line.withoutText.order = line.order := rfl
  have tokens : line.withoutText.tokens = line.tokens := rfl
  unfold encodeLine
  rw [order, tokens]
  cases line.order with
  | none => rfl
  | some order =>
      simp only [encodeOrder_withoutText, bind, Except.bind]
      cases encodeOrder lines order with
      | error fault => rfl
      | ok encoding =>
          dsimp only
          cases showResolved line.tokens encoding.resolved with
          | error fault => rfl
          | ok shown => rfl

/-- A sweep whose step does not look at something goes the same way without it. -/
theorem complete_sweep_erased {Note : Type} (erase : Line -> Line)
    (keepsValid : forall line, (erase line).valid = line.valid)
    {visit visitErased : Line -> Except Fault (Line × List Note)}
    (ignores : forall line,
      visitErased (erase line) = (visit line).map fun step => (erase step.1, step.2))
    (lines : List Line) :
    (sweep visitErased (lines.map erase)).complete =
      (sweep visit lines).complete.map fun swept => (swept.1.map erase, swept.2) := by
  have steps : forall line, visitOrKeep visitErased (erase line) =
      (visitOrKeep visit line).map fun step => (erase step.1, step.2) := by
    intro line
    unfold visitOrKeep
    rw [keepsValid]
    split
    · exact ignores line
    · rfl
  induction lines with
  | nil => rfl
  | cons line rest inductionHypothesis =>
      rw [List.map_cons, sweep_cons, sweep_cons, steps, inductionHypothesis]
      cases visitOrKeep visit line with
      | error fault => rfl
      | ok step =>
          cases (sweep visit rest).complete with
          | error fault => rfl
          | ok later => rfl

theorem complete_encodeLines_withoutText (lines : List Line) :
    (encodeLines (lines.map Line.withoutText)).complete =
      (encodeLines lines).complete.map fun encoded =>
        (encoded.1.map Line.withoutText, encoded.2) :=
  complete_sweep_erased Line.withoutText (fun _ => rfl) (encodeLine_withoutText lines) lines

theorem programWords_withoutText (lines : List Line) :
    programWords (lines.map Line.withoutText) = programWords lines :=
  map_validLines_erased Line.withoutText (fun _ => rfl) Line.word (fun _ => rfl) lines

/-! ## Assemblies -/

theorem encodedAssembly_withoutText (text : String) (lines : List Line)
    (findings : List Finding) :
    (encodedAssembly text lines findings).withoutTexts =
      encodedAssembly text (lines.map Line.withoutText) findings := by
  have words := programWords_withoutText lines
  simp only [encodedAssembly, Assembly.withoutTexts, buildImage_eq, imageFindings_eq, words]

/-- An assembly without its texts is decided by the resolved lines without theirs. -/
theorem assemble_withoutTexts (text : String) :
    (assemble text).map Assembly.withoutTexts =
      (encodeLines (layout ((resolvedLines text).map Line.withoutText))).complete.map
        fun encoded => encodedAssembly text encoded.1 encoded.2 := by
  rw [assemble_eq, layout, layoutFrom_withoutText, complete_encodeLines_withoutText]
  have placed : placedLines text = layoutFrom 0 (resolvedLines text) := rfl
  rw [placed]
  cases (encodeLines (layoutFrom 0 (resolvedLines text))).complete with
  | error fault => rfl
  | ok encoded => exact congrArg Except.ok (encodedAssembly_withoutText text encoded.1 encoded.2)

/-- Two texts with the same resolved lines up to texts, the same symbols and the
same findings before encoding have the same assembly up to texts. -/
theorem assemble_withoutTexts_congr {before after : String}
    (lines : (resolvedLines after).map Line.withoutText =
      (resolvedLines before).map Line.withoutText)
    (defines : Directive.define.table (sourceEntries after) =
      Directive.define.table (sourceEntries before))
    (labels : Directive.label.table (definedEntries after) =
      Directive.label.table (definedEntries before))
    (early : earlyFindings after = earlyFindings before) :
    (assemble after).map Assembly.withoutTexts = (assemble before).map Assembly.withoutTexts := by
  have assemblies : encodedAssembly after = encodedAssembly before := by
    funext encoded findings
    simp only [encodedAssembly, defines, labels, early]
  rw [assemble_withoutTexts, assemble_withoutTexts, lines, assemblies]

end NibbleMachine
