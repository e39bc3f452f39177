import NibbleMachine.Assembly
import NibbleMachine.Image.Reader

namespace NibbleMachine
namespace Text

/-!
# Lines and their ends

Three texts end a line: a line feed, a carriage return, and the pair of both.  A
text in which one of them ends or separates unbroken lines is cut into these
lines.  The only interference is between the ends themselves.  A carriage return
joins a line feed behind it, so lines ended by carriage returns stay apart
because no line feed stands among them.

Cutting cannot tell the three ends from each other.  Writing every end as one line
feed, first the pairs and then the carriage returns that are left, is a single
pass over the text, and it keeps the lines.  Whatever reads a text by its lines
only, as the assembler and the image reader do, does not notice it.
-/

/-! ## Cutting at an end -/

theorem lines_cons_of_unbroken {c : Char} (unbroken : c ≠ '\r' ∧ c ≠ '\n') (rest : List Char) :
    lines (c :: rest) = extendFirst c (lines rest) := by
  rw [lines, if_neg (by simp [unbroken])]
  intro pair first
  exact absurd first unbroken.1

/-- Characters that end no line belong to the line that goes on behind them. -/
theorem lines_append_of_break {line tail : List Char} {later : List (List Char)}
    (unbroken : forall c, c ∈ line -> c ≠ '\r' ∧ c ≠ '\n') (broken : lines tail = [] :: later) :
    lines (line ++ tail) = line :: later := by
  induction line with
  | nil => exact broken
  | cons c others inductionHypothesis =>
      rw [List.forall_mem_cons] at unbroken
      rw [List.cons_append, lines_cons_of_unbroken unbroken.1, inductionHypothesis unbroken.2]
      rfl

theorem lines_of_unbroken {line : List Char} (nonempty : line ≠ [])
    (unbroken : forall c, c ∈ line -> c ≠ '\r' ∧ c ≠ '\n') : lines line = [line] := by
  induction line with
  | nil => exact absurd rfl nonempty
  | cons c others inductionHypothesis =>
      rw [List.forall_mem_cons] at unbroken
      rw [lines_cons_of_unbroken unbroken.1]
      cases others with
      | nil => rfl
      | cons next rest =>
          rw [inductionHypothesis (List.cons_ne_nil next rest) unbroken.2]
          rfl

def lineEnds : List (List Char) :=
  [['\n'], ['\r', '\n'], ['\r']]

theorem lines_lineEnd_append {lineEnd rest : List Char} (listed : lineEnd ∈ lineEnds)
    (apart : lineEnd = ['\r'] -> '\n' ∉ rest) : lines (lineEnd ++ rest) = [] :: lines rest := by
  simp only [lineEnds, List.mem_cons, List.not_mem_nil, or_false] at listed
  rcases listed with rfl | rfl | rfl
  · simp [lines]
  · simp [lines]
  · have single : forall tail, '\r' = '\r' -> rest = '\n' :: tail -> False := by
      rintro tail - rfl
      exact apart rfl List.mem_cons_self
    rw [List.singleton_append, lines.eq_3 _ _ single]
    rfl

/-! ## Lines written one after the other -/

theorem intercalate_concat (separator : List Char) (front : List (List Char)) (last : List Char) :
    List.intercalate separator (front ++ [last]) =
      (front.flatMap fun row => row ++ separator) ++ last := by
  induction front with
  | nil => simp
  | cons row rest inductionHypothesis =>
      rw [List.cons_append, List.intercalate_cons_of_ne_nil (by simp), inductionHypothesis,
        List.flatMap_cons, List.append_assoc (row ++ separator)]

section

variable {lineEnd : List Char} (listed : lineEnd ∈ lineEnds) {rows : List (List Char)}
  (unbroken : forall row, row ∈ rows -> forall c, c ∈ row -> c ≠ '\r' ∧ c ≠ '\n')

include listed unbroken

/-- Lines that are all ended the same way are cut off the rest of a text. -/
theorem lines_ended_append {last : List Char}
    (lastUnbroken : forall c, c ∈ last -> c ≠ '\r' ∧ c ≠ '\n') :
    lines ((rows.flatMap fun row => row ++ lineEnd) ++ last) = rows ++ lines last := by
  induction rows with
  | nil => rfl
  | cons row rest inductionHypothesis =>
      rw [List.forall_mem_cons] at unbroken
      have apart : lineEnd = ['\r'] ->
          '\n' ∉ (rest.flatMap fun row => row ++ lineEnd) ++ last := by
        rintro rfl feed
        rcases List.mem_append.mp feed with ended | inLast
        · rcases List.mem_flatMap.mp ended with ⟨other, inRest, inOther⟩
          rcases List.mem_append.mp inOther with inRow | inEnd
          · exact (unbroken.2 other inRest '\n' inRow).2 rfl
          · exact absurd (List.mem_singleton.mp inEnd) (by decide)
        · exact (lastUnbroken '\n' inLast).2 rfl
      rw [List.flatMap_cons, List.append_assoc, List.append_assoc,
        lines_append_of_break unbroken.1 (lines_lineEnd_append listed apart),
        inductionHypothesis unbroken.2, List.cons_append]

/-- Lines are cut from the text in which each of them is ended. -/
theorem lines_ended : lines (rows.flatMap fun row => row ++ lineEnd) = rows := by
  have cut : lines ((rows.flatMap fun row => row ++ lineEnd) ++ []) = rows ++ lines [] :=
    lines_ended_append listed unbroken fun _ member => nomatch member
  rwa [List.append_nil, lines, List.append_nil] at cut

/-- Lines are cut from the text that joins them, up to an empty last one. -/
theorem lines_joined :
    lines (List.intercalate lineEnd rows) =
      if rows.getLast? = some [] then rows.dropLast else rows := by
  rcases List.eq_nil_or_concat rows with rfl | ⟨front, last, rfl⟩
  · rfl
  · rw [List.concat_eq_append] at unbroken ⊢
    have parts := List.forall_mem_append.mp unbroken
    have lastUnbroken := parts.2 last List.mem_cons_self
    rw [intercalate_concat, lines_ended_append listed parts.1 lastUnbroken, List.getLast?_concat,
      List.dropLast_concat]
    by_cases empty : last = []
    · rw [if_pos (congrArg some empty), empty, lines, List.append_nil]
    · rw [if_neg fun same => empty (Option.some.inj same), lines_of_unbroken empty lastUnbroken]

end

/-- Lines that are neither empty nor broken are cut from the text that joins
them by line feeds. -/
theorem lines_intercalate (texts : List (List Char))
    (solid : forall text, text ∈ texts ->
      text ≠ [] ∧ forall c, c ∈ text -> c ≠ '\r' ∧ c ≠ '\n') :
    lines (List.intercalate ['\n'] texts) = texts := by
  rw [lines_joined (by decide) fun text member => (solid text member).2]
  apply if_neg
  intro last
  exact (solid [] (List.mem_of_getLast? last)).1 rfl

/-! ## Writing every end the same way -/

/-- The style of line ends does not matter to the lines. -/
theorem lines_unifyLineEnds (text : List Char) : lines (unifyLineEnds text) = lines text := by
  induction text using lines.induct with
  | case1 => rfl
  | case2 rest inductionHypothesis => simp [unifyLineEnds, lines, inductionHypothesis]
  | case3 c rest single ends inductionHypothesis =>
      have unified : unifyLineEnds (c :: rest) = '\n' :: unifyLineEnds rest := by
        rw [unifyLineEnds]
        · rcases Bool.or_eq_true_iff.mp ends with carriage | feed
          · rw [if_pos (of_decide_eq_true carriage)]
          · rw [of_decide_eq_true feed]
            rfl
        · exact single
      have feed : ['\n'] ∈ lineEnds := List.mem_cons_self
      rw [unified, lines.eq_3 c rest single, if_pos ends, ← inductionHypothesis]
      exact lines_lineEnd_append feed fun carriage => nomatch carriage
  | case4 c rest single continues inductionHypothesis =>
      have unbroken : c ≠ '\r' ∧ c ≠ '\n' := by simpa using continues
      have unified : unifyLineEnds (c :: rest) = c :: unifyLineEnds rest := by
        rw [unifyLineEnds, if_neg unbroken.1]
        exact single
      rw [unified, lines_cons_of_unbroken unbroken, lines_cons_of_unbroken unbroken,
        inductionHypothesis]

/-- Replacing the pairs and then the carriage returns that are left unifies the ends. -/
theorem replace_lineEnds (text : List Char) :
    replace ['\r'] ['\n'] (replace ['\r', '\n'] ['\n'] text) = unifyLineEnds text := by
  rw [replace_eq_replaceFrom (List.cons_ne_nil _ _), replace_eq_replaceFrom (List.cons_ne_nil _ _)]
  induction text using unifyLineEnds.induct with
  | case1 => rfl
  | case2 rest inductionHypothesis =>
      rw [unifyLineEnds, ← inductionHypothesis]
      simp [replaceFrom]
  | case3 c rest single inductionHypothesis =>
      have notPair : List.isPrefixOf ['\r', '\n'] (c :: rest) = false := by
        apply eq_false_of_ne_true
        intro pair
        rcases List.isPrefixOf_iff_prefix.mp pair with ⟨tail, shape⟩
        rcases List.cons.inj shape with ⟨carriage, behind⟩
        exact single tail carriage.symm behind.symm
      rw [unifyLineEnds, ← inductionHypothesis, replaceFrom, if_neg (by simp [notPair])]
      · by_cases carriage : c = '\r'
        · simp [replaceFrom, carriage]
        · simp [replaceFrom, carriage, Ne.symm carriage]
      · exact single

/-- A text with every line end written as a line feed: the pairs are replaced first,
then the carriage returns that are left. -/
def withLineFeeds (text : String) : String :=
  String.ofList (replace ['\r'] ['\n'] (replace ['\r', '\n'] ['\n'] text.toList))

theorem lines_withLineFeeds (text : String) :
    lines (withLineFeeds text).toList = lines text.toList := by
  rw [withLineFeeds, String.toList_ofList, replace_lineEnds, lines_unifyLineEnds]

end Text

/-! ## What reads a text by its lines -/

/-- Assembling depends on the lines of a text only. -/
theorem assemble_of_lines {text other : String}
    (same : Text.lines text.toList = Text.lines other.toList) :
    assemble text = assemble other := by
  rw [assemble, assemble, preparedLines, preparedLines, loadLines, loadLines, same]

theorem loadImage_of_lines {text other : String}
    (same : Text.lines text.toList = Text.lines other.toList) :
    loadImage text = loadImage other := by
  rw [loadImage, loadImage, same]

/-- The style of line ends does not matter.  A text and the text with every end written as
a line feed have the same lines, so they are assembled alike and read alike as images.  And
lines that hold no line end are cut from the text in which any of the three ends each of
them, and from the text that joins them by it, where one empty line at the end is lost. -/
theorem line_ends_do_not_matter :
    (forall text : String,
        Text.lines (Text.withLineFeeds text).toList = Text.lines text.toList ∧
          assemble (Text.withLineFeeds text) = assemble text ∧
          loadImage (Text.withLineFeeds text) = loadImage text) ∧
      forall (rows : List String) (lineEnd : String), lineEnd ∈ ["\n", "\r\n", "\r"] ->
        (forall row, row ∈ rows -> '\r' ∉ row.toList ∧ '\n' ∉ row.toList) ->
        Text.lines (String.join (rows.map fun row => row ++ lineEnd)).toList =
            rows.map String.toList ∧
          Text.lines (String.intercalate lineEnd rows).toList =
            (if rows.getLast? = some "" then rows.dropLast else rows).map String.toList := by
  constructor
  · intro text
    have same := Text.lines_withLineFeeds text
    exact ⟨same, assemble_of_lines same, loadImage_of_lines same⟩
  · intro rows lineEnd listed free
    have isEnd : lineEnd.toList ∈ ["\n", "\r\n", "\r"].map String.toList :=
      List.mem_map_of_mem listed
    have unbroken : forall row, row ∈ rows.map String.toList ->
        forall c, c ∈ row -> c ≠ '\r' ∧ c ≠ '\n' := by
      intro row member c inRow
      rcases List.mem_map.mp member with ⟨source, inRows, rfl⟩
      have absent := free source inRows
      exact ⟨fun carriage => absent.1 (carriage ▸ inRow), fun feed => absent.2 (feed ▸ inRow)⟩
    have ended : (String.join (rows.map fun row => row ++ lineEnd)).toList =
        (rows.map String.toList).flatMap fun row => row ++ lineEnd.toList := by
      rw [String.toList_join, List.flatMap_map, List.flatMap_map]
      simp only [String.toList_append]
    have lastEmpty : (rows.map String.toList).getLast? = some [] <-> rows.getLast? = some "" := by
      rw [List.getLast?_map, Option.map_eq_some_iff]
      constructor
      · rintro ⟨last, found, empty⟩
        rw [found, String.toList_eq_nil_iff.mp empty]
      · intro found
        exact ⟨"", found, rfl⟩
    rw [ended, String.toList_intercalate]
    refine ⟨Text.lines_ended isEnd unbroken, ?_⟩
    rw [Text.lines_joined isEnd unbroken, ← List.map_dropLast]
    simp only [lastEmpty]
    split
    · rfl
    · rfl

/-- A lone carriage return before a pair ends a line of its own, and of two empty lines at
the end one is kept. -/
theorem line_ends_do_not_matter_of_samples :
    Text.lines (Text.withLineFeeds "a\r\r\nb\r").toList = [['a'], [], ['b']] ∧
      assemble (Text.withLineFeeds "nop\r\r\nnop\r") = assemble "nop\r\r\nnop\r" ∧
      Text.lines "a\r\rb\r".toList = [['a'], [], ['b']] ∧
      Text.lines (String.intercalate "\r" ["a", "", ""]).toList = [['a'], []] := by
  rcases line_ends_do_not_matter with ⟨unified, written⟩
  refine ⟨?_, (unified "nop\r\r\nnop\r").2.1, ?_, ?_⟩
  · rw [(unified "a\r\r\nb\r").1]
    decide +kernel
  · exact (written ["a", "", "b"] "\r" (by decide) (by decide)).1
  · exact (written ["a", "", ""] "\r" (by decide) (by decide)).2

end NibbleMachine
