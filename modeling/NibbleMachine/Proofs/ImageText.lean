import NibbleMachine.Image.Reader
import NibbleMachine.Proofs.Image
import NibbleMachine.Proofs.Instruction
import NibbleMachine.Proofs.LineEnds

namespace NibbleMachine

/-!
# Image texts

Writing an image and reading one are inverse to each other as far as both can be.  Words
of sixteen bits are written as rows of sixteen binary digits and read back.  Any other
integer is written as a row that is not one of a word: a larger one takes more digits and
a negative one begins with a sign, which counts in the width.  So the line at which
reading stops tells which word was out of range.

A text that can be read need not be one that was written.  It may hold blank lines and
blanks around the rows, and these are all that reading loses.  Rows of equal length with
equal values are equal, so no other row is read as the same word.
-/

/-! ## Rows -/

/-- Sixteen binary digits. -/
def IsWordRow (row : List Char) : Prop :=
  row.length = 16 ∧ forall c, c ∈ row -> c = '0' ∨ c = '1'

theorem isWordText_iff (row : List Char) : isWordText row = true <-> IsWordRow row := by
  simp [isWordText, IsWordRow, wordBits]

/-- An integer is written as the row of a word exactly when it has sixteen bits. -/
theorem isWordRow_binaryDigits_iff (word : Int) :
    IsWordRow (Numeral.binaryDigits wordBits word) <-> 0 ≤ word ∧ word ≤ 65535 := by
  constructor
  · rintro ⟨length, binary⟩
    have notNegative : ¬ word < 0 := by
      intro negative
      rw [Numeral.binaryDigits, if_pos negative, List.forall_mem_cons] at binary
      rcases binary.1 with zero | one
      · exact absurd zero (by decide)
      · exact absurd one (by decide)
    rw [Numeral.binaryDigits, if_neg notNegative, List.length_append, List.length_replicate]
      at length
    have short : (Nat.toDigits 2 word.natAbs).length ≤ 16 := by omega
    have bound := (Nat.length_toDigits_le_iff (by decide) (by decide)).mp short
    omega
  · rintro ⟨least, greatest⟩
    exact binaryDigits_of_word ⟨least, Int.lt_add_one_of_le greatest⟩

/-- Binary digits in equal number are told apart by their value. -/
theorem ofDigitChars_two_injective {first second : List Char}
    (lengths : first.length = second.length) (binary : forall c, c ∈ first -> c = '0' ∨ c = '1')
    (alsoBinary : forall c, c ∈ second -> c = '0' ∨ c = '1') {start other : Nat}
    (same : Nat.ofDigitChars 2 first start = Nat.ofDigitChars 2 second other) :
    start = other ∧ first = second := by
  induction first generalizing second start other with
  | nil =>
      cases second with
      | nil => exact ⟨same, rfl⟩
      | cons c rest => cases lengths
  | cons c rest inductionHypothesis =>
      cases second with
      | nil => cases lengths
      | cons d others =>
          rw [List.forall_mem_cons] at binary alsoBinary
          rw [Nat.ofDigitChars_cons, Nat.ofDigitChars_cons] at same
          rcases inductionHypothesis (Nat.succ.inj lengths) binary.2 alsoBinary.2 same with
            ⟨starts, rfl⟩
          have zero : '0'.toNat - '0'.toNat = 0 := rfl
          have one : '1'.toNat - '0'.toNat = 1 := rfl
          rcases binary.1 with rfl | rfl <;> rcases alsoBinary.1 with rfl | rfl
          · exact ⟨by omega, rfl⟩
          · omega
          · omega
          · exact ⟨by omega, rfl⟩

theorem ofBinaryDigits_lt {row : List Char} (isRow : IsWordRow row) :
    Numeral.ofBinaryDigits row < 65536 := by
  have digits : forall c, c ∈ row -> c.toNat - '0'.toNat < 2 := by
    intro c member
    rcases isRow.2 c member with rfl | rfl <;> decide
  have bound := Numeral.ofDigitChars_lt digits 0
  rw [isRow.1] at bound
  exact bound

/-- The word that a row stands for is written as that row. -/
theorem binaryDigits_ofBinaryDigits {row : List Char} (isRow : IsWordRow row) :
    Numeral.binaryDigits wordBits (Numeral.ofBinaryDigits row) = row := by
  have small := ofBinaryDigits_lt isRow
  have written := (isWordRow_binaryDigits_iff (Numeral.ofBinaryDigits row)).mpr (by omega)
  exact (ofDigitChars_two_injective (written.1.trans isRow.1.symm) written.2 isRow.2
    (Numeral.ofBinaryDigits_binaryDigits wordBits _)).2

/-- The row of an integer holds no blank. -/
theorem solid_binaryDigits (word : Int) :
    forall c, c ∈ Numeral.binaryDigits wordBits word -> Text.isBlank c = false := by
  have plain := (isPlainToken_wordText word).2
  rw [wordText, Numeral.binary, String.toList_ofList] at plain
  intro c member
  exact ((isTokenChar_iff c).mp (plain c member)).2.2.2

theorem trim_binaryDigits (word : Int) :
    Text.trim (Numeral.binaryDigits wordBits word) = Numeral.binaryDigits wordBits word :=
  Text.trimBy_of_kept (solid_binaryDigits word)

theorem lines_renderWords (words : List Int) :
    Text.lines (renderWords words).toList = words.map (Numeral.binaryDigits wordBits) := by
  rw [renderWords_toList]
  apply Text.lines_ended List.mem_cons_self
  intro row listed c member
  rcases List.mem_map.mp listed with ⟨word, -, rfl⟩
  have solid := solid_binaryDigits word c member
  constructor
  · rintro rfl
    cases solid
  · rintro rfl
    cases solid

/-! ## Reading lines -/

/-- A line of an image text: blank, or the row of a word with blanks around it. -/
def IsImageLine (line : List Char) : Prop :=
  Text.trim line = [] ∨ IsWordRow (Text.trim line)

instance decidableIsImageLine (line : List Char) : Decidable (IsImageLine line) :=
  decidable_of_iff (((Text.trim line).isEmpty || isWordText (Text.trim line)) = true)
    (by rw [Bool.or_eq_true, List.isEmpty_iff, isWordText_iff, IsImageLine])

/-- The rows of lines, without the blanks around them and without blank lines. -/
def rowsOf (lines : List (List Char)) : List (List Char) :=
  (lines.map Text.trim).filter fun row => !row.isEmpty

theorem IsWordRow.not_isEmpty {row : List Char} (isRow : IsWordRow row) : row.isEmpty = false := by
  cases row with
  | nil => exact absurd isRow.1 (by decide)
  | cons c rest => rfl

theorem readWords_of_lines {lines : List (List Char)}
    (all : forall line, line ∈ lines -> IsImageLine line) (number : Nat) :
    readWords number lines =
      .ok ((rowsOf lines).map fun row => (Numeral.ofBinaryDigits row : Int)) := by
  induction lines generalizing number with
  | nil => rfl
  | cons line rest inductionHypothesis =>
      rw [List.forall_mem_cons] at all
      have later := inductionHypothesis all.2 (number + 1)
      rcases all.1 with blank | isRow
      · simp [readWords, rowsOf, blank, later]
      · simp [readWords, rowsOf, isRow.not_isEmpty, (isWordText_iff _).mpr isRow, later, bind,
          Except.bind, pure, Except.pure]

theorem readWords_of_stop {before after : List (List Char)} {line : List Char}
    (all : forall earlier, earlier ∈ before -> IsImageLine earlier) (bad : ¬ IsImageLine line)
    (number : Nat) :
    readWords number (before ++ line :: after) =
      .error ⟨number + before.length, String.ofList (Text.trim line)⟩ := by
  induction before generalizing number with
  | nil =>
      rw [IsImageLine, not_or, ← isWordText_iff] at bad
      have filled : (Text.trim line).isEmpty = false := by simpa using bad.1
      simp [readWords, filled, bad.2]
  | cons first rest inductionHypothesis =>
      rw [List.forall_mem_cons] at all
      have later := inductionHypothesis all.2 (number + 1)
      rw [Nat.add_right_comm] at later
      rcases all.1 with blank | isRow
      · simp [readWords, blank, later, Nat.add_assoc]
      · simp [readWords, isRow.not_isEmpty, (isWordText_iff _).mpr isRow, later, bind,
          Except.bind, Nat.add_assoc]

/-- A list whose items are not all good has a first that is not. -/
theorem exists_first_not {Item : Type} {Good : Item -> Prop} [DecidablePred Good]
    {items : List Item} (notAll : ¬ forall item, item ∈ items -> Good item) :
    Exists fun before => Exists fun item => Exists fun after =>
      items = before ++ item :: after ∧ (forall earlier, earlier ∈ before -> Good earlier) ∧
        ¬ Good item := by
  cases found : items.find? fun item => !decide (Good item) with
  | none =>
      refine absurd ?_ notAll
      intro item member
      simpa using List.find?_eq_none.mp found item member
  | some item =>
      rcases List.find?_eq_some_iff_append.mp found with ⟨bad, before, after, split, good⟩
      refine ⟨before, item, after, split, ?_, by simpa using bad⟩
      intro earlier member
      simpa using good earlier member

/-! ## Images -/

theorem loadImage_renderWords {words : List Int}
    (inRange : forall word, word ∈ words -> 0 ≤ word ∧ word ≤ 65535) :
    loadImage (renderWords words) = .ok words := by
  have rows : forall word, word ∈ words -> IsWordRow (Numeral.binaryDigits wordBits word) :=
    fun word member => (isWordRow_binaryDigits_iff word).mpr (inRange word member)
  have trimmed : rowsOf (words.map (Numeral.binaryDigits wordBits)) =
      words.map (Numeral.binaryDigits wordBits) := by
    have same : words.map (Text.trim ∘ Numeral.binaryDigits wordBits) =
        words.map (Numeral.binaryDigits wordBits) :=
      List.map_congr_left fun word _ => trim_binaryDigits word
    rw [rowsOf, List.map_map, same]
    apply List.filter_eq_self.mpr
    intro row listed
    rcases List.mem_map.mp listed with ⟨word, member, rfl⟩
    simp [(rows word member).not_isEmpty]
  rw [loadImage, lines_renderWords, readWords_of_lines, trimmed, List.map_map]
  · apply congrArg Except.ok
    conv_rhs => rw [← List.map_id words]
    apply List.map_congr_left
    intro word member
    have value := Numeral.ofBinaryDigits_binaryDigits wordBits word.toNat
    rw [Int.toNat_of_nonneg (inRange word member).1] at value
    rw [Function.comp_apply, value, Int.toNat_of_nonneg (inRange word member).1]
    rfl
  · intro line listed
    rcases List.mem_map.mp listed with ⟨word, member, rfl⟩
    rw [IsImageLine, trim_binaryDigits]
    exact Or.inr (rows word member)

theorem loadImage_renderWords_of_stop {before after : List Int} {word : Int}
    (inRange : forall earlier, earlier ∈ before -> 0 ≤ earlier ∧ earlier ≤ 65535)
    (outside : ¬ (0 ≤ word ∧ word ≤ 65535)) :
    loadImage (renderWords (before ++ word :: after)) =
      .error ⟨before.length + 1, wordText word⟩ := by
  rw [loadImage, lines_renderWords, List.map_append, List.map_cons, readWords_of_stop,
    List.length_map, trim_binaryDigits, Nat.add_comm]
  · rfl
  · intro line listed
    rcases List.mem_map.mp listed with ⟨earlier, member, rfl⟩
    rw [IsImageLine, trim_binaryDigits]
    exact Or.inr ((isWordRow_binaryDigits_iff earlier).mpr (inRange earlier member))
  · rw [IsImageLine, trim_binaryDigits, isWordRow_binaryDigits_iff]
    rintro (empty | within)
    · have written := (isPlainToken_wordText word).1
      rw [wordText, Numeral.binary, String.toList_ofList] at written
      exact written empty
    · exact outside within

/-- Rows read as words are written as they were. -/
theorem renderWords_of_rows {rows : List (List Char)}
    (all : forall row, row ∈ rows -> IsWordRow row) :
    renderWords (rows.map fun row => (Numeral.ofBinaryDigits row : Int)) =
      String.join (rows.map fun row => String.ofList row ++ "\n") := by
  rw [renderWords, List.map_map]
  apply congrArg String.join
  apply List.map_congr_left
  intro row listed
  rw [Function.comp_apply, wordText, Numeral.binary, binaryDigits_ofBinaryDigits (all row listed)]

theorem isWordRow_of_mem_rowsOf {lines : List (List Char)}
    (all : forall line, line ∈ lines -> IsImageLine line) {row : List Char}
    (listed : row ∈ rowsOf lines) : IsWordRow row := by
  rcases List.mem_filter.mp listed with ⟨trimmed, filled⟩
  rcases List.mem_map.mp trimmed with ⟨line, member, rfl⟩
  rcases all line member with blank | isRow
  · simp [blank] at filled
  · exact isRow

/-- Reading a written image gives its words back when all of them have sixteen bits, and
stops at the line of the first that has not.  A text is read when each of its lines is
blank or, without the blanks around it, sixteen binary digits.  Its words are those of the
lines that are not blank, and written again they are these lines without the blanks.  In
any other text reading stops at the first line that is of neither kind, and blank lines
count in its number. -/
theorem image_text_round_trip (words : List Int) (text : String) :
    ((forall word, word ∈ words -> 0 ≤ word ∧ word ≤ 65535) ->
        loadImage (renderWords words) = .ok words) ∧
      (¬ (forall word, word ∈ words -> 0 ≤ word ∧ word ≤ 65535) ->
        Exists fun before => Exists fun word => Exists fun after =>
          words = before ++ word :: after ∧
            (forall earlier, earlier ∈ before -> 0 ≤ earlier ∧ earlier ≤ 65535) ∧
            ¬ (0 ≤ word ∧ word ≤ 65535) ∧
            loadImage (renderWords words) = .error ⟨before.length + 1, wordText word⟩) ∧
      ((forall line, line ∈ Text.lines text.toList -> IsImageLine line) ->
        Exists fun read =>
          loadImage text = .ok read ∧
            read = (rowsOf (Text.lines text.toList)).map
              (fun row => (Numeral.ofBinaryDigits row : Int)) ∧
            renderWords read = String.join ((rowsOf (Text.lines text.toList)).map
              fun row => String.ofList row ++ "\n")) ∧
      (¬ (forall line, line ∈ Text.lines text.toList -> IsImageLine line) ->
        Exists fun before => Exists fun line => Exists fun after =>
          Text.lines text.toList = before ++ line :: after ∧
            (forall earlier, earlier ∈ before -> IsImageLine earlier) ∧ ¬ IsImageLine line ∧
            loadImage text =
              .error ⟨before.length + 1, String.ofList (Text.trim line)⟩) ∧
      (forall error : ImageError, error.message =
        "line " ++ Numeral.decimal error.line ++ ": not a 16-bit binary word: "
          ++ Text.quoted error.text) := by
  refine ⟨loadImage_renderWords, ?_, ?_, ?_, ?_⟩
  · intro notAll
    rcases exists_first_not notAll with ⟨before, word, after, rfl, inRange, outside⟩
    exact ⟨before, word, after, rfl, inRange, outside,
      loadImage_renderWords_of_stop inRange outside⟩
  · intro all
    exact ⟨_, readWords_of_lines all 1, rfl,
      renderWords_of_rows fun _ => isWordRow_of_mem_rowsOf all⟩
  · intro notAll
    rcases exists_first_not notAll with ⟨before, line, after, split, all, bad⟩
    refine ⟨before, line, after, split, all, bad, ?_⟩
    rw [loadImage, split, readWords_of_stop all bad, Nat.add_comm]
  · intro error
    have width : Numeral.decimal wordBits = "16" := by decide +kernel
    rw [ImageError.message, width, ← String.toList_inj]
    simp

/-- The least and the greatest word are read back.  Blanks around a row and blank lines are not
written again, and a sign is no digit of a row. -/
theorem image_text_round_trip_of_sample :
    loadImage (renderWords [0, 65535]) = .ok [0, 65535] ∧
      (Exists fun read => loadImage "\n 0000000000000101\t\n" = .ok read ∧
        renderWords read = "0000000000000101\n") ∧
      (Exists fun error : ImageError => loadImage "\n0000000000000101\n+1" = .error error) := by
  refine ⟨(image_text_round_trip [0, 65535] "").1 (by decide), ?_, ?_⟩
  · rcases (image_text_round_trip [] "\n 0000000000000101\t\n").2.2.1 (by decide +kernel) with
      ⟨read, returned, -, written⟩
    exact ⟨read, returned, written.trans (by decide +kernel)⟩
  · rcases (image_text_round_trip [] "\n0000000000000101\n+1").2.2.2.1 (by decide +kernel) with
      ⟨before, line, after, -, -, -, stopped⟩
    exact ⟨_, stopped⟩

end NibbleMachine
