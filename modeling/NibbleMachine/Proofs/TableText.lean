import NibbleMachine.Image.Table

namespace NibbleMachine

/-!
# Reading a table back

The rows of a table are read from its text by a reader of comma separated values.  It goes
through the text once and keeps the values of the row it is in.  A quote opens a quoted value
at the start of a value only, two quotes inside it stand for one, and a carriage return
followed by a line feed ends a row.  Anything else between two values is refused, and so is a
text that ends inside a row.

Whatever the values are, the reader takes back the rows that were written.  So the text of a
table says exactly which positions were reached, although most readings of words hold commas.

Positions run from the first one upwards, through zero and on, when the first is negative.
They run out at the end of the words, or at once when the first position lies outside.
-/

/-! ## The reader -/

/-- Where a reader stands. -/
inductive ReadingPlace where
  /-- Before the first character of a value. -/
  | fresh
  /-- In a value without quotes. -/
  | plain
  /-- In a quoted value. -/
  | quoted
  /-- Behind a quote in a quoted value: it closes the value, or another quote follows. -/
  | closed
  /-- Behind a carriage return that ends a row. -/
  | ended
deriving DecidableEq, Repr

/-- A value may end where it is not inside quotes. -/
def ReadingPlace.MayEnd (place : ReadingPlace) : Prop :=
  place = .fresh ∨ place = .plain ∨ place = .closed

/-- What a reader has read: the rows before, the values before in its row, and the characters
of the value it is in. -/
structure Reading where
  place : ReadingPlace
  value : List Char
  row : List String
  rows : List (List String)
deriving DecidableEq, Repr

namespace Reading

def start (rows : List (List String)) : Reading :=
  ⟨.fresh, [], [], rows⟩

/-- Read a quote.  It opens a value at its start, and in a quoted value it closes the value
or, behind another quote, stands for itself. -/
def quote (reading : Reading) : Option Reading :=
  match reading.place with
  | .fresh => some { reading with place := .quoted }
  | .quoted => some { reading with place := .closed }
  | .closed => some { reading with place := .quoted, value := reading.value ++ ['"'] }
  | .plain | .ended => none

def separate (reading : Reading) (c : Char) : Option Reading :=
  if c = ',' then
    some ⟨.fresh, [], reading.row ++ [String.ofList reading.value], reading.rows⟩
  else if c = '\r' then some { reading with place := .ended }
  else none

def step (reading : Reading) (c : Char) : Option Reading :=
  if c = '"' then reading.quote
  else
    match reading.place with
    | .fresh | .plain =>
        if c = ',' ∨ c = '\r' ∨ c = '\n' then reading.separate c
        else some { reading with place := .plain, value := reading.value ++ [c] }
    | .quoted => some { reading with value := reading.value ++ [c] }
    | .closed => reading.separate c
    | .ended =>
        if c = '\n' then
          some (start (reading.rows ++ [reading.row ++ [String.ofList reading.value]]))
        else none

/-- The rows read, unless the text ended inside a row. -/
def finish (reading : Reading) : Option (List (List String)) :=
  if reading = start reading.rows then some reading.rows else none

end Reading

/-- The rows of a text of comma separated values. -/
def readTable (text : String) : Option (List (List String)) :=
  (text.toList.foldlM Reading.step (.start [])).bind Reading.finish

/-! ## One value -/

namespace Reading

variable (row : List String) (rows : List (List String))

/-- A value without a character that needs quotes is read as it stands. -/
theorem read_plain {characters : List Char} (unquoted : needsQuotes characters = false)
    (before : List Char) :
    characters.foldlM step ⟨.plain, before, row, rows⟩ =
      some ⟨.plain, before ++ characters, row, rows⟩ := by
  induction characters generalizing before with
  | nil => simp
  | cons c rest inductionHypothesis =>
      simp only [needsQuotes, List.any_cons, Bool.or_eq_false_iff, beq_eq_false_iff_ne] at unquoted
      have here : step ⟨.plain, before, row, rows⟩ c =
          some ⟨.plain, before ++ [c], row, rows⟩ := by
        simp [step, unquoted.1]
      rw [List.foldlM_cons, here]
      exact (inductionHypothesis unquoted.2 (before ++ [c])).trans (by simp)

/-- A quoted value is read with its doubled quotes as one. -/
theorem read_quoted (characters before : List Char) :
    (characters.flatMap fun c => if c = '"' then ['"', '"'] else [c]).foldlM step
        ⟨.quoted, before, row, rows⟩ =
      some ⟨.quoted, before ++ characters, row, rows⟩ := by
  induction characters generalizing before with
  | nil => simp
  | cons c rest inductionHypothesis =>
      have here : (if c = '"' then ['"', '"'] else [c]).foldlM step ⟨.quoted, before, row, rows⟩ =
          some ⟨.quoted, before ++ [c], row, rows⟩ := by
        split
        · next same =>
            subst same
            rfl
        · next other => simp [step, other]
      rw [List.flatMap_cons, List.foldlM_append, here]
      exact (inductionHypothesis (before ++ [c])).trans (by simp)

/-- A written value is read up to its end. -/
theorem read_tableValue (value : String) :
    Exists fun place => place.MayEnd ∧
      (tableValue value).toList.foldlM step ⟨.fresh, [], row, rows⟩ =
        some ⟨place, value.toList, row, rows⟩ := by
  unfold tableValue
  split
  · refine ⟨.closed, Or.inr (Or.inr rfl), ?_⟩
    have opened : step ⟨.fresh, [], row, rows⟩ '"' = some ⟨.quoted, [], row, rows⟩ := rfl
    rw [String.toList_ofList, List.cons_append, List.foldlM_cons, opened, Option.bind_eq_bind,
      Option.bind_some, List.foldlM_append, read_quoted]
    rfl
  · next plain =>
      have unquoted : needsQuotes value.toList = false := by simpa using plain
      cases characters : value.toList with
      | nil => exact ⟨.fresh, Or.inl rfl, rfl⟩
      | cons c rest =>
          -- behind the first character the value is read as if it had begun before
          have read := read_plain row rows (characters ▸ unquoted) []
          have notQuote : c ≠ '"' := by
            rintro rfl
            simp [characters, needsQuotes] at unquoted
          have first : step ⟨.fresh, [], row, rows⟩ c = step ⟨.plain, [], row, rows⟩ c := by
            simp only [step, if_neg notQuote, separate]
          refine ⟨.plain, Or.inr (Or.inl rfl), ?_⟩
          rw [List.foldlM_cons, first]
          exact read

/-! ## Rows -/

variable {row rows}

/-- A comma behind a value starts the next one. -/
theorem step_comma {place : ReadingPlace} (mayEnd : place.MayEnd) (value : List Char) :
    step ⟨place, value, row, rows⟩ ',' =
      some ⟨.fresh, [], row ++ [String.ofList value], rows⟩ := by
  rcases mayEnd with rfl | rfl | rfl <;> rfl

/-- A line end behind a value ends the row. -/
theorem read_rowEnd {place : ReadingPlace} (mayEnd : place.MayEnd) (value : List Char) :
    ['\r', '\n'].foldlM step ⟨place, value, row, rows⟩ =
      some (start (rows ++ [row ++ [String.ofList value]])) := by
  rcases mayEnd with rfl | rfl | rfl <;> rfl

/-- The values of a row are read one after the other. -/
theorem read_values {values : List String} (nonempty : values ≠ []) :
    (tableRow values).toList.foldlM step ⟨.fresh, [], row, rows⟩ =
      some (start (rows ++ [row ++ values])) := by
  unfold tableRow
  induction values generalizing row with
  | nil => exact absurd rfl nonempty
  | cons value others inductionHypothesis =>
      rcases read_tableValue row rows value with ⟨place, mayEnd, read⟩
      cases others with
      | nil =>
          rw [List.map_cons, List.map_nil, String.intercalate_singleton, String.toList_append,
            List.foldlM_append, read]
          exact (read_rowEnd mayEnd value.toList).trans (by rw [String.ofList_toList])
      | cons second later =>
          have split : (String.intercalate "," ((value :: second :: later).map tableValue) ++
              "\r\n").toList = (tableValue value).toList ++ ',' ::
                (String.intercalate "," ((second :: later).map tableValue) ++ "\r\n").toList := by
            simp
          rw [split, List.foldlM_append, read, Option.bind_eq_bind, Option.bind_some,
            List.foldlM_cons, step_comma mayEnd, Option.bind_eq_bind, Option.bind_some,
            inductionHypothesis (List.cons_ne_nil _ _), String.ofList_toList, List.append_assoc]
          rfl

/-- Written rows are read one after the other. -/
theorem read_rows {written : List (List String)}
    (nonempty : forall values, values ∈ written -> values ≠ []) :
    (String.join (written.map tableRow)).toList.foldlM step (start rows) =
      some (start (rows ++ written)) := by
  induction written generalizing rows with
  | nil => simp
  | cons values later inductionHypothesis =>
      rw [List.forall_mem_cons] at nonempty
      rw [List.map_cons, String.join_cons, String.toList_append, List.foldlM_append]
      have first : (tableRow values).toList.foldlM step (start rows) = _ :=
        read_values nonempty.1
      rw [first]
      exact (inductionHypothesis nonempty.2).trans (by simp)

end Reading

/-- Whatever values are written in rows, they are read back. -/
theorem readTable_join {written : List (List String)}
    (nonempty : forall values, values ∈ written -> values ≠ []) :
    readTable (String.join (written.map tableRow)) = some written := by
  rw [readTable, Reading.read_rows nonempty]
  simp [Reading.finish, Reading.start]

/-! ## Positions -/

/-- The positions at which there is a word, negative ones counted from the end. -/
def InRange (words : List Int) (position : Int) : Prop :=
  -(words.length : Int) ≤ position ∧ position < words.length

/-- The word at a position in range: positions a whole length apart name the same word. -/
def wordIn (words : List Int) (position : Int) : Int :=
  words.getD (position % words.length).toNat 0

def positionValues (words : List Int) (position : Int) : List String :=
  [Numeral.decimal position, wordText (wordIn words position),
    disassemble (wordIn words position)]

theorem wordAt?_of_inRange {words : List Int} {position : Int}
    (inRange : InRange words position) : wordAt? words position = some (wordIn words position) := by
  unfold InRange at inRange
  have found : forall index : Nat, index < words.length ->
      words[index]? = some (words.getD index 0) := by
    intro index inside
    rw [List.getD_eq_getElem?_getD, List.getElem?_eq_getElem inside, Option.getD_some]
  unfold wordAt? wordIn
  split
  · next nonnegative =>
      have own : position % words.length = position :=
        Int.emod_eq_of_lt nonnegative inRange.2
      rw [own, found _ (by omega)]
  · next negative =>
      have raised : position % words.length = words.length + position := by
        rw [← Int.add_emod_left]
        exact Int.emod_eq_of_lt (by omega) (by omega)
      rw [if_pos (by omega), raised, found _ (by omega)]

theorem wordAt?_of_not_inRange {words : List Int} {position : Int}
    (outside : ¬ InRange words position) : wordAt? words position = none := by
  unfold InRange at outside
  unfold wordAt?
  split
  · exact List.getElem?_eq_none (by omega)
  · exact if_neg (by omega)

/-- The rows of a table, as many as there are words for, one position after the other. -/
structure ShowsRows (words : List Int) (position : Int) (count shown : Nat)
    (table : WrittenTable) : Prop where
  rows : table.rows = (List.range shown).map fun offset : Nat =>
    tableRow (positionValues words (position + offset))
  inRange : forall offset : Nat, offset < shown -> InRange words (position + offset)
  complete : table.complete = true -> shown = count
  broken : table.complete = false -> shown < count ∧ ¬ InRange words (position + shown)

/-- A table without rows left to show. -/
theorem ShowsRows.done (words : List Int) (position : Int) :
    ShowsRows words position 0 0 ⟨[], true⟩ := by
  refine ⟨rfl, ?_, fun _ => rfl, ?_⟩
  · intro offset below
    cases below
  · intro incomplete
    cases incomplete

/-- A table that breaks off at its first position. -/
theorem ShowsRows.stopped {words : List Int} {position : Int} (count : Nat)
    (outside : ¬ InRange words position) :
    ShowsRows words position (count + 1) 0 ⟨[], false⟩ := by
  refine ⟨rfl, ?_, ?_, ?_⟩
  · intro offset below
    cases below
  · intro complete
    cases complete
  · intro _
    exact ⟨Nat.succ_pos count, by simpa using outside⟩

/-- A row before the rows from the next position on. -/
theorem ShowsRows.row {words : List Int} {position : Int} {count shown : Nat}
    {table : WrittenTable} (inRange : InRange words position)
    (later : ShowsRows words (position + 1) count shown table) :
    ShowsRows words position (count + 1) (shown + 1)
      ⟨wordRow position (wordIn words position) :: table.rows, table.complete⟩ := by
  have shift : forall offset : Nat,
      position + 1 + (offset : Int) = position + ((offset + 1 : Nat) : Int) := by omega
  refine ⟨?_, ?_, ?_, ?_⟩
  · rw [List.range_succ_eq_map, List.map_cons, List.map_map, later.rows]
    simp only [shift, Function.comp_def, Nat.succ_eq_add_one, Int.natCast_zero, Int.add_zero]
    rfl
  · intro offset below
    cases offset with
    | zero => simpa using inRange
    | succ smaller =>
        rw [← shift]
        exact later.inRange smaller (Nat.lt_of_succ_lt_succ below)
  · intro complete
    rw [later.complete complete]
  · intro incomplete
    have broken := later.broken incomplete
    rw [← shift]
    exact ⟨Nat.succ_lt_succ broken.1, broken.2⟩

/-- A table shows rows up to the first position without a word, or all of them. -/
theorem exists_showsRows (words : List Int) (position : Int) (count : Nat) :
    Exists fun shown => ShowsRows words position count shown (tableRows words position count) := by
  induction count generalizing position with
  | zero => exact ⟨0, .done words position⟩
  | succ count inductionHypothesis =>
      by_cases inRange : InRange words position
      · rcases inductionHypothesis (position + 1) with ⟨shown, later⟩
        refine ⟨shown + 1, ?_⟩
        simp only [tableRows, wordAt?_of_inRange inRange]
        exact later.row inRange
      · refine ⟨0, ?_⟩
        simp only [tableRows, wordAt?_of_not_inRange inRange]
        exact .stopped count inRange

/-- The text of a table says which positions were reached.  A table of the positions from
`first` to `last` breaks off exactly when there are such positions and the first lies too far
below or the last too far above.  In either case its text is read back as the header and one
row for each position from `first` upwards: up to `last` when the table is complete, which is
none when `last` lies below `first`, and otherwise up to the first position that is out of
range.  A row holds the position, the word there in binary, and the reading of the word. -/
theorem image_table_reads_back (words : List Int) (first last : Int) :
    ((imageTable words first last).complete = false <->
      first ≤ last ∧ (first < -(words.length : Int) ∨ (words.length : Int) ≤ last)) ∧
      Exists fun count : Nat =>
        readTable (imageTable words first last).text =
            some (["position", "word", "instruction"] ::
              (List.range count).map fun offset : Nat =>
                positionValues words (first + offset)) ∧
          (forall offset : Nat, offset < count -> InRange words (first + offset)) ∧
          ((imageTable words first last).complete = true -> count = (last + 1 - first).toNat) ∧
          ((imageTable words first last).complete = false ->
            first + count ≤ last ∧ ¬ InRange words (first + count)) := by
  rcases exists_showsRows words first (last + 1 - first).toNat with ⟨count, shows⟩
  have same : (imageTable words first last).complete =
      (tableRows words first (last + 1 - first).toNat).complete := rfl
  have text : (imageTable words first last).text = String.join
      ((["position", "word", "instruction"] :: (List.range count).map fun offset : Nat =>
        positionValues words (first + offset)).map tableRow) := by
    rw [WrittenTable.text, imageTable, shows.rows, List.map_cons, List.map_map]
    rfl
  have nonempty : forall values, values ∈ ["position", "word", "instruction"] ::
      ((List.range count).map fun offset : Nat => positionValues words (first + offset)) ->
        values ≠ [] := by
    intro values member
    rcases List.mem_cons.mp member with rfl | row
    · exact List.cons_ne_nil _ _
    · rcases List.mem_map.mp row with ⟨offset, -, rfl⟩
      exact List.cons_ne_nil _ _
  rw [same, text, readTable_join nonempty]
  refine ⟨?_, count, rfl, shows.inRange, shows.complete, ?_⟩
  · cases complete : (tableRows words first (last + 1 - first).toNat).complete with
    | true =>
        -- the first and the last position are among those shown
        have all := shows.complete complete
        have lowest := shows.inRange 0
        have highest := shows.inRange (count - 1)
        unfold InRange at lowest highest
        simp only [Bool.true_eq_false, false_iff]
        omega
    | false =>
        have broken := shows.broken complete
        unfold InRange at broken
        simp only [true_iff]
        omega
  · intro incomplete
    have broken := shows.broken incomplete
    exact ⟨by omega, broken.2⟩

/-- Two words, one of them negative, whose readings hold commas, from two positions below zero
up to one that is too far above: the four positions in range are read back, and each word is met
twice. -/
theorem image_table_reads_back_of_sample :
    (imageTable [-1, 0x1123] (-2) 5).complete = false ∧
      readTable (imageTable [-1, 0x1123] (-2) 5).text =
        some [["position", "word", "instruction"],
          ["-2", "-000000000000001", "andi r15, -1"],
          ["-1", "0001000100100011", "sub r1, r2, r3"],
          ["0", "-000000000000001", "andi r15, -1"],
          ["1", "0001000100100011", "sub r1, r2, r3"]] := by
  rcases image_table_reads_back [-1, 0x1123] (-2) 5 with
    ⟨breaks, count, read, inRange, -, stops⟩
  have incomplete := breaks.mpr ⟨by decide, Or.inr (by decide)⟩
  -- the first position out of range is the third from zero on
  have shown : count = 4 := by
    have outside := (stops incomplete).2
    have last := inRange (count - 1)
    have zero := inRange 4
    simp only [InRange, List.length_cons, List.length_nil] at outside last zero
    omega
  refine ⟨incomplete, ?_⟩
  rw [read, shown]
  decide +kernel

end NibbleMachine
