import NibbleMachine.Proofs.Resolution

namespace NibbleMachine

/-!
# Numbers, positions and what each pass keeps

A line has fields that most passes leave alone.  Instead of one statement for
each pass and field, three erasures say which fields a group of passes may
touch: the passes before the layout keep a line up to `bare`, the layout keeps
it up to `unplaced`, and encoding keeps it up to `unencoded`.

From these follow the facts about order.  Line numbers count from one without
gaps, so the line of a number is found by its place in the list.  The positions
of the valid lines count from zero without gaps, so a position is the number of
valid lines before it.
-/

/-! ## Erasures -/

namespace Line

/-- A line without what the passes before the layout find out. -/
def bare (line : Line) : Line :=
  { line with valid := true, tokens := none, order := none }

def unplaced (line : Line) : Line :=
  { line with position := none }

/-- A line without what encoding finds out. -/
def unencoded (line : Line) : Line :=
  { line with tokens := none, nibbles := none, word := 0 }

theorem bare_onValid {change : Line -> Line} (keeps : forall line, (change line).bare = line.bare)
    (line : Line) : (onValid change line).bare = line.bare := by
  unfold onValid
  split
  · exact keeps line
  · rfl

theorem bare_tokenize (line : Line) : line.tokenize.bare = line.bare := by
  cases blank : (clean line.text).isEmpty with
  | true =>
      rw [tokenize_of_blank blank]
      rfl
  | false =>
      rw [tokenize_of_not_blank blank]
      rfl

theorem bare_settle (directive : Directive) (symbols : List (String × String)) (line : Line) :
    (directive.settle symbols line).bare = line.bare := by
  unfold Directive.settle
  split
  · rfl
  · rfl

theorem bare_resolved (line : Line) : line.resolved.bare = line.bare := by
  unfold resolved
  split
  · rfl
  · rfl

end Line

theorem map_bare_onValid (change : Line -> Line)
    (keeps : forall line, (change line).bare = line.bare) (lines : List Line) :
    (lines.map (onValid change)).map Line.bare = lines.map Line.bare := by
  rw [List.map_map]
  exact List.map_congr_left fun line _ => Line.bare_onValid keeps line

theorem map_bare_preparedLines (text : String) :
    (preparedLines text).map Line.bare = (loadLines text).map Line.bare := by
  rw [preparedLines, prepare, List.map_map]
  exact List.map_congr_left fun line _ => Line.bare_tokenize line

/-- The passes before the layout keep number, text, position, nibbles and word. -/
theorem map_bare_resolvedLines (text : String) :
    (resolvedLines text).map Line.bare = loadLines text := by
  have loaded : forall next texts, (numberLines next texts).map Line.bare =
      numberLines next texts := by
    intro next texts
    induction texts generalizing next with
    | nil => rfl
    | cons first rest inductionHypothesis =>
        rw [numberLines, List.map_cons, inductionHypothesis]
        rfl
  rw [resolvedLines, map_bare_onValid _ Line.bare_resolved, labelledLines,
    map_bare_onValid _ (Line.bare_settle _ _), definedLines,
    map_bare_onValid _ (Line.bare_settle _ _), map_bare_preparedLines]
  exact loaded 1 _

/-- Of a loaded line only number and text are known. -/
theorem exists_fresh_of_mem_numberLines {next : Nat} {texts : List (List Char)} {line : Line}
    (member : line ∈ numberLines next texts) :
    Exists fun number => Exists fun text => line = Line.fresh number text := by
  induction texts generalizing next with
  | nil => cases member
  | cons text rest inductionHypothesis =>
      rcases List.mem_cons.mp member with rfl | later
      · exact ⟨next, String.ofList text, rfl⟩
      · exact inductionHypothesis later

/-- Before the layout no line has a position or nibbles. -/
theorem fresh_of_mem_resolvedLines {text : String} {line : Line}
    (member : line ∈ resolvedLines text) : line.position = none ∧ line.nibbles = none := by
  have loaded : line.bare ∈ loadLines text := by
    rw [← map_bare_resolvedLines]
    exact List.mem_map_of_mem member
  rcases exists_fresh_of_mem_numberLines loaded with ⟨number, source, same⟩
  exact ⟨congrArg Line.position same, congrArg Line.nibbles same⟩

/-- A line whose word is packed from its nibbles. -/
def Line.Packed (line : Line) : Prop :=
  line.word = packOrZero (line.nibbles.map Nibbles.elements)

theorem packed_of_mem_resolvedLines {text : String} {line : Line}
    (member : line ∈ resolvedLines text) : line.Packed := by
  have loaded : line.bare ∈ loadLines text := by
    rw [← map_bare_resolvedLines]
    exact List.mem_map_of_mem member
  rcases exists_fresh_of_mem_numberLines loaded with ⟨number, source, same⟩
  have nibbles : line.nibbles = none := congrArg Line.nibbles same
  have word : line.word = 0 := congrArg Line.word same
  rw [Line.Packed, word, nibbles]
  rfl

/-- An erasure that keeps validity and a field keeps that field of the valid
lines. -/
theorem map_validLines_erased {Kept : Type} (erase : Line -> Line)
    (keepsValid : forall line, (erase line).valid = line.valid) (field : Line -> Kept)
    (keepsField : forall line, field (erase line) = field line) (lines : List Line) :
    (validLines (lines.map erase)).map field = (validLines lines).map field := by
  unfold validLines
  rw [List.filter_map, List.map_map]
  have sameValid : Line.valid ∘ erase = Line.valid := funext keepsValid
  have sameField : field ∘ erase = field := funext keepsField
  rw [sameValid, sameField]

/-! ## The layout -/

theorem map_unplaced_layoutFrom (next : Nat) (lines : List Line) :
    (layoutFrom next lines).map Line.unplaced = lines.map Line.unplaced := by
  induction lines generalizing next with
  | nil => rfl
  | cons line rest inductionHypothesis =>
      unfold layoutFrom
      split
      · rw [List.map_cons, List.map_cons, inductionHypothesis]
        rfl
      · rw [List.map_cons, List.map_cons, inductionHypothesis]

/-- Valid lines are given consecutive positions. -/
theorem positions_layoutFrom (next : Nat) (lines : List Line) :
    (validLines (layoutFrom next lines)).map Line.position =
      (List.range' next (validLines lines).length).map some := by
  induction lines generalizing next with
  | nil => rfl
  | cons line rest inductionHypothesis =>
      unfold validLines at inductionHypothesis ⊢
      cases valid : line.valid with
      | false => simp [layoutFrom, valid, inductionHypothesis]
      | true => simp [layoutFrom, valid, inductionHypothesis, List.range'_succ]

theorem mem_of_mem_layoutFrom {next : Nat} {lines : List Line} {line : Line}
    (member : line ∈ layoutFrom next lines) (invalid : line.valid = false) : line ∈ lines := by
  induction lines generalizing next with
  | nil => exact member
  | cons first rest inductionHypothesis =>
      unfold layoutFrom at member
      split at member
      · next valid =>
          rcases List.mem_cons.mp member with rfl | later
          · rw [show first.valid = false from invalid] at valid
            exact Bool.noConfusion valid
          · exact List.mem_cons_of_mem first (inductionHypothesis later)
      · rcases List.mem_cons.mp member with rfl | later
        · exact List.mem_cons_self
        · exact List.mem_cons_of_mem first (inductionHypothesis later)

theorem map_unplaced_placedLines (text : String) :
    (placedLines text).map Line.unplaced = (resolvedLines text).map Line.unplaced :=
  map_unplaced_layoutFrom 0 (resolvedLines text)

theorem packed_of_mem_placedLines {text : String} {line : Line}
    (member : line ∈ placedLines text) : line.Packed := by
  have listed : line.unplaced ∈ (resolvedLines text).map Line.unplaced := by
    rw [← map_unplaced_placedLines]
    exact List.mem_map_of_mem member
  rcases List.mem_map.mp listed with ⟨source, inResolved, same⟩
  have packed : source.Packed := packed_of_mem_resolvedLines inResolved
  change source.unplaced.Packed at packed
  rw [same] at packed
  exact packed

/-- A valid line has a position below the number of valid lines. -/
theorem position_of_mem_layout {lines : List Line} {line : Line}
    (member : line ∈ validLines (layout lines)) :
    Exists fun position =>
      line.position = some position ∧ position < (validLines (layout lines)).length := by
  have positions := positions_layoutFrom 0 lines
  have length := congrArg List.length positions
  rw [List.length_map, List.length_map, List.length_range'] at length
  have listed : line.position ∈ (List.range' 0 (validLines lines).length).map some := by
    rw [← positions]
    exact List.mem_map_of_mem member
  rcases List.mem_map.mp listed with ⟨position, within, same⟩
  refine ⟨position, same.symm, ?_⟩
  rw [layout, length]
  simpa using within

/-! ## Line numbers -/

/-- Line numbers that count from one without gaps. -/
def Numbered (lines : List Line) : Prop :=
  lines.map Line.number = List.range' 1 lines.length

theorem map_number_numberLines (next : Nat) (texts : List (List Char)) :
    (numberLines next texts).map Line.number = List.range' next texts.length := by
  induction texts generalizing next with
  | nil => rfl
  | cons text rest inductionHypothesis =>
      rw [numberLines, List.map_cons, inductionHypothesis, List.length_cons, List.range'_succ]
      rfl

theorem numbered_of_map_number {text : String} {lines : List Line}
    (same : lines.map Line.number = (loadLines text).map Line.number) : Numbered lines := by
  have all := same.trans (map_number_numberLines 1 (Text.lines text.toList))
  have length : lines.length = (Text.lines text.toList).length := by
    simpa using congrArg List.length all
  rw [Numbered, length]
  exact all

theorem map_number_preparedLines (text : String) :
    (preparedLines text).map Line.number = (loadLines text).map Line.number := by
  have same := congrArg (List.map Line.number) (map_bare_preparedLines text)
  rwa [List.map_map, List.map_map] at same

theorem map_number_resolvedLines (text : String) :
    (resolvedLines text).map Line.number = (loadLines text).map Line.number := by
  have same := congrArg (List.map Line.number) (map_bare_resolvedLines text)
  rwa [List.map_map] at same

theorem numbered_preparedLines (text : String) : Numbered (preparedLines text) :=
  numbered_of_map_number (map_number_preparedLines text)

theorem numbered_placedLines (text : String) : Numbered (placedLines text) := by
  have placed := congrArg (List.map Line.number) (map_unplaced_placedLines text)
  rw [List.map_map, List.map_map] at placed
  exact numbered_of_map_number (placed.trans (map_number_resolvedLines text))

theorem mem_drop_iff_of_numbers {start : Nat} {lines : List Line}
    (numbers : lines.map Line.number = List.range' start lines.length) (count : Nat)
    (line : Line) :
    line ∈ lines.drop count <-> line ∈ lines ∧ start + count ≤ line.number := by
  induction lines generalizing start count with
  | nil => simp
  | cons first rest inductionHypothesis =>
      rw [List.map_cons, List.length_cons, List.range'_succ, List.cons.injEq] at numbers
      have bound : forall other, other ∈ rest -> start + 1 ≤ other.number := by
        intro other member
        have listed : other.number ∈ List.range' (start + 1) rest.length := by
          rw [← numbers.2]
          exact List.mem_map_of_mem member
        exact (List.mem_range'_1.mp listed).1
      cases count with
      | zero =>
          rw [List.drop_zero, Nat.add_zero]
          constructor
          · intro member
            refine ⟨member, ?_⟩
            rcases List.mem_cons.mp member with rfl | later
            · exact Nat.le_of_eq numbers.1.symm
            · exact Nat.le_of_succ_le (bound line later)
          · exact fun member => member.1
      | succ smaller =>
          rw [List.drop_succ_cons, inductionHypothesis numbers.2 smaller]
          constructor
          · intro member
            exact ⟨List.mem_cons_of_mem first member.1, by omega⟩
          · rintro ⟨member, above⟩
            rcases List.mem_cons.mp member with rfl | later
            · omega
            · exact ⟨later, by omega⟩

/-- A valid line is found from a positive line number on exactly when some valid
line has at least that number. -/
theorem exists_nextValid?_iff {lines : List Line} (numbered : Numbered lines) {number : Int}
    (positive : 0 < number) :
    (Exists fun line => nextValid? lines number = some line) <->
      Exists fun line => line ∈ validLines lines ∧ number ≤ line.number := by
  have index : ¬ (number - 1 < 0) := by omega
  unfold nextValid? fromIndex
  rw [if_neg index, ← Option.isSome_iff_exists, List.find?_isSome]
  constructor
  · rintro ⟨line, dropped, valid⟩
    have found := (mem_drop_iff_of_numbers numbered _ line).mp dropped
    exact ⟨line, List.mem_filter.mpr ⟨found.1, valid⟩, by omega⟩
  · rintro ⟨line, member, above⟩
    have listed := List.mem_filter.mp member
    refine ⟨line, (mem_drop_iff_of_numbers numbered _ line).mpr ⟨listed.1, ?_⟩, listed.2⟩
    omega

theorem mem_validLines_of_nextValid? {lines : List Line} {number : Int} {line : Line}
    (found : nextValid? lines number = some line) : line ∈ validLines lines := by
  unfold nextValid? at found
  have valid := List.find?_some found
  have dropped := List.mem_of_find?_eq_some found
  refine List.mem_filter.mpr ⟨?_, valid⟩
  unfold fromIndex at dropped
  split at dropped
  · exact List.mem_of_mem_drop dropped
  · exact List.mem_of_mem_drop dropped

/-! ## The lines that are encoded -/

/-- A valid laid out line carries the order of an entry. -/
theorem entry_of_mem_placedLines {text : String} {line : Line}
    (member : line ∈ validLines (placedLines text)) :
    Exists fun entry => Exists fun order =>
      entry ∈ commandEntries text ∧ orderOf entry.tokens = .ok order ∧
        line.number = entry.number ∧ line.order = some order ∧
        line.tokens = some order.tokens := by
  have listed := List.mem_filter.mp member
  have erased : line.unplaced ∈ (resolvedLines text).map Line.unplaced := by
    rw [← map_unplaced_placedLines]
    exact List.mem_map_of_mem listed.1
  rcases List.mem_map.mp erased with ⟨resolved, inResolved, same⟩
  rcases List.mem_map.mp inResolved with ⟨source, inLabelled, rfl⟩
  have stillValid : (onValid Line.resolved source).valid = true :=
    (congrArg Line.valid same).trans listed.2
  cases valid : source.valid with
  | false =>
      rw [onValid_of_invalid _ valid, valid] at stillValid
      exact Bool.noConfusion stillValid
  | true =>
      rw [onValid_of_valid _ valid] at stillValid same
      cases ordered : orderOf source.tokenList with
      | error problem =>
          rw [Line.resolved_of_problem ordered] at stillValid
          exact Bool.noConfusion stillValid
      | ok order =>
          rw [Line.resolved_of_order ordered] at same
          refine ⟨source.entry, order, ?_, ordered, (congrArg Line.number same).symm,
            (congrArg Line.order same).symm, (congrArg Line.tokens same).symm⟩
          rw [← entries_labelledLines]
          exact List.mem_map_of_mem (List.mem_filter.mpr ⟨inLabelled, valid⟩)

/-- The orders of a text, in source order. -/
def commandOrders (text : String) : List Order :=
  (commandEntries text).filterMap fun entry => (orderOf entry.tokens).toOption

def Entry.numberedOrder? (entry : Entry) : Option (Nat × Order) :=
  (orderOf entry.tokens).toOption.map fun order => (entry.number, order)

/-- The orders of a text with the numbers of their lines, in source order. -/
def numberedOrders (text : String) : List (Nat × Order) :=
  (commandEntries text).filterMap Entry.numberedOrder?

theorem Entry.numberedOrder?_of_order {entry : Entry} {order : Order}
    (ordered : orderOf entry.tokens = .ok order) :
    entry.numberedOrder? = some (entry.number, order) := by
  simp [Entry.numberedOrder?, ordered, Except.toOption]

theorem Entry.numberedOrder?_of_problem {entry : Entry} {problem : Problem}
    (refused : orderOf entry.tokens = .error problem) : entry.numberedOrder? = none := by
  simp [Entry.numberedOrder?, refused, Except.toOption]

theorem mem_numberedOrders_iff (text : String) (number : Nat) (order : Order) :
    (number, order) ∈ numberedOrders text <->
      Exists fun entry =>
        entry ∈ commandEntries text ∧ entry.number = number ∧
          orderOf entry.tokens = .ok order := by
  rw [numberedOrders, List.mem_filterMap]
  constructor
  · rintro ⟨entry, member, found⟩
    cases ordered : orderOf entry.tokens with
    | error problem =>
        rw [Entry.numberedOrder?_of_problem ordered] at found
        cases found
    | ok other =>
        rw [Entry.numberedOrder?_of_order ordered] at found
        cases found
        exact ⟨entry, member, rfl, ordered⟩
  · rintro ⟨entry, member, rfl, ordered⟩
    exact ⟨entry, member, Entry.numberedOrder?_of_order ordered⟩

theorem map_snd_numberedOrders (text : String) :
    (numberedOrders text).map Prod.snd = commandOrders text := by
  have forgets : forall entry : Entry,
      entry.numberedOrder?.map Prod.snd = (orderOf entry.tokens).toOption := by
    intro entry
    unfold Entry.numberedOrder?
    cases (orderOf entry.tokens).toOption <;> rfl
  rw [numberedOrders, List.map_filterMap, commandOrders]
  exact List.filterMap_congr fun entry _ => forgets entry

def Line.numbered (line : Line) : Nat × Option Order :=
  (line.number, line.order)

theorem numbered_resolved (lines : List Line) :
    (validLines (lines.map (onValid Line.resolved))).map Line.numbered =
      ((entries lines).filterMap Entry.numberedOrder?).map fun placed =>
        (placed.1, some placed.2) := by
  induction lines with
  | nil => rfl
  | cons line rest inductionHypothesis =>
      unfold validLines at inductionHypothesis ⊢
      rw [List.map_cons]
      cases valid : line.valid with
      | false =>
          rw [onValid_of_invalid _ valid, entries_cons_of_invalid rest valid,
            List.filter_cons_of_neg (by simp [valid]), inductionHypothesis]
      | true =>
          rw [onValid_of_valid _ valid, entries_cons_of_valid rest valid, List.filterMap_cons]
          cases ordered : orderOf line.tokenList with
          | error problem =>
              have none : line.entry.numberedOrder? = none :=
                Entry.numberedOrder?_of_problem ordered
              rw [Line.resolved_of_problem ordered,
                List.filter_cons_of_neg (by simp [Line.withdraw]), inductionHypothesis, none]
          | ok order =>
              have own : line.entry.numberedOrder? = some (line.number, order) :=
                Entry.numberedOrder?_of_order ordered
              rw [Line.resolved_of_order ordered, List.filter_cons_of_pos (by simp [valid]),
                List.map_cons, inductionHypothesis, own]
              rfl

/-- The valid laid out lines carry the orders of the text and their numbers. -/
theorem numbered_placedLines_orders (text : String) :
    (validLines (placedLines text)).map Line.numbered =
      (numberedOrders text).map fun placed => (placed.1, some placed.2) := by
  rw [← map_validLines_erased Line.unplaced (fun _ => rfl) Line.numbered (fun _ => rfl),
    map_unplaced_placedLines,
    map_validLines_erased Line.unplaced (fun _ => rfl) Line.numbered (fun _ => rfl),
    resolvedLines, numbered_resolved, entries_labelledLines]
  rfl

/-- The valid laid out lines carry the orders of the text. -/
theorem orders_placedLines (text : String) :
    (validLines (placedLines text)).map Line.order = (commandOrders text).map some := by
  have both := congrArg (List.map Prod.snd) (numbered_placedLines_orders text)
  rw [List.map_map, List.map_map] at both
  rw [← map_snd_numberedOrders, List.map_map]
  exact both

/-- Every entry with an order reaches the encoding on a line of its own. -/
theorem placed_of_mem_commandEntries {text : String} {entry : Entry} {order : Order}
    (member : entry ∈ commandEntries text) (ordered : orderOf entry.tokens = .ok order) :
    Exists fun line =>
      line ∈ validLines (placedLines text) ∧ line.number = entry.number ∧
        line.order = some order := by
  rw [← entries_labelledLines] at member
  rcases List.mem_map.mp member with ⟨source, inLabelled, rfl⟩
  have listed := List.mem_filter.mp inLabelled
  have inResolved : source.resolved ∈ resolvedLines text := by
    rw [← onValid_of_valid Line.resolved listed.2]
    exact List.mem_map_of_mem listed.1
  have erased : source.resolved.unplaced ∈ (placedLines text).map Line.unplaced := by
    rw [map_unplaced_placedLines]
    exact List.mem_map_of_mem inResolved
  rw [Line.resolved_of_order ordered] at erased
  rcases List.mem_map.mp erased with ⟨line, inPlaced, same⟩
  have number := congrArg Line.number same
  have valid := congrArg Line.valid same
  exact ⟨line, List.mem_filter.mpr ⟨inPlaced, valid.trans listed.2⟩, number,
    congrArg Line.order same⟩

end NibbleMachine
