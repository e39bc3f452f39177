import NibbleMachine.Proofs.Grammar
import NibbleMachine.Proofs.Renumbering

namespace NibbleMachine

/-!
# The way of one line

The passes run over all lines, and what they know of other lines comes in at two
places only.  The symbols of a text are read off all of its lines, and the target
of an address load is looked for among them.  With the symbols given, the way of
a line through the passes before the layout is a function of its number and its
text: this is `Passage`.  The layout then gives it a position and encoding gives
it nibbles, or it was withdrawn on the way and stays as it is.

The same holds for what is recorded.  Every pass notes its problems line by line,
so the problems at a line are those of its own passage, pass after pass.

The last part compares two lines of two texts with the same symbols.  When they
are cut into the same tokens they end alike and the same is recorded for both,
unless they load an address.
-/

/-! ## Lines at their places -/

theorem getElem?_numberLines (next : Nat) (texts : List (List Char)) (index : Nat) :
    (numberLines next texts)[index]? =
      texts[index]?.map fun text => Line.fresh (next + index) (String.ofList text) := by
  induction texts generalizing next index with
  | nil => rfl
  | cons text rest inductionHypothesis =>
      cases index with
      | zero => rfl
      | succ smaller =>
          have shifted : next + 1 + smaller = next + (smaller + 1) := by omega
          rw [numberLines, List.getElem?_cons_succ, List.getElem?_cons_succ,
            inductionHypothesis, shifted]

/-- A valid line is laid out behind the valid lines before it. -/
theorem getElem?_layoutFrom (next : Nat) (lines : List Line) (index : Nat) :
    (layoutFrom next lines)[index]? = lines[index]?.map (onValid fun line =>
      { line with position := some (next + (validLines (lines.take index)).length) }) := by
  induction lines generalizing next index with
  | nil => rfl
  | cons line rest inductionHypothesis =>
      cases index with
      | zero =>
          cases valid : line.valid with
          | false => simp [layoutFrom, valid, onValid]
          | true => simp [layoutFrom, valid, onValid, validLines]
      | succ smaller =>
          cases valid : line.valid with
          | false => simp [layoutFrom, valid, inductionHypothesis, validLines]
          | true =>
              simp only [layoutFrom, valid, if_true, List.getElem?_cons_succ,
                inductionHypothesis, validLines, List.take_succ_cons, List.filter_cons_of_pos,
                List.length_cons]
              rw [Nat.add_assoc, Nat.add_comm 1]

theorem StepsAt.getElem? {Note : Type} {visit : Line -> Except Fault (Line × List Note)}
    {lines : List Line} {steps : List (Line × List Note)} (taken : StepsAt visit lines steps)
    {index : Nat} {line : Line} (listed : lines[index]? = some line) :
    Exists fun step => steps[index]? = some step ∧ visitOrKeep visit line = .ok step := by
  induction taken generalizing index with
  | nil => cases listed
  | cons stepped _ inductionHypothesis =>
      cases index with
      | zero =>
          cases listed
          exact ⟨_, rfl, stepped⟩
      | succ smaller => exact inductionHypothesis listed

/-! ## Passages -/

/-- What decides the way of a line through the passes before the layout: the
symbols of its text, and its own number and text. -/
structure Passage where
  defines : SymbolTable
  labels : SymbolTable
  number : Nat
  text : String

namespace Passage

def prepared (passage : Passage) : Line :=
  (Line.fresh passage.number passage.text).tokenize

def defined (passage : Passage) : Line :=
  onValid (Directive.define.settle passage.defines.entries) passage.prepared

def labelled (passage : Passage) : Line :=
  onValid (Directive.label.settle passage.labels.entries) passage.defined

def resolved (passage : Passage) : Line :=
  onValid Line.resolved passage.labelled

/-- How the line of a passage ends among laid out lines: when it was withdrawn it
stays as it is, and otherwise it is placed and encoded. -/
inductive EndsAs (lines : List Line) (passage : Passage) : Line -> Prop
  | withdrawn (invalid : passage.resolved.valid = false) : EndsAs lines passage passage.resolved
  | encoded (order : Order) (encoding : Encoding) (tokens : Option (List String))
      (position : Nat) (valid : passage.labelled.valid = true)
      (ordered : orderOf passage.labelled.tokenList = .ok order)
      (encodes : encodeOrder lines order = .ok encoding)
      (shown : showResolved (some order.tokens) encoding.resolved = .ok tokens) :
      EndsAs lines passage ({ passage.labelled with
        tokens := tokens, order := some order, position := some position }.store encoding.nibbles)

end Passage

/-- A line that was not withdrawn has an order. -/
theorem exists_order_of_valid (line : Line) (valid : (onValid Line.resolved line).valid = true) :
    line.valid = true ∧ Exists fun order => orderOf line.tokenList = .ok order ∧
      onValid Line.resolved line =
        { line with tokens := some order.tokens, order := some order } := by
  by_cases taking : line.valid = true
  · rw [onValid_of_valid _ taking] at valid ⊢
    cases ordered : orderOf line.tokenList with
    | error problem =>
        rw [Line.resolved_of_problem ordered] at valid
        cases valid
    | ok order => exact ⟨taking, order, rfl, Line.resolved_of_order ordered⟩
  · rw [onValid_of_invalid _ (eq_false_of_ne_true taking)] at valid
    exact absurd valid taking

/-- What the layout and the encoding do to a resolved line. -/
theorem placed_step {lines : List Line} {line : Line} {position : Nat}
    {step : Line × List Finding}
    (stepped : visitOrKeep (encodeLine lines)
      (onValid (fun line => { line with position := some position }) line) = .ok step) :
    (line.valid = false ∧ step.1 = line) ∨
      line.valid = true ∧ Exists fun order => Exists fun encoding => Exists fun tokens =>
        line.order = some order ∧ encodeOrder lines order = .ok encoding ∧
          showResolved line.tokens encoding.resolved = .ok tokens ∧
          step.1 =
            { line with tokens := tokens, position := some position }.store encoding.nibbles := by
  by_cases valid : line.valid = true
  · have placed : ({ line with position := some position } : Line).valid = true := valid
    rw [onValid_of_valid _ valid, visitOrKeep_of_valid _ placed] at stepped
    rcases (encodeLine_eq_ok_iff _ _ _).mp stepped with
      ⟨order, encoding, tokens, carries, encodes, shown, rfl⟩
    exact Or.inr ⟨valid, order, encoding, tokens, carries, encodes, shown, rfl⟩
  · have invalid := eq_false_of_ne_true valid
    rw [onValid_of_invalid _ invalid, visitOrKeep_of_invalid _ invalid] at stepped
    cases stepped
    exact Or.inl ⟨invalid, rfl⟩

/-- The passage of the line at a place of the text of an assembly. -/
def Assembly.passage (assembly : Assembly) (index : Nat) (source : List Char) : Passage where
  defines := assembly.defines
  labels := assembly.labels
  number := index + 1
  text := String.ofList source

section

variable {text : String} {assembly : Assembly} {index : Nat} {source : List Char}

theorem defines_eq (returned : assemble text = .ok assembly) :
    assembly.defines = Directive.define.table (sourceEntries text) := by
  rcases (assemble_eq_ok_iff text assembly).mp returned with ⟨steps, -, rfl⟩
  rfl

theorem getElem?_preparedLines (assembly : Assembly)
    (listed : (Text.lines text.toList)[index]? = some source) :
    (preparedLines text)[index]? = some (assembly.passage index source).prepared := by
  rw [preparedLines, prepare, List.getElem?_map, loadLines, getElem?_numberLines, listed,
    Nat.add_comm 1]
  rfl

theorem getElem?_definedLines (returned : assemble text = .ok assembly)
    (listed : (Text.lines text.toList)[index]? = some source) :
    (definedLines text)[index]? = some (assembly.passage index source).defined := by
  rw [definedLines, List.getElem?_map, getElem?_preparedLines assembly listed,
    ← defines_eq returned]
  rfl

theorem getElem?_labelledLines (returned : assemble text = .ok assembly)
    (listed : (Text.lines text.toList)[index]? = some source) :
    (labelledLines text)[index]? = some (assembly.passage index source).labelled := by
  rw [labelledLines, List.getElem?_map, getElem?_definedLines returned listed,
    ← labels_eq returned]
  rfl

theorem getElem?_resolvedLines (returned : assemble text = .ok assembly)
    (listed : (Text.lines text.toList)[index]? = some source) :
    (resolvedLines text)[index]? = some (assembly.passage index source).resolved := by
  rw [resolvedLines, List.getElem?_map, getElem?_labelledLines returned listed]
  rfl

/-- The line at a place ends as its passage says. -/
theorem exists_line_of_passage (returned : assemble text = .ok assembly)
    (listed : (Text.lines text.toList)[index]? = some source) :
    Exists fun line => assembly.lines[index]? = some line ∧
      (assembly.passage index source).EndsAs (placedLines text) line := by
  have placed := getElem?_layoutFrom 0 (resolvedLines text) index
  rw [getElem?_resolvedLines returned listed, Option.map_some] at placed
  generalize assembly.passage index source = passage at placed ⊢
  rcases (assemble_eq_ok_iff text assembly).mp returned with ⟨steps, taken, rfl⟩
  rcases taken.getElem? placed with ⟨step, inSteps, stepped⟩
  have ends : (steps.map Prod.fst)[index]? = some step.1 := by
    rw [List.getElem?_map, inSteps]
    rfl
  refine ⟨step.1, ends, ?_⟩
  rcases placed_step stepped with ⟨invalid, kept⟩ |
    ⟨valid, order, encoding, tokens, carries, encodes, shown, same⟩
  · rw [kept]
    exact .withdrawn invalid
  · rcases exists_order_of_valid passage.labelled valid with ⟨taking, own, ordered, resolved⟩
    rw [Passage.resolved, resolved] at carries shown same
    dsimp only at carries shown same
    cases carries
    rw [same]
    exact .encoded order encoding tokens _ taking ordered encodes shown

end

/-! ## Problems by passes -/

/-- The problems of a directive with the tokens of a line. -/
def Directive.problems (directive : Directive) (tokens : List String) : List Problem :=
  if directive.opens tokens = true ∧ tokens.length ≠ directive.tokenCount then
    [directive.problem] else []

theorem Directive.problems_of_not_opens (directive : Directive) {tokens : List String}
    (closed : directive.opens tokens = false) : directive.problems tokens = [] :=
  if_neg fun wrong => Bool.false_ne_true (closed.symm.trans wrong.1)

def resolveProblems (tokens : List String) : List Problem :=
  match orderOf tokens with
  | .ok _ => []
  | .error problem => [problem]

/-- The problems of encoding the order that tokens stand for. -/
def encodeProblems (lines : List Line) (tokens : List String) : List Problem :=
  match orderOf tokens with
  | .ok order => orderProblems lines order
  | .error _ => []

/-- The findings of a pass that judges entries by their tokens. -/
def tokenFindings (problems : List String -> List Problem) (entries : List Entry) :
    List Finding :=
  locatedFindings Entry.number (fun entry => problems entry.tokens) entries

/-- The problems that a pass records for a line: none when it is not visited. -/
def Line.problemsBy (problems : List String -> List Problem) (line : Line) : List Problem :=
  if line.valid then problems line.tokenList else []

theorem Line.problemsBy_of_valid (problems : List String -> List Problem) {line : Line}
    (valid : line.valid = true) : line.problemsBy problems = problems line.tokenList := by
  simp [problemsBy, valid]

theorem Line.problemsBy_of_invalid (problems : List String -> List Problem) {line : Line}
    (invalid : line.valid = false) : line.problemsBy problems = [] := by
  simp [problemsBy, invalid]

theorem findingsOf_declarations (directive : Directive) (entries : List Entry) :
    findingsOf (directive.declarations entries) = tokenFindings directive.problems entries := by
  have one : forall entry : Entry, directive.opens entry.tokens = true ->
      (directive.declare entry.number entry.tokens.tail).finding?.toList =
        (directive.problems entry.tokens).map (Finding.atLine entry.number) := by
    intro entry opened
    have counts := directive.finding?_declare_eq_none_iff entry.number entry.tokens.tail
    have length : entry.tokens.tail.length + 1 = entry.tokens.length := by
      cases shape : entry.tokens with
      | nil => simp [Directive.opens, shape] at opened
      | cons name operands => rfl
    rw [length] at counts
    by_cases right : entry.tokens.length = directive.tokenCount
    · rw [counts.mpr right, Directive.problems, if_neg fun wrong => wrong.2 right]
      rfl
    · cases found : (directive.declare entry.number entry.tokens.tail).finding? with
      | none => exact absurd (counts.mp found) right
      | some finding =>
          rw [Directive.problems, if_pos ⟨opened, right⟩]
          unfold Directive.declare at found
          split at found
          · cases found
          · cases found
          · cases found
            rfl
  induction entries with
  | nil => rfl
  | cons entry rest inductionHypothesis =>
      have split : tokenFindings directive.problems (entry :: rest) =
          (directive.problems entry.tokens).map (Finding.atLine entry.number) ++
            tokenFindings directive.problems rest := by
        rw [tokenFindings, locatedFindings, List.flatMap_cons]
        rfl
      rw [split, ← inductionHypothesis]
      cases opened : directive.opens entry.tokens with
      | false =>
          rw [directive.problems_of_not_opens opened, Directive.declarations,
            List.filter_cons_of_neg (by simp [opened])]
          rfl
      | true =>
          rw [← one entry opened, Directive.declarations,
            List.filter_cons_of_pos (by simp [opened]), List.map_cons, findingsOf,
            List.filterMap_cons]
          cases (directive.declare entry.number entry.tokens.tail).finding? <;> rfl

theorem flatMap_resolveFindings (entries : List Entry) :
    entries.flatMap Entry.resolveFindings = tokenFindings resolveProblems entries := by
  apply List.flatMap_congr
  intro entry _
  cases ordered : orderOf entry.tokens <;>
    simp [Entry.resolveFindings, resolveProblems, ordered]

theorem encodeFindings_numberedOrders (lines : List Line) (text : String) :
    encodeFindings lines (numberedOrders text) =
      tokenFindings (encodeProblems lines) (commandEntries text) := by
  rw [encodeFindings, numberedOrders, List.filterMap_eq_flatMap_toList, List.flatMap_assoc]
  apply List.flatMap_congr
  intro entry _
  cases ordered : orderOf entry.tokens with
  | error problem =>
      simp [Entry.numberedOrder?_of_problem ordered, encodeProblems, ordered]
  | ok order =>
      simp [Entry.numberedOrder?_of_order ordered, encodeProblems, ordered]

/-- The findings of an assembly, pass by pass. -/
theorem findings_eq_tokenFindings {text : String} {assembly : Assembly}
    (returned : assemble text = .ok assembly) :
    assembly.findings =
      tokenFindings Directive.define.problems (entries (preparedLines text)) ++
        tokenFindings Directive.label.problems (entries (definedLines text)) ++
        tokenFindings resolveProblems (entries (labelledLines text)) ++
        tokenFindings (encodeProblems (placedLines text)) (entries (labelledLines text)) ++
        imageFindings assembly.lines := by
  rw [findings_eq returned, findingsOf_declarations, findingsOf_declarations,
    flatMap_resolveFindings, encodeFindings_numberedOrders, entries_preparedLines,
    entries_definedLines, entries_labelledLines]

theorem map_number_entries (lines : List Line) :
    (entries lines).map Entry.number = (validLines lines).map Line.number := by
  rw [entries, List.map_map]
  rfl

theorem number_increases_entries {lines : List Line} (numbered : Numbered lines) :
    ((entries lines).map Entry.number).Pairwise fun first second => first < second := by
  rw [map_number_entries]
  exact number_increases_of_numbered numbered

/-- A pass over numbered lines records for a line the problems of its own tokens. -/
theorem problemsAt_tokenFindings (problems : List String -> List Problem) {lines : List Line}
    (numbered : Numbered lines) {line : Line} (member : line ∈ lines) :
    (tokenFindings problems (entries lines)).filterMap (Finding.problemAt? line.number) =
      line.problemsBy problems := by
  cases valid : line.valid with
  | true =>
      have nodup : ((entries lines).map Entry.number).Nodup :=
        (number_increases_entries numbered).imp Nat.ne_of_lt
      have listed : line.entry ∈ entries lines :=
        List.mem_map_of_mem (List.mem_filter.mpr ⟨member, valid⟩)
      rw [Line.problemsBy_of_valid problems valid]
      exact problemsAt_locatedFindings Entry.number (fun entry => problems entry.tokens) nodup
        listed
  | false =>
      rw [Line.problemsBy_of_invalid problems valid]
      apply problemsAt_locatedFindings_of_not_mem
      rw [map_number_entries]
      intro listed
      rcases List.mem_map.mp listed with ⟨other, inValid, same⟩
      have taking := List.mem_filter.mp inValid
      have nodup : (lines.map Line.number).Nodup := by
        rw [numbered]
        exact List.nodup_range'
      rw [List.inj_on_of_nodup_map nodup taking.1 member same] at taking
      exact Bool.false_ne_true (valid.symm.trans taking.2)

/-- The problems of a passage among laid out lines, pass after pass. -/
def Passage.problems (lines : List Line) (passage : Passage) : List Problem :=
  passage.prepared.problemsBy Directive.define.problems ++
    passage.defined.problemsBy Directive.label.problems ++
    passage.labelled.problemsBy resolveProblems ++
    passage.labelled.problemsBy (encodeProblems lines)

section

variable {text : String} {assembly : Assembly} {index : Nat} {source : List Char}

theorem numbered_definedLines (text : String) : Numbered (definedLines text) := by
  have same : (definedLines text).map Line.bare = (preparedLines text).map Line.bare :=
    map_bare_onValid _ (Line.bare_settle _ _) _
  have numbers := congrArg (List.map Line.number) (same.trans (map_bare_preparedLines text))
  rw [List.map_map, List.map_map] at numbers
  exact numbered_of_map_number numbers

theorem numbered_labelledLines (text : String) : Numbered (labelledLines text) := by
  have same : (labelledLines text).map Line.bare = (definedLines text).map Line.bare :=
    map_bare_onValid _ (Line.bare_settle _ _) _
  have numbers := congrArg (List.map Line.number) same
  rw [List.map_map, List.map_map] at numbers
  have length : (labelledLines text).length = (definedLines text).length := by
    simpa using congrArg List.length same
  rw [Numbered, length]
  exact numbers.trans (numbered_definedLines text)

theorem number_of_getElem? {lines : List Line} (numbered : Numbered lines) {line : Line}
    (listed : lines[index]? = some line) : line.number = index + 1 := by
  have here := congrArg (fun numbers => numbers[index]?) numbered
  have within := (List.getElem?_eq_some_iff.mp listed).1
  simp only [List.getElem?_map, listed, Option.map_some, List.getElem?_range' within] at here
  have same := Option.some.inj here
  omega

/-- What a pass over numbered lines records for the line at a place. -/
theorem problemsAt_pass (problems : List String -> List Problem) {lines : List Line}
    (numbered : Numbered lines) {line : Line} (listed : lines[index]? = some line) :
    (tokenFindings problems (entries lines)).filterMap (Finding.problemAt? (index + 1)) =
      line.problemsBy problems := by
  rw [← number_of_getElem? numbered listed]
  exact problemsAt_tokenFindings problems numbered (List.mem_of_getElem? listed)

/-- The problems recorded for a line are those of its passage. -/
theorem problemsAt_passage (returned : assemble text = .ok assembly)
    (listed : (Text.lines text.toList)[index]? = some source) :
    assembly.problemsAt (index + 1) =
      (assembly.passage index source).problems (placedLines text) := by
  have labelled := getElem?_labelledLines returned listed
  have whole : (imageFindings assembly.lines).filterMap (Finding.problemAt? (index + 1)) = [] := by
    rw [imageFindings_eq]
    split <;> rfl
  rw [Assembly.problemsAt, findings_eq_tokenFindings returned, List.filterMap_append,
    List.filterMap_append, List.filterMap_append, List.filterMap_append, whole, List.append_nil,
    problemsAt_pass _ (numbered_preparedLines text) (getElem?_preparedLines assembly listed),
    problemsAt_pass _ (numbered_definedLines text) (getElem?_definedLines returned listed),
    problemsAt_pass _ (numbered_labelledLines text) labelled,
    problemsAt_pass _ (numbered_labelledLines text) labelled]
  rfl

theorem length_lines (returned : assemble text = .ok assembly) :
    assembly.lines.length = (Text.lines text.toList).length := by
  have encoded := congrArg List.length (map_unencoded_lines returned)
  have placed := congrArg List.length (map_unplaced_placedLines text)
  have loaded := congrArg List.length (map_bare_resolvedLines text)
  have numbers := congrArg List.length (map_number_numberLines 1 (Text.lines text.toList))
  rw [List.length_map, List.length_map] at encoded placed
  rw [List.length_map] at loaded
  rw [List.length_map, List.length_range'] at numbers
  rw [encoded, placed, loaded, loadLines, numbers]

/-- Every line of an assembly comes from a line of the text. -/
theorem exists_source_of_line {line : Line} (returned : assemble text = .ok assembly)
    (listed : assembly.lines[index]? = some line) :
    Exists fun source => (Text.lines text.toList)[index]? = some source ∧
      (assembly.passage index source).EndsAs (placedLines text) line := by
  have within := (List.getElem?_eq_some_iff.mp listed).1
  rw [length_lines returned] at within
  have read := List.getElem?_eq_getElem within
  rcases exists_line_of_passage returned read with ⟨other, alsoListed, ends⟩
  rw [listed] at alsoListed
  cases alsoListed
  exact ⟨_, read, ends⟩

end

/-! ## Lines with the same tokens -/

def Line.anonymous (line : Line) : Line :=
  { line with number := 0, text := "" }

theorem onValid_anonymous {change : Line -> Line}
    (ignores : forall line, (change line).anonymous = change line.anonymous) (line : Line) :
    (onValid change line).anonymous = onValid change line.anonymous := by
  have kept : line.anonymous.valid = line.valid := rfl
  unfold onValid
  rw [kept]
  split
  · exact ignores line
  · rfl

theorem settle_anonymous (directive : Directive) (symbols : List (String × String))
    (line : Line) :
    (directive.settle symbols line).anonymous = directive.settle symbols line.anonymous := by
  have kept : line.anonymous.tokenList = line.tokenList := rfl
  unfold Directive.settle
  rw [kept]
  split
  · rfl
  · rfl

theorem resolved_anonymous (line : Line) : line.resolved.anonymous = line.anonymous.resolved := by
  have kept : line.anonymous.tokenList = line.tokenList := rfl
  unfold Line.resolved
  rw [kept]
  split
  · rfl
  · rfl

/-- Lines that are cut into the same tokens are alike when they have been cut. -/
theorem tokenize_anonymous {text other : String}
    (tokens : tokensOf (clean text) = tokensOf (clean other)) (number otherNumber : Nat) :
    (Line.fresh number text).tokenize.anonymous =
      (Line.fresh otherNumber other).tokenize.anonymous := by
  by_cases solid : tokensOf (clean text) = []
  · have blank : forall line : Line, tokensOf (clean line.text) = [] ->
        line.tokenize = line.withdraw := by
      intro line none
      apply tokenize_of_blank
      cases empty : (clean line.text).isEmpty with
      | true => rfl
      | false => exact absurd none (tokensOf_clean_ne_nil empty)
    rw [blank (Line.fresh number text) solid,
      blank (Line.fresh otherNumber other) (tokens.symm.trans solid)]
    rfl
  · have filled : (clean (Line.fresh number text).text).isEmpty = false :=
      not_blank_of_tokensOf_clean solid
    have otherFilled : (clean (Line.fresh otherNumber other).text).isEmpty = false :=
      not_blank_of_tokensOf_clean (tokens ▸ solid)
    rw [tokenize_of_not_blank filled, tokenize_of_not_blank otherFilled]
    exact congrArg (fun tokens => { Line.fresh 0 "" with tokens := some tokens }) tokens

/-- Two passages with the same symbols whose lines are cut into the same tokens. -/
structure Passage.Alike (first second : Passage) : Prop where
  defines : first.defines = second.defines
  labels : first.labels = second.labels
  tokens : tokensOf (clean first.text) = tokensOf (clean second.text)

namespace Passage.Alike

variable {first second : Passage} (alike : first.Alike second)

include alike

theorem prepared : first.prepared.anonymous = second.prepared.anonymous :=
  tokenize_anonymous alike.tokens first.number second.number

theorem defined : first.defined.anonymous = second.defined.anonymous := by
  rw [Passage.defined, Passage.defined, onValid_anonymous (settle_anonymous _ _),
    onValid_anonymous (settle_anonymous _ _), alike.defines, alike.prepared]

theorem labelled : first.labelled.anonymous = second.labelled.anonymous := by
  rw [Passage.labelled, Passage.labelled, onValid_anonymous (settle_anonymous _ _),
    onValid_anonymous (settle_anonymous _ _), alike.labels, alike.defined]

theorem resolved : first.resolved.anonymous = second.resolved.anonymous := by
  rw [Passage.resolved, Passage.resolved, onValid_anonymous resolved_anonymous,
    onValid_anonymous resolved_anonymous, alike.labelled]

end Passage.Alike

theorem problemsBy_anonymous (problems : List String -> List Problem) (line : Line) :
    line.anonymous.problemsBy problems = line.problemsBy problems := rfl

/-- Lines that differ in number and text only agree in everything else. -/
theorem fields_of_anonymous {first second : Line} (alike : first.anonymous = second.anonymous) :
    first.valid = second.valid ∧ first.tokens = second.tokens ∧ first.order = second.order ∧
      first.nibbles = second.nibbles := by
  simp only [Line.anonymous, Line.mk.injEq, true_and] at alike
  exact ⟨alike.1, alike.2.1, alike.2.2.1, alike.2.2.2.2.1⟩

theorem Passage.valid_resolved {passage : Passage} {order : Order}
    (valid : passage.labelled.valid = true)
    (ordered : orderOf passage.labelled.tokenList = .ok order) :
    passage.resolved.valid = true := by
  rw [resolved, onValid_of_valid _ valid, Line.resolved_of_order ordered]
  dsimp only
  exact valid

/-- The line of a passage that is not withdrawn keeps the order of its tokens. -/
theorem Passage.EndsAs.order_of_valid {lines : List Line} {passage : Passage} {line : Line}
    (ends : passage.EndsAs lines line) {order : Order} (valid : passage.labelled.valid = true)
    (ordered : orderOf passage.labelled.tokenList = .ok order) : line.order = some order := by
  cases ends with
  | withdrawn invalid =>
      rw [valid_resolved valid ordered] at invalid
      cases invalid
  | encoded own _ _ _ _ alsoOrdered =>
      rw [ordered] at alsoOrdered
      cases alsoOrdered
      rfl

/-- A line that is alike one that was encoded was encoded too, from the same order. -/
theorem Passage.Alike.ends {first second : Passage} (alike : first.Alike second)
    {lines others : List Line} {line other : Line} (ends : first.EndsAs lines line)
    (otherEnds : second.EndsAs others other)
    (encodes : forall order, line.order = some order ->
      encodeOrder others order = encodeOrder lines order) :
    line.valid = other.valid ∧ line.tokens = other.tokens ∧ line.order = other.order ∧
      line.nibbles = other.nibbles := by
  rcases fields_of_anonymous alike.labelled with ⟨sameValid, sameTokens, -, -⟩
  have resolved := fields_of_anonymous alike.resolved
  cases ends with
  | withdrawn invalid =>
      cases otherEnds with
      | withdrawn => exact resolved
      | encoded order encoding tokens position valid ordered =>
          rw [resolved.1, Passage.valid_resolved valid ordered] at invalid
          cases invalid
  | encoded order encoding tokens position valid ordered encoded shown =>
      cases otherEnds with
      | withdrawn invalid =>
          rw [← resolved.1, Passage.valid_resolved valid ordered] at invalid
          cases invalid
      | encoded other otherEncoding otherTokens _ _ otherOrdered otherEncoded otherShown =>
          have same : first.labelled.tokenList = second.labelled.tokenList :=
            congrArg (Option.getD · []) sameTokens
          rw [same, otherOrdered] at ordered
          cases ordered
          rw [encodes order rfl, encoded] at otherEncoded
          cases otherEncoded
          rw [shown] at otherShown
          cases otherShown
          simp only [Line.valid_store, Line.tokens_store, Line.order_store, Line.nibbles_store,
            and_true]
          exact sameValid

theorem Passage.Alike.problems {first second : Passage} (alike : first.Alike second)
    {lines others : List Line}
    (encodes : forall order, first.labelled.valid = true ->
      orderOf first.labelled.tokenList = .ok order ->
        encodeOrder others order = encodeOrder lines order) :
    first.problems lines = second.problems others := by
  have same : forall {line other : Line} (problems : List String -> List Problem),
      line.anonymous = other.anonymous -> line.problemsBy problems = other.problemsBy problems := by
    intro line other problems agree
    rw [← problemsBy_anonymous, agree, problemsBy_anonymous]
  have encoding : first.labelled.problemsBy (encodeProblems lines) =
      first.labelled.problemsBy (encodeProblems others) := by
    cases valid : first.labelled.valid with
    | false => rw [Line.problemsBy_of_invalid _ valid, Line.problemsBy_of_invalid _ valid]
    | true =>
        rw [Line.problemsBy_of_valid _ valid, Line.problemsBy_of_valid _ valid, encodeProblems,
          encodeProblems]
        cases ordered : orderOf first.labelled.tokenList with
        | error problem => rfl
        | ok order => simp only [orderProblems, encodes order valid ordered]
  rw [Passage.problems, Passage.problems, encoding, same _ alike.prepared, same _ alike.defined,
    same _ alike.labelled, same _ alike.labelled]

/-- Errors stay on their lines.  Two texts with the same symbols may differ in any
other way: a line of one and a line of the other that are cut into the same tokens
end alike, in everything but their numbers, texts and positions, and the same
problems are recorded for both in the same order, as long as they are not resolved
to an address load. -/
theorem line_outcome_is_local (text other : String) (assembly otherAssembly : Assembly)
    (returned : assemble text = .ok assembly) (otherReturned : assemble other = .ok otherAssembly)
    (defines : assembly.defines = otherAssembly.defines)
    (labels : assembly.labels = otherAssembly.labels) (index otherIndex : Nat)
    (source otherSource : List Char) (listed : (Text.lines text.toList)[index]? = some source)
    (otherListed : (Text.lines other.toList)[otherIndex]? = some otherSource)
    (tokens : tokensOf (clean (String.ofList source)) =
      tokensOf (clean (String.ofList otherSource))) :
    Exists fun line => Exists fun twin =>
      assembly.lines[index]? = some line ∧ otherAssembly.lines[otherIndex]? = some twin ∧
        line.number = index + 1 ∧ twin.number = otherIndex + 1 ∧
        (¬ line.LoadsAddress ->
          line.valid = twin.valid ∧ line.tokens = twin.tokens ∧ line.order = twin.order ∧
            line.nibbles = twin.nibbles ∧ line.word = twin.word ∧
            Exists fun problems : List Problem =>
              (assembly.messagesAt line.number = problems.map fun problem =>
                "ERROR in Line " ++ Numeral.decimal line.number ++ ": " ++ problem.message) ∧
              otherAssembly.messagesAt twin.number = problems.map fun problem =>
                "ERROR in Line " ++ Numeral.decimal twin.number ++ ": " ++ problem.message) := by
  have alike : (assembly.passage index source).Alike
      (otherAssembly.passage otherIndex otherSource) := ⟨defines, labels, tokens⟩
  rcases exists_line_of_passage returned listed with ⟨line, inLines, ends⟩
  rcases exists_line_of_passage otherReturned otherListed with ⟨twin, inOthers, twinEnds⟩
  have number := number_of_getElem? (numbered_lines returned) inLines
  have twinNumber := number_of_getElem? (numbered_lines otherReturned) inOthers
  refine ⟨line, twin, inLines, inOthers, number, twinNumber, ?_⟩
  intro unloaded
  have elsewhere : forall order, line.order = some order ->
      encodeOrder (placedLines other) order = encodeOrder (placedLines text) order := by
    intro order carries
    apply encodeOrder_of_not_load
    intro target operand loads
    apply unloaded
    rw [Line.LoadsAddress, carries, loads]
    rfl
  rcases alike.ends ends twinEnds elsewhere with ⟨valid, shown, orders, nibbles⟩
  have recorded := alike.problems fun order taking ordered =>
    elsewhere order (ends.order_of_valid taking ordered)
  refine ⟨valid, shown, orders, nibbles, ?_, _, messagesAt_eq assembly line.number, ?_⟩
  · rw [packed_of_mem_lines returned (List.mem_of_getElem? inLines),
      packed_of_mem_lines otherReturned (List.mem_of_getElem? inOthers), nibbles]
  · rw [messagesAt_eq, number, twinNumber, problemsAt_passage returned listed,
      problemsAt_passage otherReturned otherListed, recorded]

/-- The second line of one text and the fourth of another, with a malformed
directive and a line that is dropped before it.  Two of its operands are no
registers. -/
theorem line_outcome_is_local_of_sample :
    Exists fun assembly => Exists fun otherAssembly => Exists fun line => Exists fun twin =>
      assemble "#define t r3\nadd t, r9, 7\nla r1, 1" = .ok assembly ∧
        assemble "x\n#define\n#define T R3 // c\nADD t r9 7" = .ok otherAssembly ∧
        assembly.lines[1]? = some line ∧ otherAssembly.lines[3]? = some twin ∧
        line.nibbles = some ⟨0, 3, 0, 0⟩ ∧ line.nibbles = twin.nibbles ∧
        assembly.messagesAt 2 = ["ERROR in Line 2: Invalid Register Number!",
          "ERROR in Line 2: Invalid Register!"] ∧
        Exists fun problems : List Problem =>
          (assembly.messagesAt 2 = problems.map fun problem =>
            "ERROR in Line " ++ Numeral.decimal (2 : Nat) ++ ": " ++ problem.message) ∧
          otherAssembly.messagesAt 4 = problems.map fun problem =>
            "ERROR in Line " ++ Numeral.decimal (4 : Nat) ++ ": " ++ problem.message := by
  rcases exists_assembly_of_map "#define t r3\nadd t, r9, 7\nla r1, 1"
    (fun assembly => ((assembly.defines, assembly.labels),
      (assembly.lines[1]?.map fun line : Line => (decide line.LoadsAddress, line.nibbles)),
      assembly.messagesAt 2))
    (show _ = some ((⟨[("t", "r3")]⟩, .empty), some (false, some (⟨0, 3, 0, 0⟩ : Nibbles)),
      ["ERROR in Line 2: Invalid Register Number!", "ERROR in Line 2: Invalid Register!"]) by
        decide +kernel)
    with ⟨assembly, returned, read⟩
  rcases exists_assembly_of_map "x\n#define\n#define T R3 // c\nADD t r9 7"
    (fun assembly => (assembly.defines, assembly.labels))
    (show _ = some (⟨[("t", "r3")]⟩, .empty) by decide +kernel)
    with ⟨otherAssembly, otherReturned, otherRead⟩
  simp only [Prod.mk.injEq, Option.map_eq_some_iff, decide_eq_false_iff_not] at read otherRead
  rcases read with ⟨⟨defines, labels⟩, ⟨line, inLines, unloaded, encoded⟩, recorded⟩
  rcases line_outcome_is_local _ _ assembly otherAssembly returned otherReturned
    (defines.trans otherRead.1.symm) (labels.trans otherRead.2.symm) 1 3 "add t, r9, 7".toList
    "ADD t r9 7".toList (by decide +kernel) (by decide +kernel) (by decide +kernel) with
    ⟨same, twin, listed, otherListed, number, twinNumber, outcome⟩
  rw [listed] at inLines
  cases inLines
  rcases outcome unloaded with ⟨-, -, -, nibbles, -, problems, messages, otherMessages⟩
  rw [number] at messages
  rw [twinNumber] at otherMessages
  exact ⟨assembly, otherAssembly, line, twin, returned, otherReturned, listed, otherListed, encoded,
    nibbles, recorded, problems, messages, otherMessages⟩

end NibbleMachine
