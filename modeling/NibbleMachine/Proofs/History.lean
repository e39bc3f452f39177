import NibbleMachine.Session
import NibbleMachine.Proofs.Image
import Mathlib.Data.List.Forall2

namespace NibbleMachine

/-!
# Sessions in any order

The passes are written for one order, but a session runs them in any order, as often
as wanted, and goes on after a fault with the lines as the fault left them.  So a line
may be encoded from an old order, at an old position, with tokens that were cut again.

What a line keeps through all of this is a relation between the line before and the
line after a pass, `Line.Follows`.  Every pass treats each line on its own or leaves
it, a pass that stops included, so it is enough to look at one visit.  The relation is
reflexive and transitive, and thus holds between any two moments of a session.
-/

/-! ## What a line keeps -/

/-- A line whose word is packed from its nibbles and whose nibbles, if it has any, name a
register as destination. -/
structure Line.WellEncoded (line : Line) : Prop where
  packed : line.Packed
  target : forall nibbles, line.nibbles = some nibbles -> nibbles.target.val ≤ 7

/-- What holds between a line and itself at a later moment.  The condition says that
lines have been cut into tokens in between. -/
structure Line.Follows (cut : Prop) (before after : Line) : Prop where
  number : after.number = before.number
  text : after.text = before.text
  withdrawn : before.valid = false -> after = { before with tokens := after.tokens }
  tokens : before.valid = false -> ¬ cut -> after.tokens = before.tokens
  encoded : before.WellEncoded -> after.WellEncoded

namespace Line.Follows

theorem refl (cut : Prop) (line : Line) : line.Follows cut line where
  number := rfl
  text := rfl
  withdrawn _ := rfl
  tokens _ _ := rfl
  encoded := id

/-- A line that is invalid stays so. -/
theorem invalid {cut : Prop} {before after : Line} (follows : before.Follows cut after)
    (invalid : before.valid = false) : after.valid = false := by
  rw [follows.withdrawn invalid]
  exact invalid

theorem trans {first second : Prop} {before between after : Line}
    (early : before.Follows first between) (late : between.Follows second after) :
    before.Follows (first ∨ second) after where
  number := late.number.trans early.number
  text := late.text.trans early.text
  withdrawn invalid := by
    rw [late.withdrawn (early.invalid invalid), early.withdrawn invalid]
  tokens invalid uncut := by
    rw [late.tokens (early.invalid invalid) fun cut => uncut (Or.inr cut),
      early.tokens invalid fun cut => uncut (Or.inl cut)]
  encoded := late.encoded ∘ early.encoded

theorem imp {first second : Prop} (weaker : first -> second) {before after : Line}
    (follows : before.Follows first after) : before.Follows second after :=
  { follows with
    tokens := fun invalid uncut => follows.tokens invalid fun cut => uncut (weaker cut) }

/-- A visit to a valid line may change all but its number and text. -/
theorem of_valid {before after : Line} (valid : before.valid = true)
    (number : after.number = before.number) (text : after.text = before.text)
    (encoded : before.WellEncoded -> after.WellEncoded) : before.Follows False after where
  number := number
  text := text
  withdrawn invalid := nomatch valid.symm.trans invalid
  tokens invalid := nomatch valid.symm.trans invalid
  encoded := encoded

/-- A visit to a valid line that changes what the passes before the layout find out. -/
theorem of_bare {before after : Line} (valid : before.valid = true)
    (same : after.bare = before.bare) : before.Follows False after := by
  simp only [Line.bare, Line.mk.injEq, true_and] at same
  rcases same with ⟨number, text, -, nibbles, word⟩
  refine .of_valid valid number text fun well => ⟨?_, ?_⟩
  · rw [Packed, nibbles, word]
    exact well.packed
  · rw [nibbles]
    exact well.target

end Line.Follows

/-- Two lists of lines, of which the second is the first at a later moment. -/
def LinesFollow (cut : Prop) : List Line -> List Line -> Prop :=
  List.Forall₂ (Line.Follows cut)

namespace LinesFollow

theorem refl (cut : Prop) (lines : List Line) : LinesFollow cut lines lines :=
  List.forall₂_same.mpr fun line _ => .refl cut line

theorem imp {first second : Prop} (weaker : first -> second) {before after : List Line}
    (follow : LinesFollow first before after) : LinesFollow second before after :=
  List.Forall₂.imp (fun _ _ follows => follows.imp weaker) follow

theorem trans {first second : Prop} {before between after : List Line}
    (early : LinesFollow first before between) (late : LinesFollow second between after) :
    LinesFollow (first ∨ second) before after := by
  induction early generalizing after with
  | nil =>
      cases late
      exact .nil
  | cons head _ inductionHypothesis =>
      rcases late with _ | ⟨lateHead, lateRest⟩
      exact .cons (head.trans lateHead) (inductionHypothesis lateRest)

/-- What following lines agree in, they agree in at every place. -/
theorem map_eq {cut : Prop} {before after : List Line} (follow : LinesFollow cut before after)
    {Kept : Type} (keep : Line -> Kept)
    (keeps : forall {line later : Line}, line.Follows cut later -> keep later = keep line) :
    after.map keep = before.map keep := by
  induction follow with
  | nil => rfl
  | cons head _ inductionHypothesis =>
      rw [List.map_cons, List.map_cons, keeps head, inductionHypothesis]

theorem getElem? {cut : Prop} {before after : List Line} (follow : LinesFollow cut before after)
    {index : Nat} {line : Line} (listed : before[index]? = some line) :
    Exists fun later => after[index]? = some later ∧ line.Follows cut later := by
  induction follow generalizing index with
  | nil => cases listed
  | cons head _ inductionHypothesis =>
      cases index with
      | zero =>
          cases listed
          exact ⟨_, rfl, head⟩
      | succ smaller => exact inductionHypothesis listed

theorem wellEncoded {cut : Prop} {before after : List Line} (follow : LinesFollow cut before after)
    (well : forall line, line ∈ before -> line.WellEncoded) :
    forall line, line ∈ after -> line.WellEncoded := by
  induction follow with
  | nil => exact well
  | cons head _ inductionHypothesis =>
      rw [List.forall_mem_cons] at well ⊢
      exact ⟨head.encoded well.1, inductionHypothesis well.2⟩

end LinesFollow

/-! ## One pass -/

/-- A sweep is followed when each of its visits is, also when it stops. -/
theorem linesFollow_sweep {Note : Type} {visit : Line -> Except Fault (Line × List Note)}
    (visits : forall line step, line.valid = true -> visit line = .ok step ->
      line.Follows False step.1) (lines : List Line) :
    LinesFollow False lines (sweep visit lines).lines := by
  induction lines with
  | nil => exact .nil
  | cons line rest inductionHypothesis =>
      unfold sweep
      split
      · next valid =>
          split
          -- the sweep stops here and leaves this line and the rest as they were
          · exact .refl False (line :: rest)
          · next step notes visited => exact .cons (visits line _ valid visited) inductionHypothesis
      · exact .cons (.refl False line) inductionHypothesis

theorem bare_of_visit {directive : Directive} {line : Line} {step : Line × List Declaration}
    (visited : directive.visit line = .ok step) : step.1.bare = line.bare := by
  unfold Directive.visit at visited
  split at visited
  · cases visited
  · cases visited
  · split at visited
    · cases visited
      rfl
    · cases visited
      rfl

theorem bare_of_replaceInLine {name value : String} {line : Line} {step : Line × List Finding}
    (visited : replaceInLine name value line = .ok step) : step.1.bare = line.bare := by
  rcases (replaceInLine_eq_ok_iff name value line step).mp visited with ⟨tokens, -, rfl⟩
  rfl

theorem bare_resolveTokens (line : Line) (tokens : List String) :
    (resolveTokens line tokens).1.bare = line.bare := by
  unfold resolveTokens
  split
  · rfl
  · rfl

theorem bare_of_resolveLine {line : Line} {step : Line × List Finding}
    (visited : resolveLine line = .ok step) : step.1.bare = line.bare := by
  unfold resolveLine at visited
  split at visited
  · cases visited
  · cases visited
  · split at visited
    · cases visited
      exact bare_resolveTokens line _
    · split at visited
      · cases visited
        rfl
      · cases visited
        exact bare_resolveTokens _ _

theorem linesFollow_substitute (symbols : List (String × String)) (lines : List Line) :
    LinesFollow False lines (substitute symbols lines).lines := by
  refine substitute_keeps (LinesFollow False lines) (fun symbol _ later follows => ?_)
    (.refl False lines)
  have swept : LinesFollow False later (sweep (replaceInLine symbol.1 symbol.2) later).lines :=
    linesFollow_sweep
      (fun _ _ valid visited => .of_bare valid (bare_of_replaceInLine visited)) later
  exact (follows.trans swept).imp or_self_iff.mp

theorem linesFollow_layoutFrom (next : Nat) (lines : List Line) :
    LinesFollow False lines (layoutFrom next lines) := by
  induction lines generalizing next with
  | nil => exact .nil
  | cons line rest inductionHypothesis =>
      unfold layoutFrom
      split
      · next valid =>
          exact .cons (.of_valid valid rfl rfl fun well => ⟨well.packed, well.target⟩)
            (inductionHypothesis _)
      · exact .cons (.refl False line) (inductionHypothesis _)

theorem target_registerOperand (operand : String) : (registerOperand operand).1.val ≤ 7 := by
  unfold registerOperand
  split
  · next register _ => exact Nat.le_of_lt_succ register.isLt
  · exact Nat.zero_le 7

/-- Every encoding names a register as destination. -/
theorem target_of_encodeOrder {lines : List Line} {order : Order} {encoding : Encoding}
    {nibbles : Nibbles} (encoded : encodeOrder lines order = .ok encoding)
    (encodes : encoding.nibbles = some nibbles) : nibbles.target.val ≤ 7 := by
  cases (encodeOrder_eq_ok_iff _ _ _).mp encoded with
  | calculate | immediate | memory | loadAddress =>
      cases encodes
      exact target_registerOperand _
  | miscounted => cases encodes

theorem follows_encodeLine {lines : List Line} {line : Line} {step : Line × List Finding}
    (valid : line.valid = true) (visited : encodeLine lines line = .ok step) :
    line.Follows False step.1 := by
  rcases (encodeLine_eq_ok_iff _ _ _).mp visited with ⟨order, encoding, tokens, -, encoded, -, rfl⟩
  exact .of_valid valid rfl rfl fun _ => ⟨rfl, fun _ => target_of_encodeOrder encoded⟩

theorem follows_tokenize (line : Line) : line.Follows True line.tokenize := by
  cases blank : (clean line.text).isEmpty with
  | true =>
      rw [tokenize_of_blank blank]
      refine ⟨rfl, rfl, ?_, fun _ uncut => absurd trivial uncut,
        fun well => ⟨well.packed, well.target⟩⟩
      intro invalid
      rw [Line.withdraw, ← invalid]
  | false =>
      rw [tokenize_of_not_blank blank]
      exact ⟨rfl, rfl, fun _ => rfl, fun _ uncut => absurd trivial uncut,
        fun well => ⟨well.packed, well.target⟩⟩

theorem linesFollow_prepare (lines : List Line) : LinesFollow True lines (prepare lines) :=
  List.forall₂_map_right_iff.mpr (List.forall₂_same.mpr fun line _ => follows_tokenize line)

theorem lines_keep (session : Session) (directive : Directive) (table : SymbolTable) :
    (session.keep directive table).lines = session.lines := by
  cases directive <;> rfl

namespace Session

theorem run_collect_of_fault {session : Session} {directive : Directive} {lines : List Line}
    {fault : Fault} (swept : directive.collect session.lines = ⟨lines, .error fault⟩) :
    session.run (.collect directive) = ({ session with lines := lines }, .error fault) := by
  simp only [run, swept]

theorem run_collect_of_ok {session : Session} {directive : Directive} {lines : List Line}
    {declarations : List Declaration}
    (swept : directive.collect session.lines = ⟨lines, .ok declarations⟩) :
    session.run (.collect directive) =
      (keep { session with lines := lines } directive (symbolsOf declarations),
        .ok (.symbols (symbolsOf declarations) (findingsOf declarations))) := by
  simp only [run, swept]

theorem run_resolve_eq {session : Session} {lines : List Line}
    {outcome : Except Fault (List Finding)}
    (swept : resolveCommands session.lines = ⟨lines, outcome⟩) :
    session.run .resolve = ({ session with lines := lines }, outcome.map .findings) := by
  simp only [run, swept]

theorem run_encode_eq {session : Session} {lines : List Line}
    {outcome : Except Fault (List Finding)}
    (swept : encodeLines session.lines = ⟨lines, outcome⟩) :
    session.run .encode = ({ session with lines := lines }, outcome.map .findings) := by
  simp only [run, swept]

end Session

/-- Every pass leaves lines that follow the lines it was given, also when it stops. -/
theorem linesFollow_run (session : Session) (pass : Pass) :
    LinesFollow (pass = .prepare) session.lines (session.run pass).1.lines := by
  have swept : forall {lines}, LinesFollow False session.lines lines ->
      LinesFollow (pass = .prepare) session.lines lines := fun follow => follow.imp False.elim
  cases pass with
  | prepare => exact (linesFollow_prepare session.lines).imp fun _ => rfl
  | collect directive =>
      have follow : LinesFollow False session.lines (directive.collect session.lines).lines :=
        linesFollow_sweep (fun _ _ valid visited => .of_bare valid (bare_of_visit visited)) _
      unfold Session.run
      dsimp only
      split
      · exact swept follow
      · rw [lines_keep]
        exact swept follow
  | substitute directive => exact swept (linesFollow_substitute _ _)
  | resolve =>
      exact swept (linesFollow_sweep
        (fun _ _ valid visited => .of_bare valid (bare_of_resolveLine visited)) _)
  | layout => exact swept (linesFollow_layoutFrom 0 _)
  | encode =>
      exact swept (linesFollow_sweep (fun _ _ valid visited => follows_encodeLine valid visited) _)
  | listing => exact .refl _ _
  | image => exact .refl _ _

/-! ## Any number of passes -/

namespace Session

def after (session : Session) (passes : List Pass) : Session :=
  passes.foldl (fun session pass => (session.run pass).1) session

theorem after_append (session : Session) (first second : List Pass) :
    session.after (first ++ second) = (session.after first).after second :=
  List.foldl_append

/-- What is kept after each pass is what that pass leaves and tells, after the passes
before it. -/
theorem mem_runAll {session state : Session} {passes : List Pass} {report : Except Fault Report}
    (member : (state, report) ∈ session.runAll passes) :
    Exists fun earlier => Exists fun pass => Exists fun later =>
      passes = earlier ++ pass :: later ∧
        (state, report) = (session.after earlier).run pass := by
  induction passes generalizing session with
  | nil => cases member
  | cons pass rest inductionHypothesis =>
      rcases List.mem_cons.mp member with here | there
      · exact ⟨[], pass, rest, rfl, here⟩
      · rcases inductionHypothesis there with ⟨earlier, other, later, rfl, ran⟩
        exact ⟨pass :: earlier, other, later, rfl, ran⟩

/-- The lines of a session follow its earlier lines. -/
theorem linesFollow_after (session : Session) (passes : List Pass) :
    LinesFollow (.prepare ∈ passes) session.lines (session.after passes).lines := by
  induction passes generalizing session with
  | nil => exact .refl _ _
  | cons pass rest inductionHypothesis =>
      refine ((linesFollow_run session pass).trans (inductionHypothesis _)).imp ?_
      rintro (rfl | later)
      · exact List.mem_cons_self
      · exact List.mem_cons_of_mem _ later

end Session

theorem map_text_numberLines (next : Nat) (texts : List (List Char)) :
    (numberLines next texts).map Line.text = texts.map String.ofList := by
  induction texts generalizing next with
  | nil => rfl
  | cons text rest inductionHypothesis =>
      rw [numberLines, List.map_cons, List.map_cons, inductionHypothesis]
      rfl

theorem wellEncoded_of_mem_numberLines {next : Nat} {texts : List (List Char)} {line : Line}
    (member : line ∈ numberLines next texts) : line.WellEncoded := by
  rcases exists_fresh_of_mem_numberLines member with ⟨number, text, rfl⟩
  exact ⟨rfl, nofun⟩

/-- The nibbles of a line in order, with a register in the second. -/
theorem Line.WellEncoded.elements {line : Line} (well : line.WellEncoded) {nibbles : Nibbles}
    (encoded : line.nibbles = some nibbles) :
    nibbles.elements.length = 4 ∧
      (forall element, element ∈ nibbles.elements -> 0 ≤ element ∧ element ≤ 15) ∧
      Exists fun second => nibbles.elements[1]? = some second ∧ second ≤ 7 := by
  refine ⟨rfl, ?_, nibbles.target.val, rfl, ?_⟩
  · intro element member
    rcases List.mem_map.mp member with ⟨nibble, -, rfl⟩
    omega
  · have register := well.target nibbles encoded
    omega

/-- An image holds the words of the first valid lines, and zeros behind them. -/
theorem getElem?_buildImage (lines : List Line) {position : Nat} (within : position < 256) :
    (buildImage lines)[position]? =
      some (((validLines lines)[position]?.map Line.word).getD 0) := by
  have words : (programWords lines)[position]? = (validLines lines)[position]?.map Line.word :=
    List.getElem?_map
  by_cases inside : position < (programWords lines).length
  · rw [buildImage_eq, getElem?_fillImage within inside, ← words, List.getElem?_eq_getElem inside]
    rfl
  · have outside := Nat.le_of_not_lt inside
    rw [buildImage_eq, getElem?_fillImage_of_le within outside, ← words,
      List.getElem?_eq_none outside]
    rfl

theorem map_ne_ok {Told : Type} {tell : Told -> Report} {report : Report}
    (never : forall told, tell told ≠ report) (outcome : Except Fault Told) :
    outcome.map tell ≠ .ok report := by
  intro same
  cases outcome with
  | error fault => cases same
  | ok told => exact never told (Except.ok.inj same)

/-- Only the image pass tells an image, that of the lines it leaves. -/
theorem words_of_run {session state : Session} {pass : Pass} {words : List Int}
    {findings : List Finding}
    (ran : session.run pass = (state, .ok (.image words findings))) :
    words = buildImage state.lines := by
  cases pass with
  | image =>
      cases ran
      rfl
  | prepare | layout => cases ran
  | collect directive =>
      unfold Session.run at ran
      dsimp only at ran
      split at ran
      · cases ran
      · cases ran
  | substitute | resolve | encode | listing =>
      exact absurd (congrArg Prod.snd ran) (map_ne_ok (fun _ told => by cases told) _)

/-- Whatever passes are run on a text, in whatever order and however often, and also
when some of them stop at a fault: the lines keep their numbers and texts.  A line
that is invalid stays as it is, except that cutting the lines again may give it other
tokens.  A line has no nibbles, or four of which the second is a register, and the word
stored beside them is packed from them: zero without nibbles, and otherwise their sum
weighed by powers of sixteen.  Every image has 256 words, those of the first valid lines
and zeros behind them. -/
theorem session_is_sound_in_any_order (text : String) (passes : List Pass) :
    ((Session.start text).after passes).lines.map Line.number =
        List.range' 1 (Text.lines text.toList).length ∧
      ((Session.start text).after passes).lines.map Line.text =
        (Text.lines text.toList).map String.ofList ∧
      (forall (later : List Pass) (index : Nat) (line : Line),
        ((Session.start text).after passes).lines[index]? = some line -> line.valid = false ->
          Exists fun tokens =>
            ((Session.start text).after (passes ++ later)).lines[index]? =
                some { line with tokens := tokens } ∧
              (.prepare ∉ later -> tokens = line.tokens)) ∧
      (forall line, line ∈ ((Session.start text).after passes).lines ->
        line.word = packOrZero (line.nibbles.map Nibbles.elements) ∧
          0 ≤ line.word ∧ line.word ≤ 65535 ∧ (line.nibbles = none -> line.word = 0) ∧
          forall nibbles, line.nibbles = some nibbles ->
            line.word = 4096 * (nibbles.command.val : Int) + 256 * nibbles.target.val
                + 16 * nibbles.third.val + nibbles.fourth.val ∧
              nibbles.elements.length = 4 ∧
              (forall element, element ∈ nibbles.elements -> 0 ≤ element ∧ element ≤ 15) ∧
              Exists fun second => nibbles.elements[1]? = some second ∧ second ≤ 7) ∧
      (forall (state : Session) (words : List Int) (findings : List Finding),
        (state, .ok (.image words findings)) ∈ (Session.start text).runAll passes ->
          words.length = 256 ∧
            forall position : Nat, position < 256 -> words[position]? =
              some (((validLines state.lines)[position]?.map Line.word).getD 0)) := by
  have follow := (Session.start text).linesFollow_after passes
  refine ⟨?_, ?_, ?_, ?_, ?_⟩
  · rw [follow.map_eq Line.number fun follows => follows.number]
    exact map_number_numberLines 1 _
  · rw [follow.map_eq Line.text fun follows => follows.text]
    exact map_text_numberLines 1 _
  · intro later index line listed invalid
    rw [Session.after_append]
    rcases (Session.linesFollow_after _ later).getElem? listed with ⟨left, leftListed, follows⟩
    refine ⟨left.tokens, ?_, follows.tokens invalid⟩
    rw [← follows.withdrawn invalid]
    exact leftListed
  · intro line member
    have well := follow.wellEncoded (fun _ => wellEncoded_of_mem_numberLines) line member
    have bounds := well.packed.word_bounds
    refine ⟨well.packed, bounds.1, Int.le_of_lt_add_one bounds.2,
      well.packed.word_of_no_nibbles, ?_⟩
    intro nibbles encoded
    rw [well.packed.word_of_nibbles encoded, nibbles.word_eq]
    exact ⟨rfl, well.elements encoded⟩
  · intro state words findings told
    rcases Session.mem_runAll told with ⟨earlier, pass, later, -, ran⟩
    rw [words_of_run ran.symm]
    exact ⟨length_buildImage _, fun _ within => getElem?_buildImage _ within⟩

/-- Encoding too early stops at once.  A line that is dropped afterwards is not taken in
again when the lines are cut and encoded once more; the other one has the word of its
nibbles, and the image starts with it. -/
theorem session_is_sound_in_any_order_of_sample :
    Exists fun dropped => Exists fun tokens => Exists fun encoded => Exists fun words =>
      (Session.start "x\nli r5, 5").run .encode =
          (Session.start "x\nli r5, 5", .error .unresolved) ∧
        ((Session.start "x\nli r5, 5").after [.encode, .prepare, .resolve]).lines[0]? =
          some dropped ∧
        dropped.valid = false ∧
        ((Session.start "x\nli r5, 5").after
          ([.encode, .prepare, .resolve] ++ [.prepare, .encode])).lines[0]? =
            some { dropped with tokens := tokens } ∧
        encoded ∈ ((Session.start "x\nli r5, 5").after [.prepare, .resolve, .encode]).lines ∧
        encoded.nibbles = some ⟨10, 5, 0, 5⟩ ∧ encoded.word = 42245 ∧
        ((Session.start "x\nli r5, 5").runAll [.prepare, .resolve, .encode, .image])[3]?.map
          Prod.snd = some (.ok (.image words [])) ∧
        words.length = 256 ∧ words[0]? = some 42245 := by
  have sound := session_is_sound_in_any_order "x\nli r5, 5"
  have read : ((Session.start "x\nli r5, 5").after
      [.encode, .prepare, .resolve]).lines[0]?.map Line.valid = some false := by
    decide +kernel
  rcases Option.map_eq_some_iff.mp read with ⟨dropped, listed, invalid⟩
  rcases (sound [.encode, .prepare, .resolve]).2.2.1 [.prepare, .encode] 0 dropped listed invalid
    with ⟨tokens, later, -⟩
  have stored : ((Session.start "x\nli r5, 5").after
      [.prepare, .resolve, .encode]).lines[1]?.map Line.nibbles =
        some (some ⟨10, 5, 0, 5⟩) := by
    decide +kernel
  rcases Option.map_eq_some_iff.mp stored with ⟨encoded, found, nibbles⟩
  have member := List.mem_of_getElem? found
  have word : encoded.word = 42245 :=
    (((sound [.prepare, .resolve, .encode]).2.2.2.1 encoded member).2.2.2.2 _ nibbles).1
  have image := (sound [.prepare, .resolve, .encode, .image]).2.2.2.2 _ _ []
    (List.mem_of_getElem? (i := 3) rfl)
  have first : (validLines ((Session.start "x\nli r5, 5").after
      [.prepare, .resolve, .encode]).lines)[0]?.map Line.word = some 42245 := by
    decide +kernel
  refine ⟨dropped, tokens, encoded, _, rfl, listed, invalid, later, member, nibbles, word, rfl,
    image.1, (image.2 0 (by decide)).trans ?_⟩
  exact congrArg (fun word : Option Int => some (word.getD 0)) first

end NibbleMachine
