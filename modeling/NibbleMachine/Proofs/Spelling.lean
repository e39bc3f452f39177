import NibbleMachine.Proofs.Cleaning
import NibbleMachine.Proofs.Passage
import NibbleMachine.Proofs.SourceText
import Mathlib.Data.List.Forall2
import Mathlib.Logic.Relation

namespace NibbleMachine
namespace Text

/-!
# Spellings of a text

The case of letters, the separators between tokens and the comments of a text are
free.  Two texts with the same code up to such changes, line by line, are cut into
the same tokens, and everything behind the cutting is decided by the tokens.

The part that needs care is lowering.  It comes first and sees the whole line: a
capital sigma is lowered by its neighbours, and these could be in the comment or
behind any number of separators.  But commas, slashes and blanks are marks.  They
are neither letters nor skipped, so the search for a neighbour ends at a mark, and
a mark is its own small form.  A text is therefore lowered by lowering the parts
around a mark, and the comment, which starts with a mark, may be cut off before.

The case of ASCII letters is free for a simpler reason.  The two forms of a letter
have the same small form, and the search for a neighbour ends at either of them as
at a letter with case.
-/

/-! ## Marks -/

/-- Commas, slashes and blanks, as closed ranges of code points. -/
def markRanges : List (Nat × Nat) :=
  (0x002C, 0x002C) :: (0x002F, 0x002F) :: blankRanges

/-- Whether a character stands between words. -/
def isMark (c : Char) : Bool :=
  inRanges markRanges c.toNat

theorem isMark_slash : isMark '/' = true := by decide

/-- A code point in the ranges of one table is not in those of another that stays
clear of it. -/
theorem not_inRanges_of_apart {ranges others : List (Nat × Nat)} {code : Nat}
    (apart : (ranges.all fun range => others.all fun other =>
      range.2 < other.1 || other.2 < range.1) = true)
    (listed : inRanges others code = true) : inRanges ranges code = false := by
  apply eq_false_of_ne_true
  intro alsoListed
  rcases List.any_eq_true.mp listed with ⟨other, inOthers, within⟩
  rcases List.any_eq_true.mp alsoListed with ⟨range, inRanges, alsoWithin⟩
  have away := List.all_eq_true.mp (List.all_eq_true.mp apart range inRanges) other inOthers
  simp only [Bool.and_eq_true, Bool.or_eq_true, decide_eq_true_eq] at within alsoWithin away
  omega

section

variable {mark : Char} (isMarked : isMark mark = true)

include isMarked

theorem isSkipped_mark : isSkipped mark = false :=
  not_inRanges_of_apart (by decide +kernel) isMarked

theorem isCasedLetter_mark : isCasedLetter mark = false :=
  not_inRanges_of_apart (by decide +kernel) isMarked

/-- The small form of a mark is the mark. -/
theorem isSettled_mark : IsSettled mark := by
  have uncovered : inRanges (caseRuns.map fun run => (run.first, run.last)) mark.toNat = false :=
    not_inRanges_of_apart (by decide +kernel) isMarked
  apply isSettled_of_own
  · rintro rfl
    exact absurd isMarked (by decide)
  · rintro rfl
    exact absurd isMarked (by decide)
  · rcases smallCode_cases mark.toNat with ⟨-, own⟩ | ⟨run, listed, covered, -⟩
    · rw [smallChar, own, Char.ofNat_toNat]
    · simp only [CaseRun.covers, Bool.and_eq_true] at covered
      have within := List.any_eq_false.mp uncovered _ (List.mem_map_of_mem listed)
      exact absurd (Bool.and_eq_true_iff.mpr covered.1) within

/-- The search for a neighbouring letter ends at a mark. -/
theorem meetsLetter_append_mark (text after : List Char) :
    meetsLetter (text ++ mark :: after) = meetsLetter text := by
  induction text with
  | nil => simp [meetsLetter, isSkipped_mark isMarked, isCasedLetter_mark isMarked]
  | cons c rest inductionHypothesis =>
      cases skipped : isSkipped c with
      | true => simpa [meetsLetter, skipped] using inductionHypothesis
      | false => simp [meetsLetter, skipped]

theorem lowerAfter_behind_mark (before passed text : List Char) :
    lowerAfter (before ++ mark :: passed) text = lowerAfter before text := by
  induction text generalizing before with
  | nil => rfl
  | cons c rest inductionHypothesis =>
      rw [lowerAfter, lowerAfter, lowerAt, lowerAt, meetsLetter_append_mark isMarked,
        ← List.cons_append, inductionHypothesis]

theorem lowerAfter_mark (before after : List Char) :
    lowerAfter before (mark :: after) = mark :: lower after := by
  have behind := lowerAfter_behind_mark isMarked [] before after
  rw [List.nil_append] at behind
  rw [lowerAfter, isSettled_mark isMarked, behind]
  rfl

/-- A mark separates what is lowered before it from what is lowered after it. -/
theorem lower_append_mark (text after : List Char) :
    lower (text ++ mark :: after) = lower text ++ mark :: lower after := by
  have passing : forall before, lowerAfter before (text ++ mark :: after) =
      lowerAfter before text ++ mark :: lower after := by
    induction text with
    | nil => exact fun before => lowerAfter_mark isMarked before after
    | cons c rest inductionHypothesis =>
        intro before
        rw [List.cons_append, lowerAfter, lowerAfter, lowerAt, lowerAt,
          meetsLetter_append_mark isMarked, inductionHypothesis, List.append_assoc]
  exact passing []

end

/-! ## Small and capital letters of the ASCII range -/

def asciiCapitals : List Char :=
  (List.range' 0x41 26).map Char.ofNat

theorem forall_asciiCapitals {holds : Char -> Prop} [DecidablePred holds]
    (all : (asciiCapitals.all fun capital => holds capital) = true) :
    forall capital, capital ∈ asciiCapitals -> holds capital :=
  fun capital listed => of_decide_eq_true (List.all_eq_true.mp all capital listed)

/-- What is the same for both forms of every letter does not see their case. -/
theorem read_toLower {Value : Type} (read : Char -> Value)
    (agrees : forall capital, capital ∈ asciiCapitals -> read capital.toLower = read capital)
    (c : Char) : read c.toLower = read c := by
  by_cases capital : 'A'.val ≤ c.val ∧ c.val ≤ 'Z'.val
  · apply agrees
    refine List.mem_map.mpr ⟨c.toNat, ?_, Char.ofNat_toNat c⟩
    have low : 0x41 ≤ c.toNat := capital.1
    have high : c.toNat ≤ 0x5A := capital.2
    exact List.mem_range'_1.mpr ⟨low, by omega⟩
  · have own : c.toLower = c := dif_neg capital
    rw [own]

theorem isSkipped_toLower (c : Char) : isSkipped c.toLower = isSkipped c := by
  have letters : forall capital, capital ∈ asciiCapitals ->
      inRanges [(0x41, 0x5A), (0x61, 0x7A)] capital.toNat = true ∧
        inRanges [(0x41, 0x5A), (0x61, 0x7A)] capital.toLower.toNat = true :=
    forall_asciiCapitals (by decide +kernel)
  have kept : forall letter : Char,
      inRanges [(0x41, 0x5A), (0x61, 0x7A)] letter.toNat = true -> isSkipped letter = false :=
    fun _ => not_inRanges_of_apart (by decide +kernel)
  apply read_toLower isSkipped
  intro capital listed
  rw [kept _ (letters capital listed).1, kept _ (letters capital listed).2]

theorem meetsLetter_map_toLower (text : List Char) :
    meetsLetter (text.map Char.toLower) = meetsLetter text := by
  have stops := read_toLower isCasedLetter (forall_asciiCapitals (by decide +kernel))
  induction text with
  | nil => rfl
  | cons c rest inductionHypothesis =>
      cases skipped : isSkipped c with
      | true => simpa [meetsLetter, isSkipped_toLower, skipped] using inductionHypothesis
      | false => simp [meetsLetter, isSkipped_toLower, stops, skipped]

theorem lowerAt_toLower (before after : List Char) (c : Char) :
    lowerAt before c.toLower after = lowerAt before c after := by
  have table : forall capital, capital ∈ asciiCapitals ->
      isSmallAscii capital.toLower = true ∧ smallChar capital = capital.toLower ∧
        capital ≠ dottedCapitalI ∧ capital ≠ capitalSigma :=
    forall_asciiCapitals (by decide +kernel)
  apply read_toLower fun c => lowerAt before c after
  intro capital listed
  rcases table capital listed with ⟨small, own, notDotted, notSigma⟩
  rw [isSettled_of_isSmallAscii small]
  simp [lowerAt, notDotted, notSigma, own]

/-- Lowering does not see the case of ASCII letters. -/
theorem lower_map_toLower (text : List Char) : lower (text.map Char.toLower) = lower text := by
  have behind : forall before,
      lowerAfter (before.map Char.toLower) (text.map Char.toLower) = lowerAfter before text := by
    induction text with
    | nil => exact fun _ => rfl
    | cons c rest inductionHypothesis =>
        intro before
        have later := inductionHypothesis (c :: before)
        rw [List.map_cons] at later
        rw [List.map_cons, lowerAfter, lowerAfter, later, lowerAt_toLower, lowerAt, lowerAt,
          meetsLetter_map_toLower, meetsLetter_map_toLower]
  exact behind []

/-! ## Slashes -/

theorem smallCode_eq_slash {code : Nat} (slash : smallCode code = 0x2F) : code = 0x2F := by
  rcases smallCode_cases code with ⟨-, own⟩ | ⟨run, listed, -, small⟩
  · rw [← own, slash]
  · have above : forall run, run ∈ caseRuns -> 0x2F < run.small := by decide +kernel
    have far := above run listed
    rw [small, CaseRun.smallOf] at slash
    omega

/-- Lowering makes a slash of a slash only. -/
theorem slash_not_mem_lowerAt {c : Char} (other : c ≠ '/') (before after : List Char) :
    '/' ∉ lowerAt before c after := by
  unfold lowerAt
  split
  · decide
  · split
    · decide
    · intro member
      have small : '/' = smallChar c := List.mem_singleton.mp member
      have code : smallCode c.toNat = 0x2F := by
        rw [← toNat_smallChar, ← small]
        rfl
      rw [← Char.ofNat_toNat c, smallCode_eq_slash code] at other
      exact other rfl

theorem lowerAt_ne_nil (before after : List Char) (c : Char) : lowerAt before c after ≠ [] := by
  unfold lowerAt
  split
  · exact List.cons_ne_nil _ _
  · split
    · exact List.cons_ne_nil _ _
    · exact List.cons_ne_nil _ _

end Text

/-! ## Code and comment -/

/-- A line written as code and a comment, which may be missing.  Code before a comment does
not end in a slash, since the comment would start with that slash. -/
structure IsWritten (line code comment : List Char) : Prop where
  joined : line = code ++ comment
  uncommented : ¬ ['/', '/'] <:+: code
  opened : comment = [] ∨ ['/', '/'] <+: comment ∧ code.getLast? ≠ some '/'

theorem beforeComment_cons {c : Char} {rest : List Char} (apart : ¬ ['/', '/'] <+: c :: rest) :
    beforeComment (c :: rest) = c :: beforeComment rest := by
  rw [beforeComment]
  rintro tail rfl rfl
  exact apart (List.prefix_append ['/', '/'] tail)

theorem IsWritten.beforeComment_eq {line code comment : List Char}
    (written : IsWritten line code comment) : beforeComment line = code := by
  rcases written with ⟨rfl, uncommented, rfl | ⟨⟨rest, rfl⟩, closed⟩⟩
  · rw [List.append_nil, beforeComment_of_no_comment uncommented]
  · induction code with
    | nil => rfl
    | cons c others inductionHypothesis =>
        -- a comment that starts here would reach over the end of the code or lie in it
        have apart : ¬ ['/', '/'] <+: c :: (others ++ (['/', '/'] ++ rest)) := by
          intro starts
          cases others with
          | nil =>
              rcases List.cons_prefix_cons.mp starts with ⟨rfl, -⟩
              exact closed rfl
          | cons second later =>
              rcases List.cons_prefix_cons.mp starts with ⟨rfl, next⟩
              rcases List.cons_prefix_cons.mp next with ⟨rfl, -⟩
              exact uncommented (List.prefix_append ['/', '/'] later).isInfix
        rw [List.cons_append, beforeComment_cons apart, inductionHypothesis]
        · exact fun inOthers => uncommented (inOthers.trans (List.suffix_cons c others).isInfix)
        · intro last
          apply closed
          rw [List.getLast?_cons, last]
          rfl

/-- Every line is written as the text before its first comment and the rest. -/
theorem exists_isWritten (line : List Char) :
    Exists fun comment => IsWritten line (beforeComment line) comment := by
  have parts : Exists fun comment => line = beforeComment line ++ comment ∧
      (comment = [] ∨ ['/', '/'] <+: comment ∧ (beforeComment line).getLast? ≠ some '/') := by
    fun_induction beforeComment line with
    | case1 => exact ⟨[], rfl, Or.inl rfl⟩
    | case2 rest =>
        exact ⟨'/' :: '/' :: rest, rfl, Or.inr ⟨List.prefix_append ['/', '/'] rest, by simp⟩⟩
    | case3 c rest apart inductionHypothesis =>
        rcases inductionHypothesis with ⟨comment, joined, opened⟩
        refine ⟨comment, congrArg (c :: ·) joined, opened.imp_right ?_⟩
        rintro ⟨⟨tail, rfl⟩, closed⟩
        refine ⟨List.prefix_append ['/', '/'] tail, ?_⟩
        cases code : beforeComment rest with
        | nil =>
            rw [code] at joined
            intro last
            exact apart _ (Option.some.inj last) joined
        | cons second others =>
            rw [code] at closed
            rwa [List.getLast?_cons_cons]
  rcases parts with ⟨comment, joined, opened⟩
  exact ⟨comment, joined, not_comment_beforeComment line, opened⟩

theorem meetsLetter_beforeComment (text : List Char) :
    Text.meetsLetter (beforeComment text) = Text.meetsLetter text := by
  rcases exists_isWritten text with ⟨comment, joined, -, rfl | ⟨⟨rest, rfl⟩, -⟩⟩
  · rw [List.append_nil] at joined
    rw [← joined]
  · have split : text = beforeComment text ++ '/' :: ('/' :: rest) := joined
    exact (Text.meetsLetter_append_mark Text.isMark_slash _ _).symm.trans (congrArg _ split.symm)

theorem beforeComment_append_of_slashFree {piece : List Char} (free : '/' ∉ piece)
    (rest : List Char) : beforeComment (piece ++ rest) = piece ++ beforeComment rest := by
  induction piece with
  | nil => rfl
  | cons c others inductionHypothesis =>
      rw [List.mem_cons, not_or] at free
      have apart : ¬ ['/', '/'] <+: c :: (others ++ rest) :=
        fun starts => free.1 (List.cons_prefix_cons.mp starts).1
      rw [List.cons_append, beforeComment_cons apart, inductionHypothesis free.2]
      rfl

theorem slash_not_mem_map_blankComma {text : List Char} (free : '/' ∉ text) :
    '/' ∉ text.map blankComma := by
  intro member
  rcases List.mem_map.mp member with ⟨c, inText, same⟩
  exact free ((blankComma_eq_slash_iff c).mp same ▸ inText)

theorem slash_starts_of_lowerAfter {before text : List Char}
    (starts : ['/'] <+: (Text.lowerAfter before text).map blankComma) : ['/'] <+: text := by
  cases text with
  | nil => exact starts
  | cons c rest =>
      cases small : Text.lowerAt before c rest with
      | nil => exact absurd small (Text.lowerAt_ne_nil before rest c)
      | cons first others =>
          rw [Text.lowerAfter, small] at starts
          have slash : '/' = blankComma first := (List.cons_prefix_cons.mp starts).1
          have listed : '/' ∈ Text.lowerAt before c rest := by
            rw [small, (blankComma_eq_slash_iff first).mp slash.symm]
            exact List.mem_cons_self
          by_cases same : c = '/'
          · rw [same]
            exact List.prefix_append ['/'] rest
          · exact absurd listed (Text.slash_not_mem_lowerAt same before rest)

/-- Cutting off the comment commutes with lowering, because the slash is a mark. -/
theorem beforeComment_lowerAfter (before text : List Char) :
    beforeComment ((Text.lowerAfter before text).map blankComma) =
      (Text.lowerAfter before (beforeComment text)).map blankComma := by
  fun_induction beforeComment text generalizing before with
  | case1 => rfl
  | case2 rest =>
      rw [Text.lowerAfter_mark Text.isMark_slash, Text.lower,
        Text.lowerAfter_mark Text.isMark_slash]
      rfl
  | case3 c rest apart inductionHypothesis =>
      have same : Text.lowerAt before c (beforeComment rest) = Text.lowerAt before c rest := by
        rw [Text.lowerAt, Text.lowerAt, meetsLetter_beforeComment]
      rw [Text.lowerAfter, Text.lowerAfter, List.map_append, List.map_append, same,
        ← inductionHypothesis]
      by_cases slash : c = '/'
      · rw [slash, Text.isSettled_mark Text.isMark_slash]
        apply beforeComment_cons
        -- a second slash would come from one in the text, but that is not there
        intro starts
        rcases slash_starts_of_lowerAfter (List.cons_prefix_cons.mp starts).2 with ⟨tail, split⟩
        exact apart tail slash split.symm
      · exact beforeComment_append_of_slashFree
          (slash_not_mem_map_blankComma (Text.slash_not_mem_lowerAt slash before rest)) _

/-! ## Spellings of code -/

def isSeparator (c : Char) : Bool :=
  c = ',' || Text.isBlank c

/-- One change to the spelling of code: of the case of ASCII letters, of a run of
separators between tokens, or of the separators at one end. -/
inductive Respelled : List Char -> List Char -> Prop
  | letters {code other : List Char} (same : code.map Char.toLower = other.map Char.toLower) :
      Respelled code other
  | gap (before after : List Char) {run other : List Char} (nonempty : run ≠ [])
      (separates : run.all isSeparator = true) (otherNonempty : other ≠ [])
      (otherSeparates : other.all isSeparator = true) :
      Respelled (before ++ run ++ after) (before ++ other ++ after)
  | front (code : List Char) {run : List Char} (separates : run.all isSeparator = true) :
      Respelled code (run ++ code)
  | back (code : List Char) {run : List Char} (separates : run.all isSeparator = true) :
      Respelled code (code ++ run)

/-- Two lines whose code is the same up to spelling, with any comments. -/
def SameCode (line other : List Char) : Prop :=
  Exists fun code => Exists fun comment => Exists fun otherCode => Exists fun otherComment =>
    IsWritten line code comment ∧ IsWritten other otherCode otherComment ∧
      Relation.EqvGen Respelled code otherCode

/-- The fields that are cut from code. -/
def codeFields (code : List Char) : List (List Char) :=
  Text.fields ((Text.lower code).map blankComma)

/-- The tokens of a line are those of its code. -/
theorem tokensOf_clean_eq (line : List Char) :
    tokensOf (clean (String.ofList line)) =
      (codeFields (beforeComment line)).map String.ofList := by
  rw [tokensOf, clean, String.toList_ofList, String.toList_ofList, cleanChars, Text.fields_trim,
    Text.lower, beforeComment_lowerAfter]
  rfl

theorem isMark_of_isSeparator {c : Char} (separates : isSeparator c = true) :
    Text.isMark c = true := by
  rcases Bool.or_eq_true_iff.mp separates with comma | blank
  · rw [of_decide_eq_true comma]
    decide
  · exact Bool.or_eq_true_iff.mpr (Or.inr (Bool.or_eq_true_iff.mpr (Or.inr blank)))

theorem isBlank_blankComma {c : Char} (separates : isSeparator c = true) :
    Text.isBlank (blankComma c) = true := by
  unfold blankComma
  split
  · exact Text.isBlank_space
  · next other => simpa [isSeparator, other] using separates

/-- Fields are cut at every separator. -/
theorem codeFields_append_separator (before after : List Char) {c : Char}
    (separates : isSeparator c = true) :
    codeFields (before ++ c :: after) = codeFields before ++ codeFields after := by
  rw [codeFields, Text.lower_append_mark (isMark_of_isSeparator separates), List.map_append,
    List.map_cons, Text.fields_append_blank _ _ (isBlank_blankComma separates)]
  rfl

theorem codeFields_run_append {run : List Char} (separates : run.all isSeparator = true)
    (code : List Char) : codeFields (run ++ code) = codeFields code := by
  induction run with
  | nil => rfl
  | cons c rest inductionHypothesis =>
      rw [List.all_cons, Bool.and_eq_true] at separates
      have cut := codeFields_append_separator [] (rest ++ code) separates.1
      exact cut.trans (inductionHypothesis separates.2)

theorem codeFields_gap (before after : List Char) {run : List Char} (nonempty : run ≠ [])
    (separates : run.all isSeparator = true) :
    codeFields (before ++ run ++ after) = codeFields before ++ codeFields after := by
  rcases List.exists_cons_of_ne_nil nonempty with ⟨c, rest, rfl⟩
  rw [List.all_cons, Bool.and_eq_true] at separates
  rw [List.append_assoc, List.cons_append, codeFields_append_separator _ _ separates.1,
    codeFields_run_append separates.2]

theorem codeFields_append_run {run : List Char} (separates : run.all isSeparator = true)
    (code : List Char) : codeFields (code ++ run) = codeFields code := by
  cases run with
  | nil => rw [List.append_nil]
  | cons c rest =>
      have cut := codeFields_gap code [] (List.cons_ne_nil c rest) separates
      rwa [List.append_nil, show codeFields [] = [] from rfl, List.append_nil] at cut

/-- No change of spelling changes the fields. -/
theorem Respelled.codeFields_eq {code other : List Char} (respelled : Respelled code other) :
    codeFields code = codeFields other := by
  cases respelled with
  | letters same =>
      rw [codeFields, codeFields, ← Text.lower_map_toLower code, same, Text.lower_map_toLower]
  | gap before after nonempty separates otherNonempty otherSeparates =>
      rw [codeFields_gap before after nonempty separates,
        codeFields_gap before after otherNonempty otherSeparates]
  | front _ separates => exact (codeFields_run_append separates code).symm
  | back _ separates => exact (codeFields_append_run separates code).symm

theorem codeFields_eq_of_eqvGen {code other : List Char}
    (respelled : Relation.EqvGen Respelled code other) : codeFields code = codeFields other := by
  induction respelled with
  | rel _ _ step => exact step.codeFields_eq
  | refl _ => rfl
  | symm _ _ _ inductionHypothesis => exact inductionHypothesis.symm
  | trans _ _ _ _ _ first second => exact first.trans second

/-- As code and comment can be told apart in one way only, it is the texts before
the first comments that correspond. -/
theorem sameCode_iff (line other : List Char) :
    SameCode line other <->
      Relation.EqvGen Respelled (beforeComment line) (beforeComment other) := by
  constructor
  · rintro ⟨code, comment, otherCode, otherComment, written, otherWritten, respelled⟩
    rwa [written.beforeComment_eq, otherWritten.beforeComment_eq]
  · intro respelled
    rcases exists_isWritten line with ⟨comment, written⟩
    rcases exists_isWritten other with ⟨otherComment, otherWritten⟩
    exact ⟨_, comment, _, otherComment, written, otherWritten, respelled⟩

/-! ## Texts cut into the same tokens -/

/-- Two lines that are cut into the same tokens. -/
def SameTokens (line other : List Char) : Prop :=
  tokensOf (clean (String.ofList line)) = tokensOf (clean (String.ofList other))

theorem SameCode.sameTokens {line other : List Char} (same : SameCode line other) :
    SameTokens line other := by
  have respelled := (sameCode_iff line other).mp same
  rw [SameTokens, tokensOf_clean_eq, tokensOf_clean_eq, codeFields_eq_of_eqvGen respelled]

theorem map_anonymous_prepare (next : Nat) {texts others : List (List Char)}
    (same : List.Forall₂ SameTokens texts others) :
    (prepare (numberLines next texts)).map Line.anonymous =
      (prepare (numberLines next others)).map Line.anonymous := by
  induction same generalizing next with
  | nil => rfl
  | cons tokens _ inductionHypothesis =>
      have later := inductionHypothesis (next + 1)
      rw [prepare, prepare] at later ⊢
      rw [numberLines, numberLines, List.map_cons, List.map_cons, List.map_cons, List.map_cons,
        later, tokenize_anonymous tokens next next]

theorem map_onValid_anonymous {change : Line -> Line}
    (ignores : forall line, (change line).anonymous = change line.anonymous) (lines : List Line) :
    (lines.map (onValid change)).map Line.anonymous =
      (lines.map Line.anonymous).map (onValid change) := by
  rw [List.map_map, List.map_map]
  exact List.map_congr_left fun line _ => onValid_anonymous ignores line

/-- A line without its text is known from its number and the rest. -/
theorem map_withoutText_eq {lines others : List Line}
    (numbers : lines.map Line.number = others.map Line.number)
    (alike : lines.map Line.anonymous = others.map Line.anonymous) :
    lines.map Line.withoutText = others.map Line.withoutText := by
  have rebuilt : forall lines : List Line, lines.map Line.withoutText =
      List.zipWith (fun number line => { line with number := number })
        (lines.map Line.number) (lines.map Line.anonymous) := by
    intro lines
    rw [List.zipWith_map, List.zipWith_self]
    rfl
  rw [rebuilt, rebuilt, numbers, alike]

theorem entries_withoutText (lines : List Line) :
    entries (lines.map Line.withoutText) = entries lines :=
  map_validLines_erased Line.withoutText (fun _ => rfl) Line.entry (fun _ => rfl) lines

section

variable {before after : String}
  (same : List.Forall₂ SameTokens (Text.lines after.toList) (Text.lines before.toList))

include same

theorem map_number_loadLines_eq :
    (loadLines after).map Line.number = (loadLines before).map Line.number := by
  rw [loadLines, loadLines, map_number_numberLines, map_number_numberLines, same.length_eq]

theorem sourceEntries_of_sameTokens : sourceEntries after = sourceEntries before := by
  have numbers : (preparedLines after).map Line.number =
      (preparedLines before).map Line.number := by
    rw [map_number_preparedLines, map_number_preparedLines, map_number_loadLines_eq same]
  have alike := map_withoutText_eq numbers (map_anonymous_prepare 1 same)
  rw [← entries_preparedLines, ← entries_withoutText, alike, entries_withoutText,
    entries_preparedLines]

/-- Texts whose lines are cut into the same tokens, line by line, have the same
assembly up to the texts of the lines. -/
theorem assemble_withoutTexts_of_sameTokens :
    (assemble after).map Assembly.withoutTexts = (assemble before).map Assembly.withoutTexts := by
  have source := sourceEntries_of_sameTokens same
  have defined : definedEntries after = definedEntries before :=
    congrArg Directive.define.remaining source
  have commands : commandEntries after = commandEntries before :=
    congrArg Directive.label.remaining defined
  apply assemble_withoutTexts_congr
  · apply map_withoutText_eq
    · rw [map_number_resolvedLines, map_number_resolvedLines, map_number_loadLines_eq same]
    · have prepared : (preparedLines after).map Line.anonymous =
          (preparedLines before).map Line.anonymous := map_anonymous_prepare 1 same
      simp only [resolvedLines, labelledLines, definedLines,
        map_onValid_anonymous resolved_anonymous, map_onValid_anonymous (settle_anonymous _ _),
        prepared, source, defined]
  · rw [source]
  · rw [defined]
  · rw [earlyFindings, earlyFindings, resolveFindings_labelledLines,
      resolveFindings_labelledLines, source, defined, commands]

end

/-! ## Spellings of a text -/

/-- The spelling of a text does not matter: letters may change their case, commas
and blanks between tokens and at the ends may be others or more or fewer, and
comments may come and go.  The outcome stays the same: the fault, or the image,
the findings, the symbols and everything about every line but its text. -/
theorem spelling_does_not_matter (text other : String)
    (same : List.Forall₂ SameCode (Text.lines text.toList) (Text.lines other.toList)) :
    (assemble text).map Assembly.withoutTexts = (assemble other).map Assembly.withoutTexts :=
  assemble_withoutTexts_of_sameTokens (same.imp fun _ _ => SameCode.sameTokens)

/-- A label that ends in a capital sigma, right before a comment that starts with a
letter in one text and at the end of its line in the other. -/
theorem spelling_does_not_matter_of_sample :
    Exists fun assembly => Exists fun respelled =>
      assemble "#label \u0391\u03A3//\u0391\nLA,R1 \u0391\u03A3" = .ok assembly ∧
        assembly.labels.entries = [("\u03B1\u03C2", "1")] ∧ assembly.findings = [] ∧
        assemble " #label\t\u0391\u03A3\nla r1 \u0391\u03A3 // y" = .ok respelled ∧
        assembly.withoutTexts = respelled.withoutTexts := by
  have declaration : SameCode "#label \u0391\u03A3//\u0391".toList
      " #label\t\u0391\u03A3".toList := by
    have code : beforeComment "#label \u0391\u03A3//\u0391".toList =
        "#label".toList ++ [' '] ++ "\u0391\u03A3".toList := by decide +kernel
    have otherCode : beforeComment " #label\t\u0391\u03A3".toList =
        [' '] ++ ("#label".toList ++ ['\t'] ++ "\u0391\u03A3".toList) := by decide +kernel
    rw [sameCode_iff, code, otherCode]
    exact .trans _ _ _ (.rel _ _ (.gap _ _ (by decide) (by decide) (by decide) (by decide)))
      (.rel _ _ (.front _ (by decide)))
  have use : SameCode "LA,R1 \u0391\u03A3".toList "la r1 \u0391\u03A3 // y".toList := by
    have code : beforeComment "LA,R1 \u0391\u03A3".toList =
        "LA".toList ++ [','] ++ "R1 \u0391\u03A3".toList := by decide +kernel
    have otherCode : beforeComment "la r1 \u0391\u03A3 // y".toList =
        "la".toList ++ [' '] ++ "r1 \u0391\u03A3".toList ++ [' '] := by decide +kernel
    have gap : Respelled ("LA".toList ++ [','] ++ "R1 \u0391\u03A3".toList)
        ("LA".toList ++ [' '] ++ "R1 \u0391\u03A3".toList) :=
      .gap _ _ (by decide) (by decide) (by decide) (by decide)
    rw [sameCode_iff, code, otherCode]
    exact .trans _ _ _ (.rel _ _ gap)
      (.trans _ _ _ (.rel _ _ (.letters (by decide +kernel))) (.rel _ _ (.back _ (by decide))))
  have lines : Text.lines "#label \u0391\u03A3//\u0391\nLA,R1 \u0391\u03A3".toList =
      ["#label \u0391\u03A3//\u0391".toList, "LA,R1 \u0391\u03A3".toList] := by decide +kernel
  have otherLines : Text.lines " #label\t\u0391\u03A3\nla r1 \u0391\u03A3 // y".toList =
      [" #label\t\u0391\u03A3".toList, "la r1 \u0391\u03A3 // y".toList] := by decide +kernel
  rcases exists_assembly_of_map "#label \u0391\u03A3//\u0391\nLA,R1 \u0391\u03A3"
    (fun assembly => (assembly.labels.entries, assembly.findings))
    (show _ = some ([("\u03B1\u03C2", "1")], []) by decide +kernel) with
    ⟨assembly, returned, read⟩
  have alike := spelling_does_not_matter "#label \u0391\u03A3//\u0391\nLA,R1 \u0391\u03A3"
    " #label\t\u0391\u03A3\nla r1 \u0391\u03A3 // y" (by
      rw [lines, otherLines]
      exact .cons declaration (.cons use .nil))
  rw [returned] at alike
  cases otherReturned : assemble " #label\t\u0391\u03A3\nla r1 \u0391\u03A3 // y" with
  | error fault =>
      rw [otherReturned] at alike
      cases alike
  | ok respelled =>
      rw [otherReturned] at alike
      exact ⟨assembly, respelled, returned, congrArg Prod.fst read, congrArg Prod.snd read, rfl,
        Except.ok.inj alike⟩

end NibbleMachine
