import NibbleMachine.Proofs.Instruction

namespace NibbleMachine
namespace Text

/-!
# Tokens that have been cleaned

Cleaning a second time changes nothing, although its first step could see more
than a character: lowering looks at neighbours, and one capital becomes two
characters.  What makes it stable is a property of single characters.  Whatever
lowering leaves is settled, so it is kept wherever it stands.  The runs of the
case table are such that no small form is covered by a run again, which is
checked once for all pairs of runs.

Cutting adds the rest: a token holds neither blank nor comma, and no comment
starts in it.  Tokens with these properties are cut again from any line that
joins them by spaces, because a space neither starts nor ends a comment.
-/

/-! ## The case table -/

/-- Whether the small forms of one run stay clear of another run.  They lie
before it or behind it, or both runs take every second code and meet on
different halves. -/
def CaseRun.misses (run other : CaseRun) : Bool :=
  Nat.blt (run.small + (run.last - run.first)) other.first || Nat.blt other.last run.small ||
    ((run.step == 2 || run.first == run.last) && other.step == 2 &&
      (run.small + other.first) % 2 == 1)

theorem CaseRun.misses_of_mem {run other : CaseRun} (listed : run ∈ caseRuns)
    (otherListed : other ∈ caseRuns) : run.misses other = true := by
  have all : (caseRuns.all fun run => caseRuns.all run.misses) = true := by decide +kernel
  exact List.all_eq_true.mp (List.all_eq_true.mp all run listed) other otherListed

theorem CaseRun.not_covers_smallOf {run other : CaseRun} (missed : run.misses other = true)
    {code : Nat} (covered : run.covers code = true) :
    other.covers (run.smallOf code) = false := by
  simp only [CaseRun.covers, Bool.and_eq_true, decide_eq_true_eq, beq_iff_eq] at covered
  simp only [CaseRun.misses, Bool.or_eq_true, Bool.and_eq_true, Nat.blt_eq, beq_iff_eq] at missed
  apply eq_false_of_ne_true
  intro alsoCovered
  simp only [CaseRun.covers, Bool.and_eq_true, decide_eq_true_eq, beq_iff_eq] at alsoCovered
  unfold CaseRun.smallOf at alsoCovered
  rcases missed with (below | above) | ⟨⟨steps, otherSteps⟩, odd⟩
  · omega
  · omega
  · rw [otherSteps] at alsoCovered
    rcases steps with steps | single
    · rw [steps] at covered
      omega
    · omega

theorem CaseRun.within_of_covers (run : CaseRun) {code : Nat} (covered : run.covers code = true) :
    run.first ≤ code ∧ code ≤ run.last := by
  simp only [CaseRun.covers, Bool.and_eq_true, decide_eq_true_eq] at covered
  exact covered.1

/-- Small forms are characters, and none is the dotted capital I. -/
theorem CaseRun.range_of_mem {run : CaseRun} (listed : run ∈ caseRuns) :
    (0x0130 < run.small ∨ run.small + (run.last - run.first) < 0x0130) ∧
      (run.small + (run.last - run.first) < 0xD800 ∨
        0xE000 ≤ run.small ∧ run.small + (run.last - run.first) < 0x110000) := by
  revert run
  decide +kernel

theorem smallCode_cases (code : Nat) :
    caseRuns.find? (fun run => run.covers code) = none ∧ smallCode code = code ∨
      Exists fun run =>
        run ∈ caseRuns ∧ run.covers code = true ∧ smallCode code = run.smallOf code := by
  unfold smallCode
  cases found : caseRuns.find? (fun run => run.covers code) with
  | none => exact Or.inl ⟨rfl, rfl⟩
  | some run =>
      have covered : run.covers code = true :=
        List.find?_some (p := fun other : CaseRun => other.covers code) found
      exact Or.inr ⟨run, List.mem_of_find?_eq_some found, covered, rfl⟩

/-- Small forms are characters. -/
theorem isValidChar_smallCode {code : Nat} (valid : code.isValidChar) :
    (smallCode code).isValidChar := by
  rcases smallCode_cases code with ⟨-, own⟩ | ⟨run, listed, covered, small⟩
  · rw [own]
    exact valid
  · have range := CaseRun.range_of_mem listed
    have within := run.within_of_covers covered
    rw [small]
    unfold CaseRun.smallOf Nat.isValidChar
    omega

/-- No run covers a small form. -/
theorem smallCode_settled {code : Nat} (notDotted : code ≠ 0x0130) :
    caseRuns.find? (fun run => run.covers (smallCode code)) = none ∧ smallCode code ≠ 0x0130 := by
  rcases smallCode_cases code with ⟨uncovered, own⟩ | ⟨run, listed, covered, small⟩
  · rw [own]
    exact ⟨uncovered, notDotted⟩
  · have range := CaseRun.range_of_mem listed
    have within := run.within_of_covers covered
    rw [small]
    constructor
    · apply List.find?_eq_none.mpr
      intro other otherListed
      rw [CaseRun.not_covers_smallOf (CaseRun.misses_of_mem listed otherListed) covered]
      exact Bool.false_ne_true
    · unfold CaseRun.smallOf
      omega

theorem toNat_smallChar (c : Char) : (smallChar c).toNat = smallCode c.toNat := by
  have valid : (smallCode c.toNat).isValidChar := isValidChar_smallCode c.valid
  rw [smallChar, Char.ofNat, dif_pos valid]
  rfl

/-! ## What lowering leaves -/

theorem isSettled_smallChar {c : Char} (notDotted : c ≠ dottedCapitalI) :
    IsSettled (smallChar c) := by
  have notCode : c.toNat ≠ 0x0130 := by
    intro same
    apply notDotted
    rw [← Char.ofNat_toNat c, same]
    rfl
  rcases smallCode_settled notCode with ⟨uncovered, stillNot⟩
  rw [← toNat_smallChar] at uncovered stillNot
  apply isSettled_of_own
  · intro same
    rw [same] at stillNot
    exact stillNot rfl
  · intro same
    rw [same] at uncovered
    have covered : (caseRuns.find? fun run => run.covers capitalSigma.toNat).isSome = true := by
      decide +kernel
    rw [uncovered] at covered
    cases covered
  · rw [smallChar, smallCode, uncovered, Char.ofNat_toNat]

theorem isSettled_of_mem_lowerAt {before after : List Char} {c small : Char}
    (member : small ∈ lowerAt before c after) : IsSettled small := by
  unfold lowerAt at member
  split at member
  · have either : small = 'i' ∨ small = combiningDot := by simpa using member
    rcases either with rfl | rfl
    · exact isSettled_of_own (by decide) (by decide) (by decide +kernel)
    · exact isSettled_of_own (by decide) (by decide) (by decide +kernel)
  · next notDotted =>
      split at member
      · rw [List.mem_singleton.mp member]
        exact isSettled_of_own (by decide) (by decide) (by decide +kernel)
      · rw [List.mem_singleton.mp member]
        exact isSettled_smallChar notDotted

/-- Lowering leaves settled characters only. -/
theorem isSettled_of_mem_lower {text : List Char} {c : Char} (member : c ∈ lower text) :
    IsSettled c := by
  have behind : forall before, c ∈ lowerAfter before text -> IsSettled c := by
    clear member
    induction text with
    | nil => exact fun _ member => absurd member List.not_mem_nil
    | cons first rest inductionHypothesis =>
        intro before member
        rcases List.mem_append.mp member with here | later
        · exact isSettled_of_mem_lowerAt here
        · exact inductionHypothesis (first :: before) later
  exact behind [] member

/-! ## What cutting leaves -/

/-- The pieces of a cut text are parts of it. -/
theorem infix_of_mem_splitOnP (cut : Char -> Bool) (text : List Char) :
    forall piece, piece ∈ text.splitOnP cut -> piece <:+: text := by
  -- the first piece starts the text, so it stays a part when a character is put before it
  have parts : (forall piece, (text.splitOnP cut).head? = some piece -> piece <+: text) ∧
      forall piece, piece ∈ text.splitOnP cut -> piece <:+: text := by
    induction text with
    | nil => simp
    | cons c rest inductionHypothesis =>
        rw [List.splitOnP_cons_eq_if_modifyHead]
        split
        · constructor
          · intro piece first
            cases first
            exact List.nil_prefix
          · intro piece member
            rcases List.mem_cons.mp member with rfl | later
            · exact List.nil_infix
            · exact (inductionHypothesis.2 piece later).trans (List.suffix_cons c rest).isInfix
        · cases pieces : rest.splitOnP cut with
          | nil => exact absurd pieces (List.splitOnP_ne_nil cut rest)
          | cons head others =>
              rw [pieces] at inductionHypothesis
              have extended : c :: head <+: c :: rest :=
                (List.prefix_cons_inj c).mpr (inductionHypothesis.1 head rfl)
              constructor
              · intro piece first
                cases first
                exact extended
              · intro piece member
                rcases List.mem_cons.mp member with rfl | later
                · exact extended.isInfix
                · exact (inductionHypothesis.2 piece (List.mem_cons_of_mem head later)).trans
                    (List.suffix_cons c rest).isInfix
  exact parts.2

theorem field_infix {text field : List Char} (member : field ∈ fields text) : field <:+: text :=
  infix_of_mem_splitOnP isBlank text field (List.mem_filter.mp member).1

end Text

/-! ## Comments -/

theorem beforeComment_isPrefix (text : List Char) : beforeComment text <+: text := by
  fun_induction beforeComment text with
  | case1 => exact List.prefix_refl []
  | case2 rest => exact List.nil_prefix
  | case3 c rest _ inductionHypothesis => exact (List.prefix_cons_inj c).mpr inductionHypothesis

/-- No comment starts before the first. -/
theorem not_comment_beforeComment (text : List Char) : ¬ ['/', '/'] <:+: beforeComment text := by
  fun_induction beforeComment text with
  | case1 => simp
  | case2 rest => simp
  | case3 c rest apart inductionHypothesis =>
      rw [List.infix_cons_iff]
      rintro (here | later)
      · -- a comment here would start with this slash and the next one
        rcases List.cons_prefix_cons.mp here with ⟨rfl, next⟩
        rcases next.trans (beforeComment_isPrefix rest) with ⟨tail, rfl⟩
        exact apart tail rfl rfl
      · exact inductionHypothesis later

/-- A comment does not reach over a space. -/
theorem not_comment_append_space {before after : List Char} (front : ¬ ['/', '/'] <:+: before)
    (back : ¬ ['/', '/'] <:+: after) : ¬ ['/', '/'] <:+: before ++ ' ' :: after := by
  induction before with
  | nil =>
      rw [List.nil_append, List.infix_cons_iff]
      rintro (here | later)
      · cases (List.cons_prefix_cons.mp here).1
      · exact back later
  | cons c rest inductionHypothesis =>
      rw [List.cons_append, List.infix_cons_iff]
      rintro (here | later)
      · rcases List.cons_prefix_cons.mp here with ⟨rfl, next⟩
        cases rest with
        | nil => cases (List.cons_prefix_cons.mp next).1
        | cons second others =>
            rcases List.cons_prefix_cons.mp next with ⟨rfl, -⟩
            exact front (List.prefix_append ['/', '/'] others).isInfix
      · refine inductionHypothesis ?_ later
        intro inRest
        exact front (inRest.trans (List.suffix_cons c rest).isInfix)

/-! ## Cleaned lines -/

/-- Taking commas for blanks keeps characters settled: a space is. -/
theorem isSettled_blankComma {c : Char} (settled : Text.IsSettled c) :
    Text.IsSettled (blankComma c) := by
  unfold blankComma
  split
  · exact Text.isSettled_of_isSmallAscii (by decide)
  · exact settled

theorem blankComma_ne_comma (c : Char) : blankComma c ≠ ',' := by
  unfold blankComma
  split
  · decide
  · next other => exact other

/-- A cleaned line is a part of the lowered one, with blanks for commas. -/
theorem cleanChars_isInfix (text : List Char) :
    cleanChars text <:+: (Text.lower text).map blankComma :=
  (Text.trimBy_isInfix Text.isBlank _).trans (beforeComment_isPrefix _).isInfix

theorem isSettled_of_mem_cleanChars {text : List Char} {c : Char}
    (member : c ∈ cleanChars text) : Text.IsSettled c := by
  rcases List.mem_map.mp ((cleanChars_isInfix text).subset member) with ⟨lowered, inLower, rfl⟩
  exact isSettled_blankComma (Text.isSettled_of_mem_lower inLower)

theorem ne_comma_of_mem_cleanChars {text : List Char} {c : Char}
    (member : c ∈ cleanChars text) : c ≠ ',' := by
  rcases List.mem_map.mp ((cleanChars_isInfix text).subset member) with ⟨lowered, -, rfl⟩
  exact blankComma_ne_comma lowered

/-- Trimming brings no slashes together. -/
theorem not_comment_cleanChars (text : List Char) : ¬ ['/', '/'] <:+: cleanChars text :=
  fun comment => not_comment_beforeComment _
    (comment.trans (Text.trimBy_isInfix Text.isBlank _))

/-- No step of cleaning finds anything to do on a cleaned line. -/
theorem cleanChars_cleanChars (text : List Char) :
    cleanChars (cleanChars text) = cleanChars text := by
  have lowered : Text.lower (cleanChars text) = cleanChars text :=
    Text.lower_of_isSettled fun _ member => isSettled_of_mem_cleanChars member
  have blanked : (cleanChars text).map blankComma = cleanChars text :=
    map_blankComma_of_commaFree fun _ member => ne_comma_of_mem_cleanChars member
  have uncommented : beforeComment (cleanChars text) = cleanChars text :=
    beforeComment_of_no_comment (not_comment_cleanChars text)
  have trimmed : Text.trim (cleanChars text) = cleanChars text :=
    Text.trimBy_of_ends (Text.head?_trimBy _ _) (Text.getLast?_trimBy _ _)
  calc
    cleanChars (cleanChars text)
        = Text.trim (beforeComment ((Text.lower (cleanChars text)).map blankComma)) := rfl
    _ = cleanChars text := by rw [lowered, blanked, uncommented, trimmed]

/-! ## Clean tokens -/

/-- A token as cleaning and cutting leave it. -/
structure IsCleanToken (token : String) : Prop where
  nonempty : token.toList ≠ []
  settled : forall c, c ∈ token.toList -> Text.IsSettled c
  solid : forall c, c ∈ token.toList -> Text.isBlank c = false
  commaFree : forall c, c ∈ token.toList -> c ≠ ','
  uncommented : ¬ ['/', '/'] <:+: token.toList

/-- A token that a line may be cut into at blanks and commas. -/
structure IsSolidToken (token : String) : Prop where
  nonempty : token.toList ≠ []
  solid : forall c, c ∈ token.toList -> Text.isBlank c = false
  commaFree : forall c, c ∈ token.toList -> c ≠ ','

theorem IsCleanToken.isSolidToken {token : String} (cleaned : IsCleanToken token) :
    IsSolidToken token :=
  ⟨cleaned.nonempty, cleaned.solid, cleaned.commaFree⟩

/-- The tokens of a cleaned line are clean. -/
theorem isCleanToken_of_mem {text token : String} (member : token ∈ tokensOf (clean text)) :
    IsCleanToken token := by
  rw [tokensOf, clean, String.toList_ofList] at member
  rcases List.mem_map.mp member with ⟨field, listed, rfl⟩
  have part := Text.field_infix listed
  rcases Text.field_nonempty_and_solid _ field listed with ⟨nonempty, solid⟩
  constructor
  · rwa [String.toList_ofList]
  · rw [String.toList_ofList]
    exact fun c inField => isSettled_of_mem_cleanChars (part.subset inField)
  · rwa [String.toList_ofList]
  · rw [String.toList_ofList]
    exact fun c inField => ne_comma_of_mem_cleanChars (part.subset inField)
  · rw [String.toList_ofList]
    exact fun comment => not_comment_cleanChars _ (comment.trans part)

theorem IsPlainToken.isCleanToken {token : String} (plain : IsPlainToken token) :
    IsCleanToken token := by
  have kind := fun c member => (isTokenChar_iff c).mp (plain.2 c member)
  constructor
  · exact plain.1
  · exact fun c member => Text.isSettled_of_isSmallAscii (kind c member).1
  · exact fun c member => (kind c member).2.2.2
  · exact fun c member => (kind c member).2.2.1
  · exact fun comment => (kind '/' (comment.subset List.mem_cons_self)).2.1 rfl

/-! ## Tokens joined by spaces -/

theorem toList_intercalate_cons_cons (first second : String) (rest : List String) :
    (String.intercalate " " (first :: second :: rest)).toList =
      first.toList ++ ' ' :: (String.intercalate " " (second :: rest)).toList := by
  simp

theorem mem_joined {tokens : List String} {c : Char}
    (member : c ∈ (String.intercalate " " tokens).toList) :
    c = ' ' ∨ Exists fun token => token ∈ tokens ∧ c ∈ token.toList := by
  rw [String.toList_intercalate] at member
  rcases mem_intercalate member with separator | ⟨text, listed, inText⟩
  · exact Or.inl (List.mem_singleton.mp separator)
  · rcases List.mem_map.mp listed with ⟨token, inTokens, rfl⟩
    exact Or.inr ⟨token, inTokens, inText⟩

/-- Solid tokens are cut from the line that joins them. -/
theorem tokensOf_joined {tokens : List String}
    (solid : forall token, token ∈ tokens -> IsSolidToken token) :
    tokensOf (String.intercalate " " tokens) = tokens := by
  induction tokens with
  | nil => rfl
  | cons first rest inductionHypothesis =>
      have here := solid first List.mem_cons_self
      have one := Text.fields_of_solid here.nonempty here.solid
      have later := inductionHypothesis fun token member =>
        solid token (List.mem_cons_of_mem first member)
      unfold tokensOf at later ⊢
      cases rest with
      | nil =>
          rw [String.intercalate_singleton, one]
          simp
      | cons second others =>
          rw [toList_intercalate_cons_cons, Text.fields_append_blank _ _ Text.isBlank_space, one,
            List.map_append, later]
          simp

section

variable {tokens : List String} (cleaned : forall token, token ∈ tokens -> IsCleanToken token)

include cleaned

theorem not_comment_joined : ¬ ['/', '/'] <:+: (String.intercalate " " tokens).toList := by
  induction tokens with
  | nil => simp
  | cons first rest inductionHypothesis =>
      have here := cleaned first List.mem_cons_self
      cases rest with
      | nil => simpa using here.uncommented
      | cons second others =>
          rw [toList_intercalate_cons_cons]
          exact not_comment_append_space here.uncommented (inductionHypothesis fun token member =>
            cleaned token (List.mem_cons_of_mem first member))

/-- Clean tokens are cut from the line that joins them, also after cleaning it. -/
theorem tokensOf_clean_joined : tokensOf (clean (String.intercalate " " tokens)) = tokens := by
  have commaFree : (String.intercalate " " tokens).toList.map blankComma =
      (String.intercalate " " tokens).toList := by
    apply map_blankComma_of_commaFree
    intro c member
    rcases mem_joined member with rfl | ⟨token, listed, inToken⟩
    · decide
    · exact (cleaned token listed).commaFree c inToken
  rw [tokensOf_clean_of_isSettled, commaFree]
  · exact tokensOf_joined fun token member => (cleaned token member).isSolidToken
  · intro c member
    rcases mem_joined member with rfl | ⟨token, listed, inToken⟩
    · exact Text.isSettled_of_isSmallAscii (by decide)
    · exact (cleaned token listed).settled c inToken
  · rw [commaFree]
    exact not_comment_joined cleaned

/-- The line that joins clean tokens is one line. -/
theorem unbroken_joined {c : Char} (member : c ∈ (String.intercalate " " tokens).toList) :
    c ≠ '\r' ∧ c ≠ '\n' := by
  rcases mem_joined member with rfl | ⟨token, listed, inToken⟩
  · decide
  · have notBlank := (cleaned token listed).solid c inToken
    constructor
    · rintro rfl
      cases notBlank
    · rintro rfl
      cases notBlank

end

/-! ## Cleaning again -/

/-- A cleaned line stays as it is when it is cleaned again.  It holds no comma and no start of a
comment, and neither starts nor ends with a blank.  Its tokens, joined by spaces and cleaned, are
cut from the joined line again. -/
theorem cleaning_again_changes_nothing (text : String) :
    clean (clean text) = clean text ∧
      ',' ∉ (clean text).toList ∧
      ¬ ['/', '/'] <:+: (clean text).toList ∧
      (clean text).toList.head?.any Text.isBlank = false ∧
      (clean text).toList.getLast?.any Text.isBlank = false ∧
      tokensOf (clean (String.intercalate " " (tokensOf (clean text)))) =
        tokensOf (clean text) := by
  have characters : (clean text).toList = cleanChars text.toList := String.toList_ofList
  refine ⟨?_, ?_, ?_, ?_, ?_, ?_⟩
  · rw [clean, characters, cleanChars_cleanChars, clean]
  · rw [characters]
    exact fun comma => ne_comma_of_mem_cleanChars comma rfl
  · rw [characters]
    exact not_comment_cleanChars _
  · rw [characters]
    exact Text.head?_trimBy _ _
  · rw [characters]
    exact Text.getLast?_trimBy _ _
  · exact tokensOf_clean_joined fun _ member => isCleanToken_of_mem member

-- The first sigma ends a word; the dotted capital I becomes two characters.
example : clean "\tLI\u00A0\u0130\u03A3,, \u03A3 / // X" = "li\u00A0i\u0307\u03C2   \u03C3 /" := by
  decide +kernel

end NibbleMachine
