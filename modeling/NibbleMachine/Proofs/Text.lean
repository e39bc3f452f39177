import NibbleMachine.Source.Clean
import Mathlib.Data.List.TakeWhile

namespace NibbleMachine
namespace Text

/-!
# Cutting and cleaning

The facts about text on which the assembler rests.  Fields are cut at blanks,
so a text is cut by cutting the parts around a blank; trimming takes away blanks
only and leaves the fields alone; and a line that is not empty once it has been
cleaned has at least one field.

Lowering is a rule with tables and with neighbours.  A text is its own lowering
when each of its characters is settled, that is, its own small form wherever it
stands.  Small letters, digits and signs of the ASCII range are settled, and
these are the characters that written instructions are made of.
-/

/-! ## Fields -/

/-- A blank separates the fields before it from those after it. -/
theorem fields_append_blank (before after : List Char) {c : Char} (blank : isBlank c = true) :
    fields (before ++ c :: after) = fields before ++ fields after := by
  unfold fields
  rw [List.splitOnP_append_cons before after blank, List.filter_append]

theorem fields_cons_blank (after : List Char) {c : Char} (blank : isBlank c = true) :
    fields (c :: after) = fields after :=
  fields_append_blank [] after blank

/-- A text without blanks is one field. -/
theorem fields_of_solid {text : List Char} (nonempty : text ≠ [])
    (solid : forall c, c ∈ text -> isBlank c = false) : fields text = [text] := by
  unfold fields
  rw [List.splitOnP_eq_singleton solid]
  simp [nonempty]

theorem fields_cons_solid_ne_nil (rest : List Char) {c : Char} (solid : isBlank c = false) :
    fields (c :: rest) ≠ [] := by
  unfold fields
  rw [List.splitOnP_cons_eq_if_modifyHead]
  cases pieces : rest.splitOnP isBlank with
  | nil => exact absurd pieces (List.splitOnP_ne_nil isBlank rest)
  | cons piece others => simp [solid]

/-- A text with a character that is not blank has a field. -/
theorem fields_ne_nil_of_mem {text : List Char} {c : Char} (member : c ∈ text)
    (solid : isBlank c = false) : fields text ≠ [] := by
  induction text with
  | nil => exact absurd member List.not_mem_nil
  | cons first rest inductionHypothesis =>
      cases blank : isBlank first with
      | false => exact fields_cons_solid_ne_nil rest blank
      | true =>
          rw [fields_cons_blank rest blank]
          rcases List.mem_cons.mp member with same | later
          · rw [same, blank] at solid
            exact Bool.noConfusion solid
          · exact inductionHypothesis later

/-! ## Trimming -/

theorem fields_dropWhile_isBlank (text : List Char) :
    fields (text.dropWhile isBlank) = fields text := by
  induction text with
  | nil => rfl
  | cons c rest inductionHypothesis =>
      cases blank : isBlank c with
      | false => rw [List.dropWhile_cons_of_neg (by simp [blank])]
      | true =>
          rw [List.dropWhile_cons_of_pos blank, inductionHypothesis,
            fields_cons_blank rest blank]

theorem fields_reverse_dropWhile_isBlank (text : List Char) :
    fields (text.dropWhile isBlank).reverse = fields text.reverse := by
  induction text with
  | nil => rfl
  | cons c rest inductionHypothesis =>
      cases blank : isBlank c with
      | false => rw [List.dropWhile_cons_of_neg (by simp [blank])]
      | true =>
          rw [List.dropWhile_cons_of_pos blank, inductionHypothesis, List.reverse_cons,
            fields_append_blank rest.reverse [] blank]
          exact (List.append_nil _).symm

/-- Trimming does not change the fields. -/
theorem fields_trim (text : List Char) : fields (trim text) = fields text := by
  unfold trim trimBy
  rw [fields_reverse_dropWhile_isBlank, List.reverse_reverse, fields_dropWhile_isBlank]

/-- What is left after trimming, if anything, has a field. -/
theorem fields_trim_ne_nil {text : List Char} (nonempty : trim text ≠ []) :
    fields (trim text) ≠ [] := by
  rw [fields_trim]
  by_cases solid : Exists fun c => c ∈ text ∧ isBlank c = false
  · rcases solid with ⟨c, member, notBlank⟩
    exact fields_ne_nil_of_mem member notBlank
  · have blank : forall c, c ∈ text -> isBlank c = true := by
      intro c member
      cases kind : isBlank c with
      | true => rfl
      | false => exact absurd ⟨c, member, kind⟩ solid
    have dropped : text.dropWhile isBlank = [] := List.dropWhile_eq_nil_iff.mpr blank
    exact absurd (by simp [trim, trimBy, dropped]) nonempty

/-! ## Characters that lowering keeps -/

/-- A character that is its own small form wherever it stands. -/
def IsSettled (c : Char) : Prop :=
  forall before after, lowerAt before c after = [c]

theorem isSettled_of_own {c : Char} (notDotted : c ≠ dottedCapitalI) (notSigma : c ≠ capitalSigma)
    (own : smallChar c = c) : IsSettled c := by
  intro before after
  simp [lowerAt, notDotted, notSigma, own]

theorem lowerAfter_of_isSettled (before text : List Char)
    (settled : forall c, c ∈ text -> IsSettled c) : lowerAfter before text = text := by
  induction text generalizing before with
  | nil => rfl
  | cons c rest inductionHypothesis =>
      rw [lowerAfter, settled c List.mem_cons_self, inductionHypothesis (c :: before)
        fun other member => settled other (List.mem_cons_of_mem c member)]
      rfl

/-- A text of settled characters is its own lowering. -/
theorem lower_of_isSettled {text : List Char} (settled : forall c, c ∈ text -> IsSettled c) :
    lower text = text :=
  lowerAfter_of_isSettled [] text settled

/-- Whether a character belongs to the ASCII range and is no capital. -/
def isSmallAscii (c : Char) : Bool :=
  c.toNat < 128 && !(0x41 ≤ c.toNat && c.toNat ≤ 0x5A)

theorem smallCode_of_ascii {code : Nat} (ascii : code < 128)
    (small : ¬ (0x41 ≤ code ∧ code ≤ 0x5A)) : smallCode code = code := by
  have apart : forall run, run ∈ caseRuns ->
      (run.first = 0x41 ∧ run.last = 0x5A) ∨ 128 ≤ run.first := by decide +kernel
  have uncovered : caseRuns.find? (fun run => run.covers code) = none := by
    rw [List.find?_eq_none]
    intro run member covered
    simp only [CaseRun.covers, Bool.and_eq_true, decide_eq_true_eq] at covered
    rcases apart run member with capitals | later
    · exact small ⟨capitals.1 ▸ covered.1.1, capitals.2 ▸ covered.1.2⟩
    · omega
  simp [smallCode, uncovered]

theorem isSettled_of_isSmallAscii {c : Char} (small : isSmallAscii c = true) : IsSettled c := by
  simp only [isSmallAscii, Bool.and_eq_true, decide_eq_true_eq, Bool.not_eq_true',
    Bool.and_eq_false_iff, decide_eq_false_iff_not] at small
  apply isSettled_of_own
  · rintro rfl
    exact absurd small.1 (by decide)
  · rintro rfl
    exact absurd small.1 (by decide)
  · rw [smallChar, smallCode_of_ascii small.1 (by omega), Char.ofNat_toNat]

/-! ## The ends of a trimmed text -/

theorem head?_dropWhile (drop : Char -> Bool) (text : List Char) :
    (text.dropWhile drop).head?.any drop = false := by
  induction text with
  | nil => rfl
  | cons c rest inductionHypothesis =>
      cases dropped : drop c with
      | true =>
          rw [List.dropWhile_cons_of_pos dropped]
          exact inductionHypothesis
      | false =>
          rw [List.dropWhile_cons_of_neg (by simp [dropped])]
          exact dropped

theorem dropWhile_of_head? {drop : Char -> Bool} {text : List Char}
    (kept : text.head?.any drop = false) : text.dropWhile drop = text := by
  cases text with
  | nil => rfl
  | cons c rest =>
      have own : drop c = false := kept
      exact List.dropWhile_cons_of_neg (by simp [own])

/-- Trimming the end leaves a first part of what trimming the start leaves. -/
theorem trimBy_isPrefix (drop : Char -> Bool) (text : List Char) :
    trimBy drop text <+: text.dropWhile drop := by
  rw [trimBy, ← List.reverse_suffix, List.reverse_reverse]
  exact List.dropWhile_suffix drop

theorem trimBy_isInfix (drop : Char -> Bool) (text : List Char) : trimBy drop text <:+: text :=
  (trimBy_isPrefix drop text).isInfix.trans (List.dropWhile_suffix drop).isInfix

/-- A trimmed text does not start with a character of the class. -/
theorem head?_trimBy (drop : Char -> Bool) (text : List Char) :
    (trimBy drop text).head?.any drop = false := by
  rcases trimBy_isPrefix drop text with ⟨tail, whole⟩
  have start := head?_dropWhile drop text
  rw [← whole] at start
  cases trimmed : trimBy drop text with
  | nil => rfl
  | cons c rest =>
      rw [trimmed] at start
      exact start

/-- A trimmed text does not end with a character of the class. -/
theorem getLast?_trimBy (drop : Char -> Bool) (text : List Char) :
    (trimBy drop text).getLast?.any drop = false := by
  rw [trimBy, List.getLast?_reverse]
  exact head?_dropWhile drop _

/-- Nothing is trimmed off a text whose ends are not of the class. -/
theorem trimBy_of_ends {drop : Char -> Bool} {text : List Char}
    (start : text.head?.any drop = false) (finish : text.getLast?.any drop = false) :
    trimBy drop text = text := by
  rw [← List.head?_reverse] at finish
  rw [trimBy, dropWhile_of_head? start, dropWhile_of_head? finish, List.reverse_reverse]

/-- Nothing is trimmed off a text without characters of the class. -/
theorem trimBy_of_kept {drop : Char -> Bool} {text : List Char}
    (kept : forall c, c ∈ text -> drop c = false) : trimBy drop text = text := by
  apply trimBy_of_ends
  · cases start : text.head? with
    | none => rfl
    | some c => exact kept c (List.mem_of_head? start)
  · cases finish : text.getLast? with
    | none => rfl
    | some c => exact kept c (List.mem_of_getLast? finish)

end Text

/-! ## Cleaning -/

/-- A text without a comment stands before its comment as a whole. -/
theorem beforeComment_of_no_comment {text : List Char} (plain : ¬ ['/', '/'] <:+: text) :
    beforeComment text = text := by
  fun_induction beforeComment text with
  | case1 => rfl
  | case2 rest => exact absurd (List.prefix_append ['/', '/'] rest).isInfix plain
  | case3 c rest _ inductionHypothesis =>
      rw [inductionHypothesis]
      intro later
      exact plain (later.trans (List.suffix_cons c rest).isInfix)

theorem map_blankComma_of_commaFree {text : List Char} (commaFree : forall c, c ∈ text -> c ≠ ',') :
    text.map blankComma = text := by
  have own : forall c, c ∈ text -> blankComma c = id c :=
    fun c member => if_neg (commaFree c member)
  rw [List.map_congr_left own, List.map_id]

theorem blankComma_eq_slash_iff (c : Char) : blankComma c = '/' <-> c = '/' := by
  unfold blankComma
  split
  · next comma =>
      rw [comma]
      decide
  · rfl

/-- The tokens of a line in settled characters without a comment are cut at
blanks and commas alone. -/
theorem tokensOf_clean_of_isSettled {text : String}
    (settled : forall c, c ∈ text.toList -> Text.IsSettled c)
    (plain : ¬ ['/', '/'] <:+: text.toList.map blankComma) :
    tokensOf (clean text) =
      (Text.fields (text.toList.map blankComma)).map String.ofList := by
  rw [tokensOf, clean, String.toList_ofList, cleanChars, Text.fields_trim,
    Text.lower_of_isSettled settled, beforeComment_of_no_comment plain]

/-- A line that is not empty once cleaned has a first token. -/
theorem tokensOf_clean_ne_nil {text : String} (nonempty : (clean text).isEmpty = false) :
    tokensOf (clean text) ≠ [] := by
  have kept : cleanChars text.toList ≠ [] := by
    intro empty
    simp [clean, empty] at nonempty
  intro none
  rw [tokensOf, clean, String.toList_ofList, List.map_eq_nil_iff] at none
  exact Text.fields_trim_ne_nil kept none

/-- A line with a token is not empty once cleaned. -/
theorem not_blank_of_tokensOf_clean {text : String} (solid : tokensOf (clean text) ≠ []) :
    (clean text).isEmpty = false := by
  apply eq_false_of_ne_true
  intro blank
  rw [String.isEmpty_iff.mp blank] at solid
  exact solid rfl

end NibbleMachine
