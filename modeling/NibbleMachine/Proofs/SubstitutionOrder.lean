import NibbleMachine.Proofs.Symbols
import Mathlib.Data.List.Nodup

namespace NibbleMachine

/-!
# The order of symbols in a table

Symbols are replaced one after the other, each in what the ones before have left, so in
general their order matters: a value may hold a later name, and two names may overlap in
a token.  Neither can happen when no character of a name stands in another name or in the
value of another name.  Then a replacement passes over the occurrences of the other name
and over the values put in for them.

One case would remain.  An empty value would let the text before a name run into the text
behind it, and the two together might be an occurrence of the other name.  So the values
must not be empty.  With that, two neighbours in a table may change places, and every
permutation is made of such changes.
-/

/-! ## Text apart from a name -/

namespace Text

section

variable {name : List Char} (solid : name ≠ []) (value : List Char)

include solid

/-- A replacement passes over text without a character of the name. -/
theorem replace_append_of_disjoint {front : List Char} (apart : forall c, c ∈ name -> c ∉ front)
    (rest : List Char) :
    replace name value (front ++ rest) = front ++ replace name value rest := by
  induction front with
  | nil => rfl
  | cons c others inductionHypothesis =>
      have elsewhere : ¬ name <+: c :: (others ++ rest) := by
        intro starts
        rcases List.exists_cons_of_ne_nil solid with ⟨first, behind, rfl⟩
        have same : first = c := (List.cons_prefix_cons.mp starts).1
        exact apart first List.mem_cons_self (same ▸ List.mem_cons_self)
      have later := inductionHypothesis fun other member inOthers =>
        apart other member (List.mem_cons_of_mem c inOthers)
      rw [List.cons_append, replace_cons_of_elsewhere solid value elsewhere, later,
        List.cons_append]

/-- What stands at the start of a text is kept there by a replacement, and nothing comes to
stand there, as long as it shares no character with the name and its value. -/
theorem isPrefix_replace_iff (filled : value ≠ []) {start : List Char}
    (apart : forall c, c ∈ start -> c ∉ name ∧ c ∉ value) (text : List Char) :
    start <+: replace name value text <-> start <+: text := by
  induction start generalizing text with
  | nil => simp
  | cons first others inductionHypothesis =>
      have own := apart first List.mem_cons_self
      by_cases occurs : name <+: text
      · -- both texts go on with a character that `first` is not
        rcases occurs with ⟨rest, rfl⟩
        rw [replace_name_append solid]
        rcases List.exists_cons_of_ne_nil solid with ⟨c, behind, rfl⟩
        rcases List.exists_cons_of_ne_nil filled with ⟨d, values, rfl⟩
        have notName : first ≠ c := fun same => own.1 (same ▸ List.mem_cons_self)
        have notValue : first ≠ d := fun same => own.2 (same ▸ List.mem_cons_self)
        simp [notName, notValue]
      · cases text with
        | nil => rw [replace_nil solid]
        | cons c rest =>
            rw [replace_cons_of_elsewhere solid value occurs, List.cons_prefix_cons,
              List.cons_prefix_cons, inductionHypothesis fun other member =>
                apart other (List.mem_cons_of_mem first member)]

end

/-! ## Two names -/

/-- No character of a name stands in another name or in the value of that. -/
def Misses (name other otherValue : List Char) : Prop :=
  forall c, c ∈ name -> c ∉ other ∧ c ∉ otherValue

/-- At an occurrence of one name, the replacement of another passes over the name as well
as over its value, whichever comes first. -/
theorem replace_both_name_append {name value other : List Char} (solid : name ≠ [])
    (otherSolid : other ≠ []) (misses : Misses other name value) (otherValue rest : List Char) :
    replace other otherValue (replace name value (name ++ rest)) =
        value ++ replace other otherValue (replace name value rest) ∧
      replace name value (replace other otherValue (name ++ rest)) =
        value ++ replace name value (replace other otherValue rest) := by
  constructor
  · rw [replace_name_append solid,
      replace_append_of_disjoint otherSolid _ fun c member => (misses c member).2]
  · rw [replace_append_of_disjoint otherSolid _ fun c member => (misses c member).1,
      replace_name_append solid]

/-- Where neither name starts, the character is kept by both replacements. -/
theorem replace_both_cons {name value other otherValue : List Char} (solid : name ≠ [])
    (otherSolid : other ≠ []) (filled : value ≠ []) (misses : Misses other name value) {c : Char}
    {rest : List Char} (elsewhere : ¬ name <+: c :: rest)
    (otherElsewhere : ¬ other <+: c :: rest) :
    replace other otherValue (replace name value (c :: rest)) =
      c :: replace other otherValue (replace name value rest) := by
  have still : ¬ other <+: c :: replace name value rest := by
    rw [← replace_cons_of_elsewhere solid value elsewhere,
      isPrefix_replace_iff solid value filled misses]
    exact otherElsewhere
  rw [replace_cons_of_elsewhere solid value elsewhere,
    replace_cons_of_elsewhere otherSolid otherValue still]

/-- Two replacements may change places when neither name shares a character with the other
or with its value. -/
theorem replace_comm {name value other otherValue : List Char} (solid : name ≠ [])
    (otherSolid : other ≠ []) (filled : value ≠ []) (otherFilled : otherValue ≠ [])
    (misses : Misses name other otherValue) (otherMisses : Misses other name value)
    (text : List Char) :
    replace other otherValue (replace name value text) =
      replace name value (replace other otherValue text) := by
  -- along the text: it starts with one of the names, or with a character that both keep
  induction length : text.length using Nat.strongRecOn generalizing text with
  | ind size inductionHypothesis =>
      by_cases here : name <+: text
      · rcases here with ⟨rest, rfl⟩
        have shorter : rest.length < size := by
          rw [← length, List.length_append]
          exact Nat.lt_add_of_pos_left (List.length_pos_iff.mpr solid)
        have both := replace_both_name_append solid otherSolid otherMisses otherValue rest
        rw [both.1, both.2, inductionHypothesis rest.length shorter rest rfl]
      · by_cases otherHere : other <+: text
        · rcases otherHere with ⟨rest, rfl⟩
          have shorter : rest.length < size := by
            rw [← length, List.length_append]
            exact Nat.lt_add_of_pos_left (List.length_pos_iff.mpr otherSolid)
          have both := replace_both_name_append otherSolid solid misses value rest
          rw [both.1, both.2, inductionHypothesis rest.length shorter rest rfl]
        · cases text with
          | nil => rw [replace_nil solid, replace_nil otherSolid, replace_nil solid]
          | cons c rest =>
              have shorter : rest.length < size := by
                rw [← length]
                exact Nat.lt_succ_self rest.length
              rw [replace_both_cons solid otherSolid filled otherMisses here otherHere,
                replace_both_cons otherSolid solid otherFilled misses otherHere here,
                inductionHypothesis rest.length shorter rest rfl]

end Text

/-! ## Tables -/

/-- Symbols that stay out of each other's way.  No name and no value is empty, a name stands
once, as it does in every table, and no character of a name stands in another name or in the
value of that. -/
structure Separate (symbols : List (String × String)) : Prop where
  names : forall symbol, symbol ∈ symbols -> symbol.1 ≠ ""
  values : forall symbol, symbol ∈ symbols -> symbol.2 ≠ ""
  nodup : (symbols.map Prod.fst).Nodup
  apart : forall symbol, symbol ∈ symbols -> forall other, other ∈ symbols ->
    symbol.1 ≠ other.1 -> forall c, c ∈ symbol.1.toList ->
      c ∉ other.1.toList ∧ c ∉ other.2.toList

namespace Separate

variable {symbols : List (String × String)} (separate : Separate symbols)

include separate

/-- Two symbols of the table may change places. -/
theorem replaceInToken_comm {symbol other : String × String} (listed : symbol ∈ symbols)
    (otherListed : other ∈ symbols) (token : String) :
    replaceInToken other.1 other.2 (replaceInToken symbol.1 symbol.2 token) =
      replaceInToken symbol.1 symbol.2 (replaceInToken other.1 other.2 token) := by
  have characters : forall {text : String}, text ≠ "" -> text.toList ≠ [] := by simp
  by_cases same : symbol.1 = other.1
  · have equal : symbol = other :=
      List.inj_on_of_nodup_map separate.nodup listed otherListed same
    rw [equal]
  · unfold replaceInToken
    rw [String.toList_ofList, String.toList_ofList]
    exact congrArg String.ofList (Text.replace_comm
      (characters (separate.names symbol listed)) (characters (separate.names other otherListed))
      (characters (separate.values symbol listed)) (characters (separate.values other otherListed))
      (separate.apart symbol listed other otherListed same)
      (separate.apart other otherListed symbol listed (Ne.symm same)) token.toList)

theorem substituteToken_perm {permuted : List (String × String)} (perm : symbols.Perm permuted) :
    substituteToken permuted = substituteToken symbols := by
  funext token
  exact (perm.foldl_eq' (fun _ listed _ otherListed token =>
    separate.replaceInToken_comm listed otherListed token) token).symm

end Separate

/-- Replacing any symbol stops when a line that takes part has not been cut. -/
theorem complete_substitute_of_uncut {symbols : List (String × String)} (nonempty : symbols ≠ [])
    {lines : List Line} (uncut : ¬ LinesCut lines) :
    (substitute symbols lines).complete = .error .untokenized := by
  rcases List.exists_cons_of_ne_nil nonempty with ⟨⟨name, value⟩, rest, rfl⟩
  -- the first symbol is not replaced on all lines already
  have stops : (sweep (replaceInLine name value) lines).complete = .error .untokenized := by
    cases swept : (sweep (replaceInLine name value) lines).complete with
    | error fault =>
        rcases (complete_sweep_eq_error_iff _ _ _).mp swept with ⟨_, line, _, -, faults, -⟩
        unfold visitOrKeep at faults
        split at faults
        · rw [((replaceInLine_eq_error_iff name value line fault).mp faults).2]
        · cases faults
    | ok result =>
        rcases (complete_sweep_eq_ok_iff _ _ _ _).mp swept with ⟨steps, taken, -⟩
        refine absurd ?_ uncut
        intro line member valid
        rcases taken.exists_step _ member with ⟨step, -, stepped⟩
        rw [visitOrKeep_of_valid _ valid] at stepped
        rcases (replaceInLine_eq_ok_iff name value line step).mp stepped with ⟨tokens, shape, -⟩
        exact ⟨tokens, shape⟩
  rw [Swept.complete_eq_error_iff] at stops ⊢
  rw [substitute, stops]

/-- The order of a table does not matter when its symbols stay out of each other's way.  On
any lines, replacing the symbols in any other order stops in the same way or leaves the same
tokens on every line; and when the lines have been cut, it does not stop. -/
theorem substitution_order_is_irrelevant (symbols permuted : List (String × String))
    (separate : Separate symbols) (perm : symbols.Perm permuted) (lines : List Line) :
    (substitute permuted lines).complete = (substitute symbols lines).complete ∧
      ((forall line, line ∈ lines -> line.valid = true -> line.tokens ≠ none) ->
        (substitute permuted lines).outcome = .ok [] ∧
          (substitute symbols lines).outcome = .ok [] ∧
          (substitute permuted lines).lines = (substitute symbols lines).lines) := by
  have same : (substitute permuted lines).complete = (substitute symbols lines).complete := by
    by_cases cut : LinesCut lines
    · have alike : Line.substituted permuted = Line.substituted symbols := by
        funext line
        rw [Line.substituted, separate.substituteToken_perm perm]
        rfl
      rw [complete_substitute_of_cut _ cut, complete_substitute_of_cut _ cut, alike]
    · by_cases empty : symbols = []
      · rw [empty] at perm ⊢
        rw [perm.nil_eq]
      · have nonempty : permuted ≠ [] := by
          rintro rfl
          exact empty perm.eq_nil
        rw [complete_substitute_of_uncut empty cut, complete_substitute_of_uncut nonempty cut]
  refine ⟨same, ?_⟩
  intro cut
  have linesCut : LinesCut lines := fun line member valid =>
    Option.ne_none_iff_exists'.mp (cut line member valid)
  have completes := complete_substitute_of_cut symbols linesCut
  rcases (Swept.complete_eq_ok_iff _ _ _).mp completes with ⟨sweptLines, outcome⟩
  rw [completes] at same
  rcases (Swept.complete_eq_ok_iff _ _ _).mp same with ⟨permutedLines, permutedOutcome⟩
  exact ⟨permutedOutcome, outcome, permutedLines.trans sweptLines.symm⟩

/-- A value that holds its own name, and a name between two characters that would make up the
other name if its value were empty. -/
theorem substitution_order_is_irrelevant_of_sample :
    Separate [("ab", "zab"), ("k", "zz")] ∧
      (substitute [("k", "zz"), ("ab", "zab")]
          [⟨1, "", true, some ["abkab", "akb"], none, none, none, 0⟩]).lines =
        [⟨1, "", true, some ["zabzzzab", "azzb"], none, none, none, 0⟩] := by
  have separate : Separate [("ab", "zab"), ("k", "zz")] :=
    ⟨by decide, by decide, by decide, by simp⟩
  have same := substitution_order_is_irrelevant [("ab", "zab"), ("k", "zz")]
    [("k", "zz"), ("ab", "zab")] separate (.swap _ _ _)
    [⟨1, "", true, some ["abkab", "akb"], none, none, none, 0⟩]
  refine ⟨separate, (same.2 (by decide)).2.2.trans ?_⟩
  decide +kernel

/-- With an empty value the order does matter. -/
example : substituteToken [("k", ""), ("ab", "z")] "akb" = "z" ∧
    substituteToken [("ab", "z"), ("k", "")] "akb" = "ab" := by
  decide +kernel

end NibbleMachine
