namespace NibbleMachine
namespace Text

/-!
# Replacing one text inside another

Occurrences are taken from left to right and do not overlap: after an
occurrence the search goes on behind it, so the inserted value is never
searched again.  The empty name occurs before every character and at the end.
-/

/-- Replace the occurrences of a name that is not empty.  The number counts the
characters that still belong to the occurrence replaced last. -/
def replaceFrom (name value : List Char) : Nat -> List Char -> List Char
  | _, [] => []
  | inside + 1, _ :: rest => replaceFrom name value inside rest
  | 0, c :: rest =>
      if name.isPrefixOf (c :: rest) then
        value ++ replaceFrom name value (name.length - 1) rest
      else c :: replaceFrom name value 0 rest

def replace (name value text : List Char) : List Char :=
  if name.isEmpty then (text.flatMap fun c => value ++ [c]) ++ value
  else replaceFrom name value 0 text

/-- Without an occurrence nothing changes. -/
theorem replaceFrom_of_not_infix (name value text : List Char)
    (absent : ¬ name <:+: text) : replaceFrom name value 0 text = text := by
  induction text with
  | nil => rfl
  | cons c rest inductionHypothesis =>
      have notHere : name.isPrefixOf (c :: rest) = false := by
        cases here : name.isPrefixOf (c :: rest) with
        | false => rfl
        | true =>
            exact absurd (List.isPrefixOf_iff_prefix.mp here).isInfix absent
      have notLater : ¬ name <:+: rest := fun later =>
        absent (later.trans (List.suffix_cons c rest).isInfix)
      simp [replaceFrom, notHere, inductionHypothesis notLater]

/-! ## Replacing piece by piece -/

theorem replaceFrom_eq_drop (name value : List Char) (inside : Nat) (text : List Char) :
    replaceFrom name value inside text = replaceFrom name value 0 (text.drop inside) := by
  induction text generalizing inside with
  | nil => cases inside <;> rfl
  | cons c rest inductionHypothesis =>
      cases inside with
      | zero => rfl
      | succ smaller => exact inductionHypothesis smaller

section

variable {name : List Char} (solid : name ≠ []) (value : List Char)

include solid

theorem replace_eq_replaceFrom (text : List Char) :
    replace name value text = replaceFrom name value 0 text := by
  rw [replace, if_neg (by simpa using solid)]

theorem replace_nil : replace name value [] = [] := by
  rw [replace_eq_replaceFrom solid, replaceFrom]

/-- At an occurrence the value is put in and the search goes on behind the name. -/
theorem replace_name_append (rest : List Char) :
    replace name value (name ++ rest) = value ++ replace name value rest := by
  rw [replace_eq_replaceFrom solid, replace_eq_replaceFrom solid]
  cases name with
  | nil => exact absurd rfl solid
  | cons c others =>
      have here : (c :: others).isPrefixOf (c :: (others ++ rest)) = true :=
        List.isPrefixOf_iff_prefix.mpr (List.prefix_append (c :: others) rest)
      rw [List.cons_append, replaceFrom, if_pos here, replaceFrom_eq_drop, List.length_cons,
        Nat.add_sub_cancel, List.drop_left]

/-- Where the name does not start, the character is kept. -/
theorem replace_cons_of_elsewhere {c : Char} {rest : List Char} (elsewhere : ¬ name <+: c :: rest) :
    replace name value (c :: rest) = c :: replace name value rest := by
  rw [replace_eq_replaceFrom solid, replace_eq_replaceFrom solid, replaceFrom,
    if_neg fun here => elsewhere (List.isPrefixOf_iff_prefix.mp here)]

end

end Text
end NibbleMachine
