import NibbleMachine.CommandLine.Conventional
import Mathlib.Data.List.Forall2
import Mathlib.Data.List.Nodup
import Mathlib.Data.List.TakeWhile

namespace NibbleMachine
namespace CommandLine

/-!
# What is known of a front end

The commands rely on little of what a front end does.  A command line that leaves no
doubt is read: its words are spellings of declared options and flags, values behind the
options, and as many arguments as were declared, none of which looks like an option.
When the values are also of the declared kinds, they are handed over by name; of an
option that is given more than once the last value counts.  And the number of an ending
without a failure is the one that the command chose.

Nothing is assumed of doubtful command lines, nor of how failures are counted and shown.
The front end that runs the program does what is assumed.
-/

/-! ## Declarations -/

/-- A word that an option or a flag may be declared with. -/
def isSpelling (word : String) : Bool :=
  match word.toList with
  | ['-', letter] => letter != '-' && letter != '='
  | '-' :: '-' :: rest => !rest.isEmpty && !rest.contains '='
  | _ => false

/-- Parameters that can be told apart, none of which takes the spelling that asks for a
description. -/
structure WellDeclared (parameters : List Parameter) : Prop where
  names : (parameters.map Parameter.name).Nodup
  spellings : (parameters.flatMap Parameter.spellings).Nodup
  shapes : forall spelling, spelling ∈ parameters.flatMap Parameter.spellings ->
    isSpelling spelling = true ∧ spelling ≠ "--help"

/-! ## Command lines -/

/-- A word that does not look like an option. -/
def IsArgument (word : String) : Prop :=
  word.toList.head? ≠ some '-'

/-- What the words of a command line say: the arguments, and the options and flags that
are given, each option with its value. -/
inductive Tells (parameters : List Parameter) :
    List String -> List String -> List (String × Option String) -> Prop
  | nothing : Tells parameters [] [] []
  | argument {words arguments : List String} {given : List (String × Option String)}
      (word : String) (plain : IsArgument word) (rest : Tells parameters words arguments given) :
      Tells parameters (word :: words) (word :: arguments) given
  | option {words arguments : List String} {given : List (String × Option String)}
      (name : String) (spellings : List String) (kind : Kind) (help : String)
      (spelling value : String) (declared : .option name spellings kind help ∈ parameters)
      (spelled : spelling ∈ spellings) (plain : IsArgument value)
      (rest : Tells parameters words arguments given) :
      Tells parameters (spelling :: value :: words) arguments ((name, some value) :: given)
  | flag {words arguments : List String} {given : List (String × Option String)}
      (name : String) (spellings : List String) (help : String) (spelling : String)
      (declared : .flag name spellings help ∈ parameters) (spelled : spelling ∈ spellings)
      (rest : Tells parameters words arguments given) :
      Tells parameters (spelling :: words) arguments ((name, none) :: given)

/-- The values of a kind.  A path may lead nowhere unless its file must exist. -/
def Kind.Takes (workspace : Workspace) (value : String) : Kind -> Prop
  | .text => True
  | .file mustExist =>
      Char.ofNat 0 ∉ value.toList ∧
        match workspace.lookup value with
        | .ok .directory => False
        | .ok (.file _) => True
        | .error _ => mustExist = false

/-- There is a value of its kind for every declared argument, and every option was given
values of its kind. -/
structure Taken (parameters : List Parameter) (workspace : Workspace) (arguments : List String)
    (given : List (String × Option String)) : Prop where
  arguments : List.Forall₂ (fun declared value => declared.2.Takes workspace value)
    (argumentsOf parameters) arguments
  options : forall name spellings kind help value,
    .option name spellings kind help ∈ parameters -> (name, some value) ∈ given ->
      kind.Takes workspace value

/-- Values that are those of a command line. -/
structure Values.Follow (values : Values) (parameters : List Parameter) (arguments : List String)
    (given : List (String × Option String)) : Prop where
  argument : forall (index : Nat) name kind, (argumentsOf parameters)[index]? = some (name, kind) ->
    arguments[index]? = some (values.argument name)
  option_given : forall name spellings kind help value before after,
    .option name spellings kind help ∈ parameters ->
      given = before ++ (name, some value) :: after -> (forall other, (name, other) ∉ after) ->
        values.option name = some value
  option_left_out : forall name spellings kind help,
    .option name spellings kind help ∈ parameters -> (forall value, (name, value) ∉ given) ->
      values.option name = none
  flag : forall name spellings help, .flag name spellings help ∈ parameters ->
    (values.flag name = true <-> (name, none) ∈ given)

/-- A flag that a command line leaves out is not set. -/
theorem Values.Follow.flag_eq_false {values : Values} {parameters : List Parameter}
    {arguments : List String} {given : List (String × Option String)}
    (follow : values.Follow parameters arguments given) {name : String} {spellings : List String}
    {help : String} (declared : .flag name spellings help ∈ parameters)
    (absent : (name, none) ∉ given) : values.flag name = false := by
  apply Bool.eq_false_iff.mpr
  intro set
  exact absent ((follow.flag name spellings help declared).mp set)

/-- What the commands rely on. -/
structure Frontend.Documented (frontend : Frontend) : Prop where
  reads : forall parameters workspace words arguments given, WellDeclared parameters ->
    Tells parameters words arguments given -> Taken parameters workspace arguments given ->
      Exists fun values => frontend.read parameters workspace words = .values values ∧
        values.Follow parameters arguments given
  returned : frontend.exitCode .returned = 0
  exited : forall code, code < 256 -> frontend.exitCode (.exited code) = code

/-! ## Words of the conventional front end -/

theorem Parameter.spellings_of_switch? {parameter : Parameter} {switch : Switch}
    (own : parameter.switch? = some switch) : switch.spellings = parameter.spellings := by
  cases parameter with
  | argument name kind => cases own
  | option name spellings kind help =>
      cases own
      rfl
  | flag name spellings help =>
      cases own
      rfl

/-- A declared spelling stands for the switch it was declared with. -/
theorem switch?_of_declared {parameters : List Parameter}
    (distinct : (parameters.flatMap Parameter.spellings).Nodup) {parameter : Parameter}
    (declared : parameter ∈ parameters) {switch : Switch} (own : parameter.switch? = some switch)
    {spelling : String} (spelled : spelling ∈ parameter.spellings) :
    switch? (switchesOf parameters) spelling = some switch := by
  have found : (parameters.filterMap Parameter.switch?).find?
      (fun switch => switch.spellings.contains spelling) = some switch := by
    induction parameters with
    | nil => cases declared
    | cons first rest inductionHypothesis =>
        rw [List.flatMap_cons, List.nodup_append] at distinct
        rcases List.mem_cons.mp declared with rfl | later
        · rw [List.filterMap_cons_some own, List.find?_cons_of_pos]
          simpa [Parameter.spellings_of_switch? own] using spelled
        · have listed : spelling ∈ rest.flatMap Parameter.spellings :=
            List.mem_flatMap.mpr ⟨parameter, later, spelled⟩
          have other : spelling ∉ first.spellings :=
            fun shared => distinct.2.2 spelling shared spelling listed rfl
          cases switches : first.switch? with
          | none =>
              rw [List.filterMap_cons_none switches]
              exact inductionHypothesis distinct.2.1 later
          | some earlier =>
              rw [List.filterMap_cons_some switches, List.find?_cons_of_neg]
              · exact inductionHypothesis distinct.2.1 later
              · simpa [Parameter.spellings_of_switch? switches] using other
  rw [switch?, switchesOf, List.find?_append, found]
  rfl

/-- What a switch amounts to whose spelling stands alone. -/
def Switch.alone (switch : Switch) (spelling : String) : Word :=
  if switch.takesValue then .awaiting [] switch spelling else .switches [⟨switch.name, none⟩]

theorem readShort_of_alone {switches : List Switch} {letter : Char} {switch : Switch}
    (stands : switch? switches (String.ofList ['-', letter]) = some switch) :
    readShort switches [letter] = .ok (switch.alone (String.ofList ['-', letter])) := by
  rw [readShort, stands, Switch.alone]
  dsimp only
  split
  · rfl
  · rfl

theorem cutAtEquals_of_absent {word : List Char} (absent : '=' ∉ word) :
    cutAtEquals word = (String.ofList word, none) := by
  have uncut : word.takeWhile (fun c => c != '=') = word := by
    apply List.takeWhile_eq_self_iff.mpr
    intro c member
    have other : c ≠ '=' := fun same => absent (same ▸ member)
    simpa using other
  rw [cutAtEquals, uncut, List.drop_length]

theorem readLong_of_alone {switches : List Switch} {word : List Char} {switch : Switch}
    (unattached : '=' ∉ word) (stands : switch? switches (String.ofList word) = some switch) :
    readLong switches word = .ok (switch.alone (String.ofList word)) := by
  simp only [readLong, cutAtEquals_of_absent unattached, stands, Switch.alone]
  cases switch.takesValue with
  | false => rfl
  | true => rfl

/-- A spelling alone is the switch that it stands for. -/
theorem readWord_of_isSpelling {switches : List Switch} {word : String} {switch : Switch}
    (spelling : isSpelling word = true) (stands : switch? switches word = some switch) :
    readWord switches word = .ok (switch.alone word) := by
  rw [← String.ofList_toList (s := word)] at stands ⊢
  unfold isSpelling at spelling
  split at spelling
  · next letter shape =>
      have notDash : letter ≠ '-' := by
        rintro rfl
        cases spelling
      rw [shape] at stands ⊢
      rw [readWord, String.toList_ofList]
      split
      · next same =>
          cases same
          exact absurd rfl notDash
      · next other rest _ same =>
          cases same
          exact readShort_of_alone stands
      · next _ other => exact absurd rfl (other letter [])
  · next rest _ shape =>
      simp only [Bool.and_eq_true, Bool.not_eq_true', List.contains_eq_mem, decide_eq_false_iff_not]
        at spelling
      rw [shape] at stands ⊢
      rw [readWord, String.toList_ofList]
      refine readLong_of_alone ?_ stands
      simp [spelling.2]
  · cases spelling

theorem readWord_of_isArgument (switches : List Switch) {word : String} (plain : IsArgument word) :
    readWord switches word = .ok .argument := by
  unfold readWord
  split
  · next shape => exact absurd (by rw [shape]; rfl) plain
  · next shape => exact absurd (by rw [shape]; rfl) plain
  · rfl

/-- What a command line gives, as the conventional front end keeps it. -/
def givenOf (given : List (String × Option String)) : List Given :=
  given.map fun told => ⟨some told.1, told.2⟩

section

variable {parameters : List Parameter} {workspace : Workspace} {words arguments : List String}
  {given : List (String × Option String)}

/-- A command line that leaves no doubt is taken apart into what it tells. -/
theorem readArguments_of_tells (declared : WellDeclared parameters)
    (tells : Tells parameters words arguments given) :
    readArguments (switchesOf parameters) words = .ok ⟨givenOf given, arguments⟩ := by
  have spelled : forall parameter switch spelling, parameter ∈ parameters ->
      parameter.switch? = some switch -> spelling ∈ parameter.spellings ->
        spelling ≠ "--" ∧
          readWord (switchesOf parameters) spelling = .ok (switch.alone spelling) := by
    intro parameter switch spelling member own listed
    have shape := (declared.shapes spelling (List.mem_flatMap.mpr ⟨parameter, member, listed⟩)).1
    constructor
    · rintro rfl
      cases shape
    · exact readWord_of_isSpelling shape
        (switch?_of_declared declared.spellings member own listed)
  induction tells with
  | nothing => rfl
  | argument word plain rest inductionHypothesis =>
      have notEnd : word ≠ "--" := by
        rintro rfl
        exact plain rfl
      rw [readArguments, if_neg notEnd, readWord_of_isArgument _ plain]
      simp only [inductionHypothesis]
      rfl
  | option name spellings kind help spelling value member listed plain rest inductionHypothesis =>
      rcases spelled _ _ spelling member rfl listed with ⟨notEnd, read⟩
      rw [readArguments, if_neg notEnd, read]
      simp only [inductionHypothesis]
      rfl
  | flag name spellings help spelling member listed rest inductionHypothesis =>
      rcases spelled _ _ spelling member rfl listed with ⟨notEnd, read⟩
      rw [readArguments, if_neg notEnd, read]
      simp only [inductionHypothesis]
      rfl

/-! ## Values of the conventional front end -/

theorem lastValue?_givenOf (name : String) :
    (Arguments.mk (givenOf given) arguments).lastValue? name =
      ((given.filter fun told => told.1 == name).getLast?).bind Prod.snd := by
  have named : (givenOf given).filter (fun told => told.name == some name) =
      givenOf (given.filter fun told => told.1 == name) := by
    rw [givenOf, List.filter_map, givenOf]
    rfl
  rw [Arguments.lastValue?, named, givenOf, List.getLast?_map, Option.bind_map]
  rfl

theorem filter_of_absent {name : String} (absent : forall value, (name, value) ∉ given) :
    (given.filter fun told => told.1 == name) = [] := by
  apply List.filter_eq_nil_iff.mpr
  rintro ⟨other, value⟩ member same
  have named : other = name := beq_iff_eq.mp same
  rw [named] at member
  exact absent value member

theorem mem_of_lastValue? {name value : String}
    (last : (Arguments.mk (givenOf given) arguments).lastValue? name = some value) :
    (name, some value) ∈ given := by
  rw [lastValue?_givenOf] at last
  rcases Option.bind_eq_some_iff.mp last with ⟨⟨other, told⟩, final, rfl⟩
  have listed := List.mem_filter.mp (List.mem_of_getLast? final)
  have same : other = name := beq_iff_eq.mp listed.2
  rw [← same]
  exact listed.1

theorem has_givenOf (name : Option String) :
    (Arguments.mk (givenOf given) arguments).has name = true <->
      Exists fun told => told ∈ given ∧ some told.1 = name := by
  simp [Arguments.has, givenOf]

theorem checkValue_of_takes {parameter : Parameter} {kind : Kind} {value : String}
    (takes : kind.Takes workspace value) : checkValue workspace parameter kind value = .ok () := by
  cases kind with
  | text => rfl
  | file mustExist =>
      rcases takes with ⟨noNull, leads⟩
      rw [checkValue, if_neg (by simpa using noNull)]
      cases found : workspace.lookup value with
      | error error =>
          rw [found] at leads
          simp only [leads, Bool.false_eq_true, if_false]
      | ok node =>
          rw [found] at leads
          cases node with
          | directory => exact leads.elim
          | file content => rfl

theorem checkOptions_of_takes {arguments : Arguments}
    (takes : forall name spellings kind help value, .option name spellings kind help ∈ parameters ->
      arguments.lastValue? name = some value -> kind.Takes workspace value) :
    checkOptions workspace arguments parameters = .ok () := by
  induction parameters with
  | nil => rfl
  | cons parameter rest inductionHypothesis =>
      have later := inductionHypothesis fun name spellings kind help value declared =>
        takes name spellings kind help value (List.mem_cons_of_mem _ declared)
      cases parameter with
      | argument name kind => exact later
      | flag name spellings help => exact later
      | option name spellings kind help =>
          rw [checkOptions]
          cases last : arguments.lastValue? name with
          | none => exact later
          | some value =>
              have own := takes name spellings kind help value List.mem_cons_self last
              simp only [checkValue_of_takes own, bind, Except.bind, later]

theorem checkPositional_of_takes {declared : List (String × Kind)}
    (takes : List.Forall₂ (fun declared value => declared.2.Takes workspace value) declared
      arguments) :
    checkPositional workspace declared arguments = .ok () := by
  induction takes with
  | nil => rfl
  | cons own _ inductionHypothesis =>
      simp only [checkPositional, checkValue_of_takes own, bind, Except.bind, inductionHypothesis]

theorem lookup_zip {names values : List String} (distinct : names.Nodup)
    (same : names.length = values.length) {index : Nat} {name : String}
    (found : names[index]? = some name) :
    values[index]? = some (((names.zip values).lookup name).getD "") := by
  induction names generalizing values index with
  | nil => cases found
  | cons first rest inductionHypothesis =>
      cases values with
      | nil => cases same
      | cons value values =>
          rw [List.nodup_cons] at distinct
          cases index with
          | zero =>
              cases found
              simp
          | succ index =>
              have later : rest[index]? = some name := found
              have other : (name == first) = false := by
                apply beq_false_of_ne
                rintro rfl
                exact distinct.1 (List.mem_of_getElem? later)
              rw [List.zip_cons_cons, List.lookup_cons, other, List.getElem?_cons_succ]
              exact inductionHypothesis distinct.2 (Nat.succ.inj same) later

theorem names_argumentsOf_sublist (parameters : List Parameter) :
    ((argumentsOf parameters).map Prod.fst).Sublist (parameters.map Parameter.name) := by
  induction parameters with
  | nil => exact .slnil
  | cons parameter rest inductionHypothesis =>
      cases parameter with
      | argument name kind => exact inductionHypothesis.cons_cons name
      | option name spellings kind help => exact inductionHypothesis.cons name
      | flag name spellings help => exact inductionHypothesis.cons name

/-- What is given with a value was declared as an option. -/
theorem Tells.declared (tells : Tells parameters words arguments given) {name value : String}
    (member : (name, some value) ∈ given) :
    Exists fun spellings => Exists fun kind => Exists fun help =>
      .option name spellings kind help ∈ parameters := by
  induction tells with
  | nothing => cases member
  | argument word plain rest inductionHypothesis => exact inductionHypothesis member
  | option name spellings kind help spelling value declared spelled plain rest
      inductionHypothesis =>
      rcases List.mem_cons.mp member with same | later
      · cases same
        exact ⟨spellings, kind, help, declared⟩
      · exact inductionHypothesis later
  | flag name spellings help spelling declared spelled rest inductionHypothesis =>
      rcases List.mem_cons.mp member with same | later
      · cases same
      · exact inductionHypothesis later

theorem follow_valuesOf (declared : WellDeclared parameters)
    (tells : Tells parameters words arguments given)
    (taken : Taken parameters workspace arguments given) :
    (valuesOf parameters ⟨givenOf given, arguments⟩).Follow parameters arguments given where
  argument index name kind found := by
    have named : ((argumentsOf parameters).map Prod.fst)[index]? = some name := by
      rw [List.getElem?_map, found]
      rfl
    exact lookup_zip (declared.names.sublist (names_argumentsOf_sublist parameters))
      (by rw [List.length_map, taken.arguments.length_eq]) named
  option_given name spellings kind help value before after _ split last := by
    change Arguments.lastValue? _ name = _
    rw [lastValue?_givenOf, split, List.filter_append, List.filter_cons_of_pos (by simp),
      filter_of_absent last, List.getLast?_concat]
    rfl
  option_left_out name spellings kind help _ absent := by
    change Arguments.lastValue? _ name = _
    rw [lastValue?_givenOf, filter_of_absent absent]
    rfl
  flag name spellings help listed := by
    change Arguments.has _ (some name) = true <-> _
    rw [has_givenOf]
    constructor
    · rintro ⟨⟨other, told⟩, member, same⟩
      cases same
      cases told with
      | none => exact member
      | some value =>
          -- an option of this name would not be told apart from the flag
          rcases tells.declared member with ⟨_, _, _, option⟩
          have clash := List.inj_on_of_nodup_map declared.names listed option rfl
          cases clash
    · exact fun member => ⟨_, member, rfl⟩

end

/-- The front end that runs the program does what the commands rely on. -/
theorem documented_conventional : conventional.Documented where
  reads parameters workspace words arguments given declared tells taken := by
    have noHelp : (Arguments.mk (givenOf given) arguments).has none = false := by
      apply eq_false_of_ne_true
      intro asked
      rcases (has_givenOf none).mp asked with ⟨_, _, same⟩
      cases same
    have options : checkOptions workspace ⟨givenOf given, arguments⟩ parameters = .ok () :=
      checkOptions_of_takes fun name spellings kind help value listed last =>
        taken.options name spellings kind help value listed (mem_of_lastValue? last)
    refine ⟨valuesOf parameters ⟨givenOf given, arguments⟩, ?_,
      follow_valuesOf declared tells taken⟩
    change readConventional parameters workspace words = _
    simp only [readConventional, readArguments_of_tells declared tells, noHelp, Bool.false_eq_true,
      if_false, options, checkPositional_of_takes taken.arguments, bind, Except.bind]
  returned := rfl
  exited _ _ := rfl

end CommandLine
end NibbleMachine
