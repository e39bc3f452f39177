import NibbleMachine.Proofs.Target
import Mathlib.Data.List.Induction

namespace NibbleMachine

/-!
# Labels

A label is a symbol whose value is the number of a source line.  It reaches an
address load by the replacement of texts that defines use as well, so what it
does there depends on the other symbols: each of them is replaced in turn,
wherever it occurs, also in the values put in before.  When no other name occurs
in the tokens of the load, in the label or in its value, the turns of the others
change nothing, and the load names the line of the label.

A name that is declared more than once keeps its place in the table and takes
the value of its last declaration.  The table is described here by that alone;
the place of a name is of no concern, because the other names do not occur.
-/

/-! ## Tables of symbols -/

namespace SymbolTable

theorem mem_keys_insertEntry (name value other : String) (entries : List (String × String)) :
    other ∈ (insertEntry name value entries).map Prod.fst <->
      other = name ∨ other ∈ entries.map Prod.fst := by
  induction entries with
  | nil => simp [insertEntry]
  | cons entry rest inductionHypothesis =>
      unfold insertEntry
      by_cases here : entry.1 = name
      · rw [if_pos here, List.map_cons, List.map_cons, List.mem_cons, List.mem_cons, here]
        simp
      · rw [if_neg here, List.map_cons, List.map_cons, List.mem_cons, List.mem_cons,
          inductionHypothesis]
        exact or_left_comm

theorem nodup_insertEntry (name value : String) {entries : List (String × String)}
    (nodup : (entries.map Prod.fst).Nodup) :
    ((insertEntry name value entries).map Prod.fst).Nodup := by
  induction entries with
  | nil => simp [insertEntry]
  | cons entry rest inductionHypothesis =>
      rw [List.map_cons, List.nodup_cons] at nodup
      unfold insertEntry
      by_cases here : entry.1 = name
      · rw [if_pos here, List.map_cons, List.nodup_cons]
        exact ⟨here ▸ nodup.1, nodup.2⟩
      · rw [if_neg here, List.map_cons, List.nodup_cons, mem_keys_insertEntry]
        refine ⟨?_, inductionHypothesis nodup.2⟩
        rintro (same | later)
        · exact here same
        · exact nodup.1 later

/-- Inserting gives a name its value and keeps those of the others. -/
theorem mem_insertEntry_iff (name value : String) {entries : List (String × String)}
    (nodup : (entries.map Prod.fst).Nodup) (symbol : String × String) :
    symbol ∈ insertEntry name value entries <->
      symbol = (name, value) ∨ symbol.1 ≠ name ∧ symbol ∈ entries := by
  induction entries with
  | nil => simp [insertEntry]
  | cons entry rest inductionHypothesis =>
      rw [List.map_cons, List.nodup_cons] at nodup
      unfold insertEntry
      by_cases here : entry.1 = name
      · have others : forall other, other ∈ rest -> other.1 ≠ name := by
          intro other member same
          apply nodup.1
          rw [here, ← same]
          exact List.mem_map_of_mem member
        rw [if_pos here, List.mem_cons, List.mem_cons]
        constructor
        · rintro (same | later)
          · exact Or.inl same
          · exact Or.inr ⟨others symbol later, Or.inr later⟩
        · rintro (same | ⟨different, same | later⟩)
          · exact Or.inl same
          · exact absurd (same ▸ here) different
          · exact Or.inr later
      · rw [if_neg here, List.mem_cons, List.mem_cons, inductionHypothesis nodup.2]
        constructor
        · rintro (rfl | same | ⟨different, later⟩)
          · exact Or.inr ⟨here, Or.inl rfl⟩
          · exact Or.inl same
          · exact Or.inr ⟨different, Or.inr later⟩
        · rintro (same | ⟨different, rfl | later⟩)
          · exact Or.inr (Or.inl same)
          · exact Or.inl rfl
          · exact Or.inr (Or.inr ⟨different, later⟩)

theorem entries_ofList_concat (declarations : List (String × String)) (last : String × String) :
    (ofList (declarations ++ [last])).entries =
      insertEntry last.1 last.2 (ofList declarations).entries := by
  rw [ofList, List.foldl_append]
  rfl

/-- A table holds a name once. -/
theorem nodup_ofList (declarations : List (String × String)) :
    ((ofList declarations).entries.map Prod.fst).Nodup := by
  induction declarations using List.reverseRecOn with
  | nil => exact List.nodup_nil
  | append_singleton front last inductionHypothesis =>
      rw [entries_ofList_concat]
      exact nodup_insertEntry _ _ inductionHypothesis

theorem mem_keys_ofList (declarations : List (String × String)) (name : String) :
    name ∈ (ofList declarations).entries.map Prod.fst <->
      name ∈ declarations.map Prod.fst := by
  induction declarations using List.reverseRecOn with
  | nil => exact Iff.rfl
  | append_singleton front last inductionHypothesis =>
      rw [entries_ofList_concat, mem_keys_insertEntry, inductionHypothesis, List.map_append,
        List.mem_append, or_comm]
      simp

/-- A table gives a name the value of its last declaration. -/
theorem mem_ofList_iff (declarations : List (String × String)) (symbol : String × String) :
    symbol ∈ (ofList declarations).entries <->
      Exists fun before => Exists fun after =>
        declarations = before ++ symbol :: after ∧
          forall later, later ∈ after -> later.1 ≠ symbol.1 := by
  -- from the end: the declaration added last decides its name and no other
  induction declarations using List.reverseRecOn with
  | nil =>
      constructor
      · intro member
        cases member
      · rintro ⟨before, after, split, -⟩
        cases before <;> cases split
  | append_singleton front last inductionHypothesis =>
      rw [entries_ofList_concat, mem_insertEntry_iff _ _ (nodup_ofList front),
        inductionHypothesis]
      constructor
      · rintro (rfl | ⟨different, before, after, rfl, others⟩)
        · exact ⟨front, [], rfl, fun _ member => nomatch member⟩
        · refine ⟨before, after ++ [last], by simp, ?_⟩
          intro later member
          rcases List.mem_append.mp member with inAfter | isLast
          · exact others later inAfter
          · rw [List.mem_singleton.mp isLast]
            exact Ne.symm different
      · rintro ⟨before, after, split, others⟩
        cases after using List.reverseRecOn with
        | nil =>
            have ends := List.append_inj' split rfl
            exact Or.inl (List.cons.inj ends.2).1.symm
        | append_singleton middle final =>
            rw [← List.cons_append, ← List.append_assoc] at split
            have ends := List.append_inj' split rfl
            have final_eq : last = final := (List.cons.inj ends.2).1
            refine Or.inr ⟨?_, before, middle, ends.1, ?_⟩
            · rw [final_eq]
              exact Ne.symm (others final (List.mem_append_right _ List.mem_cons_self))
            · intro later member
              exact others later (List.mem_append_left _ member)

end SymbolTable

/-! ## Replacement -/

/-- A name stands somewhere in a token. -/
def Occurs (name token : String) : Prop :=
  name.toList <:+: token.toList

instance (name token : String) : Decidable (Occurs name token) :=
  inferInstanceAs (Decidable (name.toList <:+: token.toList))

theorem replaceInToken_of_not_occurs {name token : String} (value : String)
    (absent : ¬ Occurs name token) : replaceInToken name value token = token := by
  have solid : name.toList ≠ [] := by
    intro empty
    refine absurd ?_ absent
    rw [Occurs, empty]
    exact List.nil_infix
  rw [replaceInToken, Text.replace_eq_replaceFrom solid,
    Text.replaceFrom_of_not_infix _ _ _ absent, String.ofList_toList]

theorem replaceInToken_self {name : String} (solid : name ≠ "") (value : String) :
    replaceInToken name value name = value := by
  have characters : name.toList ≠ [] := by simpa using solid
  have whole := Text.replace_name_append characters value.toList []
  rw [List.append_nil, Text.replace_nil characters, List.append_nil] at whole
  rw [replaceInToken, whole, String.ofList_toList]

/-- Symbols that do not occur in a token leave it alone. -/
theorem substituteToken_of_not_occurs {symbols : List (String × String)} {token : String}
    (absent : forall name, name ∈ symbols.map Prod.fst -> ¬ Occurs name token) :
    substituteToken symbols token = token := by
  induction symbols with
  | nil => rfl
  | cons symbol rest inductionHypothesis =>
      have own : replaceInToken symbol.1 symbol.2 token = token :=
        replaceInToken_of_not_occurs _ (absent symbol.1 List.mem_cons_self)
      rw [substituteToken, List.foldl_cons, own]
      exact inductionHypothesis fun name member => absent name (List.mem_cons_of_mem _ member)

/-- A token that is a name becomes its value, when no other name occurs in
either. -/
theorem substituteToken_name {symbols : List (String × String)}
    (nodup : (symbols.map Prod.fst).Nodup) {name value : String}
    (member : (name, value) ∈ symbols) (solid : name ≠ "")
    (others : forall other, other ∈ symbols.map Prod.fst -> other ≠ name ->
      ¬ Occurs other name ∧ ¬ Occurs other value) :
    substituteToken symbols name = value := by
  rcases List.append_of_mem member with ⟨front, back, rfl⟩
  rw [List.map_append, List.map_cons, List.nodup_append, List.nodup_cons] at nodup
  rcases nodup with ⟨-, ⟨notBehind, -⟩, disjoint⟩
  have before : substituteToken front name = name := by
    apply substituteToken_of_not_occurs
    intro other listed
    refine (others other ?_ ?_).1
    · rw [List.map_append]
      exact List.mem_append_left _ listed
    · exact disjoint other listed name List.mem_cons_self
  have after : substituteToken back value = value := by
    apply substituteToken_of_not_occurs
    intro other listed
    refine (others other ?_ ?_).2
    · rw [List.map_append]
      exact List.mem_append_right _ (List.mem_cons_of_mem _ listed)
    · rintro rfl
      exact notBehind listed
  unfold substituteToken at before after ⊢
  rw [List.foldl_append, List.foldl_cons, before, replaceInToken_self solid, after]

/-! ## Declared labels -/

/-- The label that an entry declares, with the number of its line. -/
def Entry.label? (entry : Entry) : Option (String × Nat) :=
  match entry.tokens with
  | ["#label", name] => some (name, entry.number)
  | _ => none

/-- The symbol of a declared label. -/
def labelSymbol (declared : String × Nat) : String × String :=
  (declared.1, Numeral.decimal declared.2)

theorem Entry.label?_eq_some_iff (entry : Entry) (name : String) (number : Nat) :
    entry.label? = some (name, number) <-> entry = ⟨number, ["#label", name]⟩ := by
  rcases entry with ⟨own, tokens⟩
  constructor
  · intro declares
    unfold Entry.label? at declares
    split at declares
    · next same => cases declares; cases same; rfl
    · cases declares
  · intro same
    cases same
    rfl

theorem symbol?_declare_label (entry : Entry) (opened : Directive.label.opens entry.tokens = true) :
    (Directive.label.declare entry.number entry.tokens.tail).symbol? =
      entry.label?.map labelSymbol := by
  rcases entry with ⟨number, tokens⟩
  unfold Directive.opens at opened
  cases tokens with
  | nil => cases opened
  | cons first operands =>
      have keyword : first = Directive.label.keyword := by simpa using opened
      rw [keyword]
      rcases operands with _ | ⟨name, _ | ⟨second, rest⟩⟩
      · rfl
      · rfl
      · rfl

theorem label?_of_not_opens {entry : Entry} (closed : Directive.label.opens entry.tokens = false) :
    entry.label? = none := by
  cases declares : entry.label? with
  | none => rfl
  | some declared =>
      have same := (entry.label?_eq_some_iff declared.1 declared.2).mp declares
      rw [same] at closed
      cases closed

/-- The symbols of the labels are the declared names with their line numbers. -/
theorem symbols_label (entries : List Entry) :
    (Directive.label.declarations entries).filterMap Declaration.symbol? =
      (entries.filterMap Entry.label?).map labelSymbol := by
  unfold Directive.declarations
  induction entries with
  | nil => rfl
  | cons entry rest inductionHypothesis =>
      cases opened : Directive.label.opens entry.tokens with
      | false =>
          rw [List.filter_cons_of_neg (by simp [opened]), inductionHypothesis,
            List.filterMap_cons_none (label?_of_not_opens opened)]
      | true =>
          have own := symbol?_declare_label entry opened
          rw [List.filter_cons_of_pos (by simpa using opened), List.map_cons,
            List.filterMap_cons, List.filterMap_cons, inductionHypothesis, own]
          cases entry.label? <;> rfl

/-- A label has the number of the line of its last declaration as its value. -/
theorem mem_table_label_iff (entries : List Entry) (name value : String) :
    (name, value) ∈ (Directive.label.table entries).entries <->
      Exists fun before => Exists fun number : Nat => Exists fun after =>
        entries = before ++ ⟨number, ["#label", name]⟩ :: after ∧
          value = Numeral.decimal number ∧
          forall later, later ∈ after -> later.tokens ≠ ["#label", name] := by
  unfold Directive.table symbolsOf
  rw [SymbolTable.mem_ofList_iff, symbols_label]
  constructor
  · rintro ⟨front, back, split, others⟩
    rcases List.map_eq_append_iff.mp split with ⟨first, second, declared, rfl, sameBack⟩
    rcases List.map_eq_cons_iff.mp sameBack with ⟨⟨label, number⟩, third, rfl, same, rfl⟩
    cases same
    rcases List.filterMap_eq_append_iff.mp declared with ⟨before, rest, rfl, rfl, tail⟩
    rcases List.filterMap_eq_cons_iff.mp tail with ⟨skipped, entry, after, rfl, -, declares, rfl⟩
    rw [Entry.label?_eq_some_iff] at declares
    refine ⟨before ++ skipped, number, after, by simp [declares], rfl, ?_⟩
    intro later member tokens
    have redeclares : later.label? = some (label, later.number) :=
      (later.label?_eq_some_iff _ _).mpr (congrArg (Entry.mk later.number) tokens)
    refine others (labelSymbol (label, later.number)) ?_ rfl
    exact List.mem_map_of_mem (List.mem_filterMap.mpr ⟨later, member, redeclares⟩)
  · rintro ⟨before, number, after, rfl, rfl, others⟩
    refine ⟨(before.filterMap Entry.label?).map labelSymbol,
      (after.filterMap Entry.label?).map labelSymbol, ?_, ?_⟩
    · have declares : Entry.label? ⟨number, ["#label", name]⟩ = some (name, number) := rfl
      rw [List.filterMap_append, List.filterMap_cons_some declares, List.map_append,
        List.map_cons]
      rfl
    · intro later member same
      rcases List.mem_map.mp member with ⟨⟨label, own⟩, listed, rfl⟩
      rcases List.mem_filterMap.mp listed with ⟨entry, inAfter, declares⟩
      rw [Entry.label?_eq_some_iff] at declares
      apply others entry inAfter
      rw [declares, show label = name from same]

/-! ## The line of a label -/

theorem one_le_of_mem_definedEntries {text : String} {entry : Entry}
    (member : entry ∈ definedEntries text) : 1 ≤ entry.number := by
  have listed : entry.number ∈ (sourceEntries text).map Entry.number :=
    (number_sublist_remaining .define _).subset (List.mem_map_of_mem member)
  exact (number_bounds_sourceEntries listed).1

/-- The line of a label carries no order. -/
theorem number_ne_of_label {text : String} {number : Nat} {tokens : List String}
    (declared : Entry.mk number tokens ∈ definedEntries text)
    (opened : Directive.label.opens tokens = true) {placed : Nat × Order}
    (member : placed ∈ numberedOrders text) : placed.1 ≠ number := by
  -- the order would come from an entry at the number of the label that is no label
  intro same
  rcases (mem_numberedOrders_iff text placed.1 placed.2).mp member with
    ⟨entry, listed, sameNumber, -⟩
  rcases List.mem_map.mp listed with ⟨source, kept, rfl⟩
  rcases List.mem_filter.mp kept with ⟨inDefined, closed⟩
  have own : source = ⟨number, tokens⟩ :=
    eq_of_number_eq (number_increases_definedEntries text) inDefined declared
      (sameNumber.trans same)
  rw [own, opened] at closed
  cases closed

/-- What a written line number leads to, when no valid line has it: the place behind
the lines before it, or nowhere if no line follows. -/
theorem leads_of_outcome {numbers : List Nat} {number : Nat} (positive : 1 ≤ number)
    (elsewhere : forall other, other ∈ numbers -> other ≠ number) {position : Nat}
    {problems : List Problem}
    (outcome : TargetOutcome numbers (Numeral.decimal number) position problems) :
    ((Exists fun follower => follower ∈ numbers ∧ number < follower) ->
      position = numbers.countP fun other => other < number) ∧
      ((forall other, other ∈ numbers -> other ≤ number) ->
        position = 0 ∧ problems = [.noLineLeft]) := by
  cases outcome with
  | form malformed => exact absurd (Numeral.signedDigits_decimal number) (malformed _)
  | sign numeral written low =>
      rw [Numeral.value_of_signedDigits_decimal written] at low
      omega
  | past numeral written _ behind =>
      rw [Numeral.value_of_signedDigits_decimal written] at behind
      refine ⟨?_, fun _ => ⟨rfl, rfl⟩⟩
      rintro ⟨follower, listed, follows⟩
      have short := behind follower listed
      omega
  | found numeral written _ ahead _ place =>
      rw [Numeral.value_of_signedDigits_decimal written] at ahead place
      constructor
      · intro _
        rw [place]
        apply List.countP_congr
        intro other _
        simp
      · intro behind
        rcases ahead with ⟨other, listed, above⟩
        have low := behind other listed
        have different := elsewhere other listed
        omega

theorem exists_line_of_mem_numberedOrders {text : String} {assembly : Assembly}
    (returned : assemble text = .ok assembly) {number : Nat} {order : Order}
    (member : (number, order) ∈ numberedOrders text) :
    Exists fun line =>
      line ∈ validLines assembly.lines ∧ line.number = number ∧ line.order = some order := by
  have listed : (number, some order) ∈ (validLines assembly.lines).map Line.numbered := by
    rw [numbered_lines_orders returned]
    exact List.mem_map_of_mem (f := fun placed : Nat × Order => (placed.1, some placed.2)) member
  rcases List.mem_map.mp listed with ⟨line, valid, same⟩
  exact ⟨line, valid, congrArg Prod.fst same, congrArg Prod.snd same⟩

theorem labels_eq {text : String} {assembly : Assembly}
    (returned : assemble text = .ok assembly) :
    assembly.labels = Directive.label.table (definedEntries text) := by
  rcases (assemble_eq_ok_iff text assembly).mp returned with ⟨steps, -, rfl⟩
  rfl

/-- An address load of a label is an order to load the line of the label. -/
theorem mem_numberedOrders_of_label {text label target : String} {number : Nat}
    (declares : (label, Numeral.decimal number) ∈
      (Directive.label.table (definedEntries text)).entries)
    {entry : Entry} (member : entry ∈ definedEntries text)
    (loads : entry.tokens = ["la", target, label])
    (apart : ¬ Occurs label "la" ∧ ¬ Occurs label target)
    (others : forall other,
      other ∈ (Directive.label.table (definedEntries text)).entries.map Prod.fst ->
      other ≠ label ->
        ¬ Occurs other "la" ∧ ¬ Occurs other target ∧ ¬ Occurs other label ∧
          ¬ Occurs other (Numeral.decimal number)) :
    (entry.number, Order.mk .loadAddress [target, Numeral.decimal number]) ∈
      numberedOrders text := by
  have solid : label ≠ "" := by
    rintro rfl
    exact apart.1 List.nil_infix
  have free : forall token, ¬ Occurs label token ->
      (forall other, other ∈ (Directive.label.table (definedEntries text)).entries.map Prod.fst ->
        other ≠ label -> ¬ Occurs other token) ->
      substituteToken (Directive.label.table (definedEntries text)).entries token = token := by
    intro token own foreign
    apply substituteToken_of_not_occurs
    intro name listed
    by_cases same : name = label
    · exact same ▸ own
    · exact foreign name listed same
  have command := free "la" apart.1 fun other listed different =>
    (others other listed different).1
  have register := free target apart.2 fun other listed different =>
    (others other listed different).2.1
  have address : substituteToken (Directive.label.table (definedEntries text)).entries label =
      Numeral.decimal number := by
    apply substituteToken_name (SymbolTable.nodup_ofList _) declares solid
    intro other listed different
    exact (others other listed different).2.2
  have kept : Entry.substituted (Directive.label.table (definedEntries text)).entries entry ∈
      commandEntries text := by
    apply List.mem_map_of_mem
    refine List.mem_filter.mpr ⟨member, ?_⟩
    rw [loads]
    rfl
  refine (mem_numberedOrders_iff _ _ _).mpr ⟨_, kept, rfl, ?_⟩
  rw [Entry.substituted, loads, List.map_cons, List.map_cons, List.map_cons, command, register,
    address]
  exact orderOf_tokens ⟨.loadAddress, [target, Numeral.decimal number]⟩

/-- An address load of a label leads to the line of the label's last declaration,
on whichever side of it the load stands.  No other declaration of the label
matters, as long as no other label interferes: neither the tokens of the load
nor the line number may contain the name of one. -/
theorem label_load_leads_to_last_declaration (text : String) (assembly : Assembly)
    (returned : assemble text = .ok assembly) (label : String) (number : Nat)
    (before after : List Entry)
    (declared : definedEntries text = before ++ ⟨number, ["#label", label]⟩ :: after)
    (last : forall later, later ∈ after -> later.tokens ≠ ["#label", label])
    (entry : Entry) (member : entry ∈ definedEntries text) (target : String)
    (loads : entry.tokens = ["la", target, label])
    (apart : ¬ Occurs label "la" ∧ ¬ Occurs label target)
    (others : forall other, other ∈ assembly.labels.entries.map Prod.fst -> other ≠ label ->
      ¬ Occurs other "la" ∧ ¬ Occurs other target ∧ ¬ Occurs other label ∧
        ¬ Occurs other (Numeral.decimal number)) :
    Exists fun line =>
      line ∈ validLines assembly.lines ∧ line.number = entry.number ∧
        line.order = some ⟨.loadAddress, [target, Numeral.decimal number]⟩ ∧
        ((Exists fun follower => follower ∈ validLines assembly.lines ∧ number < follower.number) ->
          line.nibbles.map Nibbles.lastByte =
            some ((validLines assembly.lines).countP (fun other => other.number < number) % 256)) ∧
        ((forall other, other ∈ validLines assembly.lines -> other.number ≤ number) ->
          assembly.targetProblemsAt line.number = [.noLineLeft] ∧
            line.nibbles.map Nibbles.lastByte = some 0) := by
  have inDefined : Entry.mk number ["#label", label] ∈ definedEntries text := by
    rw [declared]
    exact List.mem_append_right _ List.mem_cons_self
  have declares : (label, Numeral.decimal number) ∈
      (Directive.label.table (definedEntries text)).entries :=
    (mem_table_label_iff _ _ _).mpr ⟨before, number, after, declared, rfl, last⟩
  rw [labels_eq returned] at others
  have ordered := mem_numberedOrders_of_label declares member loads apart others
  rcases exists_line_of_mem_numberedOrders returned ordered with ⟨line, valid, same, carries⟩
  refine ⟨line, valid, same, carries, ?_⟩
  have elsewhere : forall other, other ∈ (validLines assembly.lines).map Line.number ->
      other ≠ number := by
    intro other listed
    rw [map_number_lines returned] at listed
    rcases List.mem_map.mp listed with ⟨placed, inOrders, rfl⟩
    exact number_ne_of_label inDefined rfl inOrders
  rcases encoded_addressLoad returned valid carries with
    ⟨position, problems, outcome, recorded, nibbles, -⟩
  have leads := leads_of_outcome (one_le_of_mem_definedEntries inDefined) elsewhere outcome
  rw [nibbles, Option.map_some, lastByte_byteCommand, recorded]
  constructor
  · rintro ⟨follower, listed, follows⟩
    rw [leads.1 ⟨follower.number, List.mem_map_of_mem listed, follows⟩, List.countP_map]
    rfl
  · intro behind
    have nowhere : position = 0 ∧ problems = [.noLineLeft] := by
      apply leads.2
      intro other listed
      rcases List.mem_map.mp listed with ⟨line, inLines, rfl⟩
      exact behind line inLines
    rw [nowhere.1]
    exact ⟨nowhere.2, rfl⟩

/-- A load before both declarations of its label leads behind the second. -/
theorem label_load_leads_to_last_declaration_of_sample :
    Exists fun assembly => Exists fun line =>
      assemble "la r1,t\n#label t\nli r2,1\n#label t\nli r3,2\n#label e" =
          .ok assembly ∧
        line ∈ validLines assembly.lines ∧
        line.order = some ⟨.loadAddress, ["r1", "4"]⟩ ∧
        line.nibbles.map Nibbles.lastByte = some 2 := by
  rcases exists_assembly_of_map
    "la r1,t\n#label t\nli r2,1\n#label t\nli r3,2\n#label e"
    (fun assembly => (assembly.labels.entries.map Prod.fst,
      (validLines assembly.lines).map Line.number))
    (show _ = some (["t", "e"], [1, 3, 5]) by decide +kernel)
    with ⟨assembly, returned, read⟩
  have names : assembly.labels.entries.map Prod.fst = ["t", "e"] := congrArg Prod.fst read
  have numbers : (validLines assembly.lines).map Line.number = [1, 3, 5] := congrArg Prod.snd read
  have split : definedEntries
      "la r1,t\n#label t\nli r2,1\n#label t\nli r3,2\n#label e" =
        [⟨1, ["la", "r1", "t"]⟩, ⟨2, ["#label", "t"]⟩, ⟨3, ["li", "r2", "1"]⟩] ++
          ⟨4, ["#label", "t"]⟩ :: [⟨5, ["li", "r3", "2"]⟩, ⟨6, ["#label", "e"]⟩] := by
    decide +kernel
  have others : forall other, other ∈ assembly.labels.entries.map Prod.fst -> other ≠ "t" ->
      ¬ Occurs other "la" ∧ ¬ Occurs other "r1" ∧ ¬ Occurs other "t" ∧
        ¬ Occurs other (Numeral.decimal (4 : Nat)) := by
    rw [names]
    decide +kernel
  rcases label_load_leads_to_last_declaration _ assembly returned "t" 4 _ _ split
    (by decide +kernel) ⟨1, ["la", "r1", "t"]⟩ (by rw [split]; exact List.mem_cons_self)
    "r1" rfl (by decide +kernel) others with ⟨line, valid, -, ordered, leads, -⟩
  have follower : (5 : Nat) ∈ (validLines assembly.lines).map Line.number := by
    rw [numbers]
    decide
  rcases List.mem_map.mp follower with ⟨next, inLines, fifth⟩
  have place : (validLines assembly.lines).countP (fun other => other.number < 4) = 2 :=
    calc
      (validLines assembly.lines).countP (fun other => other.number < 4)
          = ((validLines assembly.lines).map Line.number).countP (fun other => other < 4) := by
        rw [List.countP_map]
        rfl
      _ = 2 := by
        rw [numbers]
        decide
  refine ⟨assembly, line, returned, valid, ?_, ?_⟩
  · rw [ordered]
    decide +kernel
  · rw [leads ⟨next, inLines, by rw [fifth]; decide⟩, place]

end NibbleMachine
