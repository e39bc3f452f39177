import NibbleMachine.Proofs.Program
import NibbleMachine.Proofs.Target

namespace NibbleMachine

/-!
# Assembling a listing

The listing of an assembly shows the orders that were encoded, one to a line:
symbols have been replaced and abbreviations expanded.  Only an address load is
not shown as it was written.  Its operand was the number of a source line, and
what is shown is the byte it was encoded with.

A listing of an assembly without problems is again a program.  Read as an
immediate load, an address load that was encoded stands for the same word
wherever it is, so the listing with its loads renamed is assembled to the same
image and is its own listing.  Left as it is, the shown byte is taken for a line
number.  A listing has no blank lines, so line `n` of it is at position `n - 1`
and no address load is encoded with the byte that it shows.
-/

/-! ## What a listing shows -/

/-- The order that a line shows once it has been encoded. -/
def Order.shown (lines : List Line) (order : Order) : Order :=
  match order with
  | ⟨.loadAddress, [target, operand]⟩ =>
      match resolveTarget lines operand with
      | .ok resolved => ⟨.loadAddress, [target, Numeral.decimal resolved.1]⟩
      | .error _ => order
  | _ => order

theorem Order.shown_of_not_load (lines : List Line) {order : Order}
    (other : forall target operand, order ≠ ⟨.loadAddress, [target, operand]⟩) :
    order.shown lines = order := by
  unfold Order.shown
  split
  · next target operand => exact absurd rfl (other target operand)
  · rfl

theorem Order.shown_of_load {lines : List Line} {operand : String} {value : Int}
    {problems : List Problem} (resolves : resolveTarget lines operand = .ok (value, problems))
    (target : String) :
    Order.shown lines ⟨.loadAddress, [target, operand]⟩ =
      ⟨.loadAddress, [target, Numeral.decimal value]⟩ := by
  simp only [Order.shown, resolves]

/-- The tokens of an encoded line are those of the order it shows. -/
theorem showResolved_eq {lines : List Line} {order : Order} {encoding : Encoding}
    (encoded : encodeOrder lines order = .ok encoding) :
    showResolved (some order.tokens) encoding.resolved =
      .ok (some (order.shown lines).tokens) := by
  by_cases loads : Exists fun target => Exists fun operand =>
      order = ⟨.loadAddress, [target, operand]⟩
  · rcases loads with ⟨target, operand, rfl⟩
    rw [encodeOrder_loadAddress] at encoded
    rcases exists_of_map_eq_ok encoded with ⟨result, resolves, rfl⟩
    rw [Order.shown_of_load resolves]
    rfl
  · have other : forall target operand, order ≠ ⟨.loadAddress, [target, operand]⟩ :=
      fun target operand same => loads ⟨target, operand, same⟩
    rw [Order.shown_of_not_load lines other]
    cases resolved : encoding.resolved with
    | none => rfl
    | some value => exact absurd (loadAddress_of_resolved encoded resolved) loads

theorem listing_of_tokens {lines : List Line} {rows : List (List String)}
    (tokens : (validLines lines).map Line.tokens = rows.map some) :
    listing lines = .ok (rows.map (String.intercalate " ")) := by
  unfold listing
  generalize validLines lines = shown at tokens
  induction shown generalizing rows with
  | nil =>
      cases rows with
      | nil => rfl
      | cons row others => cases tokens
  | cons line rest inductionHypothesis =>
      cases rows with
      | nil => cases tokens
      | cons row others =>
          rw [List.map_cons, List.map_cons, List.cons.injEq] at tokens
          rw [List.mapM_cons, inductionHypothesis tokens.2, tokens.1]
          rfl

/-- The orders that the listing of a text shows. -/
def shownOrders (text : String) : List Order :=
  (commandOrders text).map (Order.shown (placedLines text))

section

variable {text : String} {assembly : Assembly}

/-- The valid lines of an assembly end with the tokens of the orders that are shown. -/
theorem tokens_lines (returned : assemble text = .ok assembly) :
    (validLines assembly.lines).map Line.tokens =
      ((shownOrders text).map Order.tokens).map some := by
  rw [shownOrders, List.map_map, List.map_map]
  apply map_lines_of_orders returned
  intro line order member ordered
  rcases encoded_of_mem_lines returned member ordered with ⟨encoding, encoded, shown, -⟩
  rw [showResolved_eq encoded] at shown
  exact (Except.ok.inj shown).symm

/-- The listing of an assembly shows the orders of its text. -/
theorem listing_eq (returned : assemble text = .ok assembly) :
    listing assembly.lines = .ok ((shownOrders text).map Order.text) := by
  rw [listing_of_tokens (tokens_lines returned), List.map_map]
  rfl

/-- In an assembly without findings all orders are encoded without a problem, and
there is room for them. -/
theorem clear_of_findings_eq_nil (returned : assemble text = .ok assembly)
    (none : assembly.findings = []) :
    (forall order, order ∈ commandOrders text ->
      Exists fun encoding => ClearEncoding (placedLines text) order encoding) ∧
      (commandOrders text).length ≤ 256 := by
  rcases (findings_eq_nil_iff returned).mp none with ⟨-, -, commands, short⟩
  constructor
  · intro order member
    rw [← map_snd_numberedOrders] at member
    rcases List.mem_map.mp member with ⟨⟨number, carried⟩, listed, rfl⟩
    rcases (mem_numberedOrders_iff _ _ _).mp listed with ⟨entry, inEntries, -, ordered⟩
    rcases commands entry inEntries with ⟨other, encoding, alsoOrdered, clear⟩
    rw [ordered] at alsoOrdered
    cases alsoOrdered
    exact ⟨encoding, clear⟩
  · exact Nat.le_trans (List.length_filterMap_le _ _) short

end

/-! ## Tokens of a listing -/

theorem Order.isClean_of_operands {order : Order}
    (plain : forall operand, operand ∈ order.operands -> IsPlainToken operand) :
    order.IsClean := by
  intro token member
  rcases List.mem_cons.mp member with rfl | inOperands
  · exact order.command.isPlainToken_mnemonic.isCleanToken
  · exact (plain token inOperands).isCleanToken

/-- The order of a line without a problem is shown in clean tokens. -/
theorem ClearEncoding.isClean_shown {lines : List Line} {order : Order} {encoding : Encoding}
    (clear : ClearEncoding lines order encoding) : (order.shown lines).IsClean := by
  cases clear with
  | calculate op target left right =>
      apply Order.isClean_of_operands
      simp [Order.shown, isPlainToken_registerText]
  | immediate op target numeral value reads =>
      have plain := isPlainToken_of_read ((immediateOperand_eq_clear_iff _ _).mp reads).1
      apply Order.isClean_of_operands
      simp [Order.shown, isPlainToken_registerText, plain]
  | memory op target address =>
      apply Order.isClean_of_operands
      simp [Order.shown, isPlainToken_registerText, memoryText, isPlainToken_bracketed]
  | loadAddress target operand value resolves =>
      rw [Order.shown_of_load resolves]
      apply Order.isClean_of_operands
      simp [isPlainToken_registerText, isPlainToken_decimal]

/-! ## Renamed loads -/

/-- An order, with an address load taken for an immediate load. -/
def Order.asImmediate : Order -> Order
  | ⟨.loadAddress, operands⟩ => ⟨.immediate .li, operands⟩
  | order => order

/-- A line of a listing, with an address load renamed to an immediate load. -/
def renameLoad (entry : String) : String :=
  match tokensOf entry with
  | "la" :: operands => String.intercalate " " ("li" :: operands)
  | _ => entry

theorem Order.asImmediate_ne_load (order : Order) (target operand : String) :
    order.asImmediate ≠ ⟨.loadAddress, [target, operand]⟩ := by
  rcases order with ⟨command, operands⟩
  cases command <;> simp [Order.asImmediate]

theorem Order.IsClean.asImmediate {order : Order} (cleaned : order.IsClean) :
    order.asImmediate.IsClean := by
  rcases order with ⟨command, operands⟩
  cases command with
  | loadAddress =>
      intro token member
      rcases List.mem_cons.mp member with rfl | inOperands
      · exact (Command.immediate .li).isPlainToken_mnemonic.isCleanToken
      · exact cleaned token (List.mem_cons_of_mem _ inOperands)
  | calculate op => exact cleaned
  | immediate op => exact cleaned
  | memory op => exact cleaned

theorem renameLoad_text {order : Order} (cleaned : order.IsClean) :
    renameLoad order.text = order.asImmediate.text := by
  have cut : tokensOf order.text = order.command.mnemonic :: order.operands :=
    tokensOf_joined fun token member => (cleaned token member).isSolidToken
  rcases order with ⟨command, operands⟩
  have others : command.mnemonic = "la" -> command = .loadAddress := by
    intro named
    have found := Command.ofMnemonic?_mnemonic command
    rw [named, show Command.ofMnemonic? "la" = some .loadAddress by decide] at found
    exact (Option.some.inj found).symm
  rw [renameLoad, cut]
  split
  · next heading =>
      cases others (List.cons.inj heading).1
      rw [← (List.cons.inj heading).2]
      rfl
  · next heading =>
      cases command with
      | loadAddress => exact absurd rfl (heading operands)
      | calculate op => rfl
      | immediate op => rfl
      | memory op => rfl

/-- The bytes of an address load make it an immediate load, wherever it stands. -/
theorem ClearEncoding.asImmediate {lines : List Line} {order : Order} {encoding : Encoding}
    (clear : ClearEncoding lines order encoding) (others : List Line) :
    ClearEncoding others (order.shown lines).asImmediate ⟨encoding.nibbles, [], none⟩ := by
  cases clear with
  | calculate op target left right => exact .calculate op target left right
  | immediate op target numeral value reads => exact .immediate op target numeral value reads
  | memory op target address => exact .memory op target address
  | loadAddress target operand value resolves =>
      rcases (resolveTarget_eq_clear_iff _ _ _).mp resolves with ⟨-, line, -, -, -, rfl⟩
      rw [Order.shown_of_load resolves]
      exact .immediate .li target _ _ (immediateOperand_signedByte _)

/-- Orders that are encoded with the same nibbles have the same word. -/
theorem orderWord_eq_of_clear {lines others : List Line} {order other : Order}
    {encoding : Encoding} {resolved : Option Int} (clear : ClearEncoding lines order encoding)
    (same : ClearEncoding others other ⟨encoding.nibbles, [], resolved⟩) :
    orderWord others other = orderWord lines order := by
  rw [orderWord, orderWord, encodeOrder_of_clear clear, encodeOrder_of_clear same]

theorem Order.asImmediate_of_ne {order : Order} (other : order.command ≠ .loadAddress) :
    order.asImmediate = order := by
  rcases order with ⟨command, operands⟩
  cases command with
  | loadAddress => exact absurd rfl other
  | calculate op => rfl
  | immediate op => rfl
  | memory op => rfl

section

variable {text : String} {assembly : Assembly} (returned : assemble text = .ok assembly)
  (unreported : assembly.findings = [])

include returned unreported

/-- A shown order comes from one that was encoded without a problem. -/
theorem exists_clear_of_mem_shownOrders {order : Order} (member : order ∈ shownOrders text) :
    Exists fun written => Exists fun encoding =>
      order = written.shown (placedLines text) ∧
        ClearEncoding (placedLines text) written encoding := by
  rcases List.mem_map.mp member with ⟨written, listed, rfl⟩
  rcases (clear_of_findings_eq_nil returned unreported).1 written listed with ⟨encoding, clear⟩
  exact ⟨written, encoding, rfl, clear⟩

theorem isClean_of_mem_shownOrders {order : Order} (member : order ∈ shownOrders text) :
    order.IsClean := by
  rcases exists_clear_of_mem_shownOrders returned unreported member with
    ⟨written, encoding, rfl, clear⟩
  exact clear.isClean_shown

theorem length_shownOrders : (shownOrders text).length ≤ 256 := by
  rw [shownOrders, List.length_map]
  exact (clear_of_findings_eq_nil returned unreported).2

theorem map_renameLoad :
    ((shownOrders text).map Order.text).map renameLoad =
      ((shownOrders text).map Order.asImmediate).map Order.text := by
  rw [List.map_map, List.map_map]
  apply List.map_congr_left
  intro order member
  exact renameLoad_text (isClean_of_mem_shownOrders returned unreported member)

/-- The words of the renamed listing are those of the assembly, whatever lines
they are encoded among. -/
theorem map_orderWord_asImmediate (others : List Line) :
    ((shownOrders text).map Order.asImmediate).map (orderWord others) =
      (commandOrders text).map (orderWord (placedLines text)) := by
  rw [shownOrders, List.map_map, List.map_map]
  apply List.map_congr_left
  intro order member
  rcases (clear_of_findings_eq_nil returned unreported).1 order member with ⟨encoding, clear⟩
  exact orderWord_eq_of_clear clear (clear.asImmediate others)

/-- The renamed listing is assembled to the same image and is its own listing. -/
theorem assemble_asImmediate :
    Exists fun again =>
      assemble (programText ((shownOrders text).map Order.asImmediate)) = .ok again ∧
        again.findings = [] ∧ again.image = assembly.image ∧
        listing again.lines = .ok (((shownOrders text).map Order.asImmediate).map Order.text) := by
  have cleaned : forall order, order ∈ (shownOrders text).map Order.asImmediate ->
      order.IsClean := by
    intro order member
    rcases List.mem_map.mp member with ⟨shown, listed, rfl⟩
    exact (isClean_of_mem_shownOrders returned unreported listed).asImmediate
  have clear : forall others order, order ∈ (shownOrders text).map Order.asImmediate ->
      Exists fun encoding => ClearEncoding others order encoding := by
    intro others order member
    rcases List.mem_map.mp member with ⟨shown, listed, rfl⟩
    rcases exists_clear_of_mem_shownOrders returned unreported listed with
      ⟨written, encoding, rfl, isClear⟩
    exact ⟨_, isClear.asImmediate others⟩
  rcases exists_assembly_programText cleaned fun order member =>
    (clear _ order member).imp fun _ => encodeOrder_of_clear with ⟨again, reassembled⟩
  refine ⟨again, reassembled, ?_, ?_, ?_⟩
  · apply (findings_programText_eq_nil_iff cleaned reassembled).mpr
    refine ⟨clear _, ?_⟩
    rw [List.length_map]
    exact length_shownOrders returned unreported
  · rw [image_eq_buildImage reassembled, image_eq_buildImage returned, buildImage_eq, buildImage_eq,
      programWords_eq reassembled, programWords_eq returned, commandOrders_programText cleaned,
      map_orderWord_asImmediate returned unreported]
  · -- nothing is left in it that would be shown otherwise than it is written
    rw [listing_eq reassembled, shownOrders, commandOrders_programText cleaned, List.map_map]
    apply congrArg Except.ok
    apply List.map_congr_left
    intro order member
    rcases List.mem_map.mp member with ⟨shown, -, rfl⟩
    rw [Function.comp, Order.shown_of_not_load _ shown.asImmediate_ne_load]

end

/-- The listing of an assembly without problems, with its address loads renamed to
immediate loads, is assembled without problems to the same image, and it is its
own listing. -/
theorem reassembly_with_immediate_loads (text : String) (assembly : Assembly)
    (returned : assemble text = .ok assembly) (unreported : assembly.diagnostics.count = 0) :
    Exists fun listed => Exists fun again =>
      listing assembly.lines = .ok listed ∧
        assemble (String.intercalate "\n" (listed.map renameLoad)) = .ok again ∧
        again.diagnostics.count = 0 ∧ again.image = assembly.image ∧
        listing again.lines = .ok (listed.map renameLoad) := by
  rw [assembly.count_eq_zero_iff] at unreported
  rcases assemble_asImmediate returned unreported with
    ⟨again, reassembled, noFindings, image, relisted⟩
  refine ⟨(shownOrders text).map Order.text, again, listing_eq returned, ?_,
    again.count_eq_zero_iff.mpr noFindings, image, ?_⟩
  · rw [map_renameLoad returned unreported]
    exact reassembled
  · rw [map_renameLoad returned unreported]
    exact relisted

/-- A define, a label, an abbreviation, a hexadecimal immediate and a load of an
address behind a comment. -/
theorem reassembly_with_immediate_loads_of_sample :
    Exists fun assembly => Exists fun again =>
      assemble "#define k R2\nLA k, t // x\naddi k,0x10\n#label t\nneg k, r1" = .ok assembly ∧
        listing assembly.lines = .ok ["la r2 2", "addi r2 0x10", "sub r2 r0 r1"] ∧
        assemble "li r2 2\naddi r2 0x10\nsub r2 r0 r1" = .ok again ∧
        again.diagnostics.count = 0 ∧ again.image = assembly.image ∧
        listing again.lines = .ok ["li r2 2", "addi r2 0x10", "sub r2 r0 r1"] := by
  rcases exists_assembly_of_map "#define k R2\nLA k, t // x\naddi k,0x10\n#label t\nneg k, r1"
    (fun assembly => (assembly.diagnostics.count, (listing assembly.lines).toOption))
    (show _ = some (0, some ["la r2 2", "addi r2 0x10", "sub r2 r0 r1"]) by decide +kernel) with
    ⟨assembly, returned, read⟩
  rw [Prod.mk.injEq] at read
  rcases reassembly_with_immediate_loads _ assembly returned read.1 with
    ⟨listed, again, listsAs, reassembled, count, image, relisted⟩
  rw [listsAs] at read
  cases Option.some.inj read.2
  have renamed : ["la r2 2", "addi r2 0x10", "sub r2 r0 r1"].map renameLoad =
      ["li r2 2", "addi r2 0x10", "sub r2 r0 r1"] := by decide +kernel
  rw [renamed] at reassembled relisted
  have joined : String.intercalate "\n" ["li r2 2", "addi r2 0x10", "sub r2 r0 r1"] =
      "li r2 2\naddi r2 0x10\nsub r2 r0 r1" := by decide +kernel
  rw [joined] at reassembled
  exact ⟨assembly, again, returned, listsAs, reassembled, count, image, relisted⟩

/-! ## Loads left as they are -/

theorem Order.command_shown (lines : List Line) (order : Order) :
    (order.shown lines).command = order.command := by
  unfold Order.shown
  split
  · split
    · rfl
    · rfl
  · rfl

theorem exists_targetLine_decimal {value : Int} (writable : Numeral.isWritable value = true) :
    Exists fun result => targetLine (Numeral.decimal value) = .ok result := by
  have recognised := (Numeral.ofText?_eq_some_iff _ _).mpr (Numeral.signedDigits_decimal value)
  have readable : Numeral.Decimal.isReadable
      ⟨decide (value < 0), Nat.toDigits 10 value.natAbs⟩ = true :=
    decide_eq_true
      (Numeral.length_toDigits_le (by decide) (Numeral.natAbs_lt_of_isWritable writable))
  unfold targetLine
  rw [recognised]
  simp only [readable, Bool.not_true, Bool.false_eq_true, if_false]
  split
  · exact ⟨_, rfl⟩
  · exact ⟨_, rfl⟩

/-- A shown order can be encoded wherever there are lines, with or without problems. -/
theorem ClearEncoding.exists_encodeOrder_shown {lines others : List Line} {order : Order}
    {encoding : Encoding} (clear : ClearEncoding lines order encoding) (occupied : others ≠ []) :
    Exists fun again => encodeOrder others (order.shown lines) = .ok again := by
  cases clear with
  | calculate op target left right =>
      exact ⟨_, encodeOrder_of_clear (.calculate op target left right)⟩
  | immediate op target numeral value reads =>
      exact ⟨_, encodeOrder_of_clear (.immediate op target numeral value reads)⟩
  | memory op target address => exact ⟨_, encodeOrder_of_clear (.memory op target address)⟩
  | loadAddress target operand value resolves =>
      rcases (resolveTarget_eq_clear_iff _ _ _).mp resolves with ⟨-, line, -, -, -, rfl⟩
      have bounds := signedByte_bounds (line.position.getD 0)
      rcases exists_targetLine_decimal (Numeral.isWritable_of_signedByte bounds.1 bounds.2) with
        ⟨⟨number, problems⟩, named⟩
      rcases exists_targetPosition occupied number with ⟨⟨position, placeProblems⟩, lands⟩
      rw [Order.shown_of_load resolves]
      exact ⟨_, encodeOrder_of_encodedAs
        (.loadAddress _ _ _ _ (resolveTarget_of_landing named lands))⟩

/-- A load that is encoded without a problem is encoded with a signed byte. -/
theorem ClearEncoding.of_load {lines : List Line} {operands : List String} {encoding : Encoding}
    (clear : ClearEncoding lines ⟨.loadAddress, operands⟩ encoding) :
    Exists fun target : Register => Exists fun operand => Exists fun value =>
      operands = [Instruction.registerText target.toNibble, operand] ∧
        resolveTarget lines operand = .ok (value, []) ∧
        signedByte (orderWord lines ⟨.loadAddress, operands⟩) = value := by
  have encoded := encodeOrder_of_clear clear
  generalize shape : Order.mk .loadAddress operands = order at clear
  cases clear with
  | loadAddress target operand value resolves =>
      cases shape
      refine ⟨target, operand, value, rfl, resolves, ?_⟩
      rcases (resolveTarget_eq_clear_iff _ _ _).mp resolves with ⟨-, line, -, -, -, rfl⟩
      have bounds := signedByte_bounds (line.position.getD 0)
      rw [orderWord, encoded]
      exact signedByte_byteCommand _ _ bounds.1 bounds.2
  | _ => cases shape

theorem countP_lt_range' (count : Nat) {number : Int} (positive : 0 < number) :
    ((List.range' 1 count).countP fun other : Nat => (other : Int) < number) =
      min (number.toNat - 1) count := by
  induction count with
  | zero => simp
  | succ smaller inductionHypothesis =>
      rw [List.range'_1_concat, List.countP_append, inductionHypothesis]
      by_cases below : ((1 + smaller : Nat) : Int) < number
      · rw [List.countP_singleton, if_pos (decide_eq_true below)]
        omega
      · rw [List.countP_singleton, if_neg (by simpa using below)]
        omega

/-- In a program, a line number leads to the position before it. -/
theorem value_of_resolveTarget_programText {orders : List Order}
    (cleaned : forall order, order ∈ orders -> order.IsClean) {number value : Int}
    (resolves : resolveTarget (placedLines (programText orders)) (Numeral.decimal number) =
      .ok (value, [])) : value = signedByte (number - 1) := by
  rcases (resolveTarget_eq_clear_iff _ _ _).mp resolves with
    ⟨named, line, reads, found, -, rfl⟩
  rcases (targetLine_eq_clear_iff _ _).mp reads with ⟨numeral, recognised, -, rfl, positive⟩
  rw [Numeral.value_of_signedDigits_decimal ((Numeral.ofText?_eq_some_iff _ _).mp recognised)]
    at found positive
  have lands : landing (List.range' 1 orders.length) number = (line.position.getD 0, []) := by
    have occupied := numberedOrders_ne_nil (mem_validLines_of_nextValid? found)
    have closed := targetPosition_placedLines occupied positive
    rw [map_fst_numberedOrders_programText cleaned] at closed
    unfold targetPosition at closed
    rw [found] at closed
    exact (Except.ok.inj closed).symm
  rcases landing_eq (List.range' 1 orders.length) number with
    ⟨-, missed⟩ | ⟨⟨other, listed, above⟩, counted⟩
  · rw [missed] at lands
    cases congrArg Prod.snd lands
  · rw [counted, countP_lt_range' _ positive] at lands
    have position : min (number.toNat - 1) orders.length = line.position.getD 0 :=
      congrArg Prod.fst lands
    have within := List.mem_range'_1.mp listed
    have place : ((line.position.getD 0 : Nat) : Int) = number - 1 := by omega
    rw [place]

theorem signedByte_sub_one_ne (value : Int) : signedByte (value - 1) ≠ value := by
  unfold signedByte
  split
  · omega
  · omega

section

variable {text : String} {assembly again : Assembly} (returned : assemble text = .ok assembly)
  (unreported : assembly.findings = [])
  (reassembled : assemble (programText (shownOrders text)) = .ok again)

include returned unreported reassembled

/-- With the image, a listing that is assembled again keeps the word of every
order. -/
theorem orderWord_shown_of_image (same : again.image = assembly.image) {order : Order}
    (member : order ∈ commandOrders text) :
    orderWord (placedLines (programText (shownOrders text))) (order.shown (placedLines text)) =
      orderWord (placedLines text) order := by
  have cleaned : forall order, order ∈ shownOrders text -> order.IsClean :=
    fun _ => isClean_of_mem_shownOrders returned unreported
  have short := (clear_of_findings_eq_nil returned unreported).2
  rcases List.mem_iff_getElem?.mp member with ⟨index, found⟩
  have inside := (List.getElem?_eq_some_iff.mp found).1
  have within : index < imageSize := Nat.lt_of_lt_of_le inside short
  have here := congrArg (fun image => image[index]?) same
  rw [image_eq_buildImage reassembled, image_eq_buildImage returned, buildImage_eq, buildImage_eq,
    programWords_eq reassembled, programWords_eq returned, commandOrders_programText cleaned,
    getElem?_fillImage within (by simpa [shownOrders] using inside),
    getElem?_fillImage within (by simpa using inside), List.getElem?_map, List.getElem?_map,
    shownOrders, List.getElem?_map, found] at here
  exact Option.some.inj here

/-- A listing that is assembled again to the same image has no address load. -/
theorem not_load_of_reassembled (noFindings : again.findings = [])
    (same : again.image = assembly.image) {order : Order} (member : order ∈ commandOrders text) :
    order.command ≠ .loadAddress := by
  intro loads
  have cleaned : forall order, order ∈ shownOrders text -> order.IsClean :=
    fun _ => isClean_of_mem_shownOrders returned unreported
  have words := orderWord_shown_of_image returned unreported reassembled same member
  rcases (clear_of_findings_eq_nil returned unreported).1 order member with ⟨encoding, clear⟩
  rcases order with ⟨command, operands⟩
  cases loads
  rcases clear.of_load with ⟨target, operand, value, rfl, resolves, byte⟩
  rw [Order.shown_of_load resolves] at words
  have shown : Order.mk .loadAddress [Instruction.registerText target.toNibble,
      Numeral.decimal value] ∈ shownOrders text := by
    rw [← Order.shown_of_load resolves]
    exact List.mem_map_of_mem member
  rcases ((findings_programText_eq_nil_iff cleaned reassembled).mp noFindings).1 _ shown with
    ⟨other, alsoClear⟩
  rcases alsoClear.of_load with ⟨_, _, moved, operands, alsoResolves, alsoByte⟩
  cases (List.cons.inj (List.cons.inj operands).2).1
  -- the word shows the byte that was resolved first, and the byte of the line before it
  rw [words, byte] at alsoByte
  have place := value_of_resolveTarget_programText cleaned alsoResolves
  exact signedByte_sub_one_ne value (place.symm.trans alsoByte.symm)

end

/-- The listing of an assembly without problems is always assembled.  It is
assembled without problems to the same image exactly when no line loads an
address. -/
theorem reassembly_iff_no_address_load (text : String) (assembly : Assembly)
    (returned : assemble text = .ok assembly) (unreported : assembly.diagnostics.count = 0) :
    Exists fun listed => Exists fun again =>
      listing assembly.lines = .ok listed ∧
        assemble (String.intercalate "\n" listed) = .ok again ∧
        (again.diagnostics.count = 0 ∧ again.image = assembly.image <->
          forall line, line ∈ validLines assembly.lines -> ¬ line.LoadsAddress) := by
  rw [assembly.count_eq_zero_iff] at unreported
  have cleaned : forall order, order ∈ shownOrders text -> order.IsClean :=
    fun _ => isClean_of_mem_shownOrders returned unreported
  have encodes : forall order, order ∈ shownOrders text -> Exists fun encoding =>
      encodeOrder (placedLines (programText (shownOrders text))) order = .ok encoding := by
    intro order member
    rcases exists_clear_of_mem_shownOrders returned unreported member with
      ⟨written, encoding, rfl, clear⟩
    apply clear.exists_encodeOrder_shown
    apply placedLines_ne_nil
    intro empty
    have numbers := map_fst_numberedOrders_programText cleaned
    rw [empty] at numbers
    have length := congrArg List.length numbers
    rw [List.length_map, List.length_range'] at length
    exact List.ne_nil_of_mem member (List.length_eq_zero_iff.mp length.symm)
  rcases exists_assembly_programText cleaned encodes with ⟨again, reassembled⟩
  refine ⟨_, again, listing_eq returned, reassembled, ?_⟩
  rw [not_loadsAddress_iff returned, again.count_eq_zero_iff]
  constructor
  · rintro ⟨noFindings, same⟩ order member
    exact not_load_of_reassembled returned unreported reassembled noFindings same member
  · intro noLoad
    have plain : (shownOrders text).map Order.asImmediate = shownOrders text := by
      rw [shownOrders, List.map_map]
      apply List.map_congr_left
      intro order member
      apply Order.asImmediate_of_ne
      rw [Order.command_shown]
      exact noLoad order member
    rcases assemble_asImmediate returned unreported with ⟨other, alsoReassembled, none, same, -⟩
    rw [plain, reassembled] at alsoReassembled
    cases alsoReassembled
    exact ⟨none, same⟩

/-- Without an address load the listing is stable, and with one it is not. -/
theorem reassembly_iff_no_address_load_of_samples :
    (Exists fun assembly => Exists fun listed => Exists fun again =>
      assemble "#define acc r2\nneg acc, r1\n// c\nlb r3, (acc)" = .ok assembly ∧
        listing assembly.lines = .ok listed ∧
        assemble (String.intercalate "\n" listed) = .ok again ∧
        again.diagnostics.count = 0 ∧ again.image = assembly.image) ∧
      Exists fun assembly => Exists fun listed => Exists fun again =>
        assemble "#label here\nnop\nla r1, here" = .ok assembly ∧
          listing assembly.lines = .ok listed ∧
          assemble (String.intercalate "\n" listed) = .ok again ∧
          ¬ (again.diagnostics.count = 0 ∧ again.image = assembly.image) := by
  constructor
  · rcases exists_assembly_of_map "#define acc r2\nneg acc, r1\n// c\nlb r3, (acc)"
      (fun assembly => (assembly.diagnostics.count,
        decide (forall line, line ∈ validLines assembly.lines -> ¬ line.LoadsAddress)))
      (show _ = some (0, true) by decide +kernel) with ⟨assembly, returned, read⟩
    rw [Prod.mk.injEq, decide_eq_true_eq] at read
    rcases reassembly_iff_no_address_load _ assembly returned read.1 with
      ⟨listed, again, listsAs, reassembled, stable⟩
    exact ⟨assembly, listed, again, returned, listsAs, reassembled, stable.mpr read.2⟩
  · rcases exists_assembly_of_map "#label here\nnop\nla r1, here"
      (fun assembly => (assembly.diagnostics.count,
        decide (forall line, line ∈ validLines assembly.lines -> ¬ line.LoadsAddress)))
      (show _ = some (0, false) by decide +kernel) with ⟨assembly, returned, read⟩
    rw [Prod.mk.injEq, decide_eq_false_iff_not] at read
    rcases reassembly_iff_no_address_load _ assembly returned read.1 with
      ⟨listed, again, listsAs, reassembled, stable⟩
    exact ⟨assembly, listed, again, returned, listsAs, reassembled,
      fun same => read.2 (stable.mp same)⟩

/-- A listing that loads an address need not be assembled to the same image: it
loads position one from line two, shows this as one, and loads position zero when
it is assembled again. -/
theorem listing_is_not_always_stable :
    ¬ forall text assembly, assemble text = .ok assembly -> assembly.diagnostics.count = 0 ->
      Exists fun listed => Exists fun again =>
        listing assembly.lines = .ok listed ∧
          assemble (String.intercalate "\n" listed) = .ok again ∧
          again.diagnostics.count = 0 ∧ again.image = assembly.image := by
  intro stable
  rcases exists_assembly_of_map "nop\nla r1, 2"
    (fun assembly => (assembly.diagnostics.count, (listing assembly.lines).toOption,
      assembly.image.getD 1 0))
    (show _ = some (0, some ["add r0 r0 r0", "la r1 1"], 0xA101) by decide +kernel) with
    ⟨assembly, returned, read⟩
  rcases exists_assembly_of_map (String.intercalate "\n" ["add r0 r0 r0", "la r1 1"])
    (fun again => again.image.getD 1 0) (show _ = some 0xA100 by decide +kernel) with
    ⟨other, otherReturned, otherRead⟩
  rw [Prod.mk.injEq, Prod.mk.injEq] at read
  rcases read with ⟨count, shown, word⟩
  rcases stable _ assembly returned count with ⟨listed, again, listsAs, reassembled, -, image⟩
  rw [listsAs] at shown
  cases Option.some.inj shown
  rw [otherReturned] at reassembled
  cases reassembled
  rw [image, word] at otherRead
  exact absurd otherRead (by decide)

end NibbleMachine
