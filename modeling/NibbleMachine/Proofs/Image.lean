import NibbleMachine.Proofs.Encoding
import NibbleMachine.Proofs.Positional

namespace NibbleMachine

/-!
# Positions and the image

The image of an assembly is laid out by position: the valid lines have the
positions from zero on in source order, the word at a position is the word of
its line, and what is left of the image is zero.  Lines that were dropped on
the way have neither a position nor nibbles.  A program that is too long is
reported once, at the end; the words that do not fit are those of the last
positions.

That words stay within sixteen bits is not checked anywhere.  It holds because
the word of a line is stored together with its nibbles, and packed from them.

The image itself is made by appending word after word until it is full.  Only its
closed form is used afterwards: the first words of the program, filled with zeros,
and a finding exactly when the program is longer than that.
-/

/-! ## Words and their text -/

theorem Nibbles.word_bounds (nibbles : Nibbles) : 0 ≤ nibbles.word ∧ nibbles.word < 65536 := by
  rw [Nibbles.word_eq]
  have command := nibbles.command.isLt
  have target := nibbles.target.isLt
  have third := nibbles.third.isLt
  have fourth := nibbles.fourth.isLt
  constructor
  · omega
  · omega

namespace Line.Packed

variable {line : Line} (packed : line.Packed)

include packed

theorem word_of_nibbles {nibbles : Nibbles} (encoded : line.nibbles = some nibbles) :
    line.word = nibbles.word := by
  rw [packed, encoded]
  rfl

theorem word_of_no_nibbles (missing : line.nibbles = none) : line.word = 0 := by
  rw [packed, missing]
  rfl

theorem word_bounds : 0 ≤ line.word ∧ line.word < 65536 := by
  cases encoded : line.nibbles with
  | none =>
      rw [packed.word_of_no_nibbles encoded]
      decide
  | some nibbles =>
      rw [packed.word_of_nibbles encoded]
      exact nibbles.word_bounds

end Line.Packed

theorem binary_of_mem_toDigits {c : Char} {number : Nat} (member : c ∈ Nat.toDigits 2 number) :
    c = '0' ∨ c = '1' := by
  have characters : forall digit, digit < 2 ->
      Nat.digitChar digit = '0' ∨ Nat.digitChar digit = '1' := by decide
  rcases exists_toDigits (by decide : 1 < 2) number with ⟨digits, areDigits, shape, -⟩
  rw [shape] at member
  rcases List.mem_map.mp member with ⟨digit, listed, rfl⟩
  exact characters digit (areDigits.below digit listed)

/-- The text of a word is sixteen binary digits. -/
theorem binaryDigits_of_word {word : Int} (bounds : 0 ≤ word ∧ word < 65536) :
    (Numeral.binaryDigits wordBits word).length = 16 ∧
      forall c, c ∈ Numeral.binaryDigits wordBits word -> c = '0' ∨ c = '1' := by
  have notNegative : ¬ word < 0 := by omega
  have short : (Nat.toDigits 2 word.natAbs).length ≤ 16 :=
    (Nat.length_toDigits_le_iff (by decide) (by decide)).mpr (by omega)
  simp only [Numeral.binaryDigits, wordBits, if_neg notNegative]
  constructor
  · rw [List.length_append, List.length_replicate]
    omega
  · intro c member
    rcases List.mem_append.mp member with filled | digit
    · exact Or.inl (List.eq_of_mem_replicate filled)
    · exact binary_of_mem_toDigits digit

/-- The word that an order is encoded as; without nibbles it is zero. -/
def orderWord (lines : List Line) (order : Order) : Int :=
  match encodeOrder lines order with
  | .ok encoding => packOrZero (encoding.nibbles.map Nibbles.elements)
  | .error _ => 0

/-! ## Filling an image -/

def programWords (lines : List Line) : List Int :=
  (validLines lines).map Line.word

/-- A program cut or filled to the size of an image. -/
def fillImage (words : List Int) : List Int :=
  words.take imageSize ++ List.replicate (imageSize - words.length) 0

theorem length_fillImage (words : List Int) : (fillImage words).length = imageSize := by
  simp only [fillImage, List.length_append, List.length_take, List.length_replicate]
  omega

/-- Appending words to an image that has room takes as many of them as fit, and finds the
program too long when one is left over. -/
theorem appendWords_eq {image : List Int} (room : image.length ≤ imageSize) (lines : List Line) :
    appendWords image lines =
      (image ++ (lines.map Line.word).take (imageSize - image.length),
        if image.length + lines.length ≤ imageSize then [] else [.programTooLong]) := by
  induction lines generalizing image with
  | nil => simp [appendWords, room]
  | cons line rest inductionHypothesis =>
      rw [appendWords]
      by_cases full : image.length = imageSize
      · simp [full]
      · have longer : (image ++ [line.word]).length ≤ imageSize := by
          rw [List.length_append, List.length_singleton]
          omega
        have left : imageSize - image.length = imageSize - (image ++ [line.word]).length + 1 := by
          rw [List.length_append, List.length_singleton] at longer ⊢
          omega
        rw [if_neg full, inductionHypothesis longer, left, List.map_cons, List.take_succ_cons,
          List.append_assoc, List.singleton_append, List.length_append, List.length_singleton,
          List.length_cons, Nat.add_assoc, Nat.add_comm 1]

theorem appendWords_nil (lines : List Line) :
    appendWords [] lines =
      ((lines.map Line.word).take imageSize,
        if lines.length ≤ imageSize then [] else [.programTooLong]) := by
  have empty : ([] : List Int).length ≤ imageSize := Nat.zero_le imageSize
  rw [appendWords_eq empty, List.nil_append, List.length_nil, Nat.sub_zero, Nat.zero_add]

/-- The image is the program, cut or filled to its size. -/
theorem buildImage_eq (lines : List Line) : buildImage lines = fillImage (programWords lines) := by
  have padding : imageSize - min imageSize (validLines lines).length =
      imageSize - (validLines lines).length := by omega
  simp only [buildImage, appendWords_nil, fillImage, programWords, List.length_take,
    List.length_map, padding]

/-- A program is too long when it has more words than an image. -/
theorem imageFindings_eq (lines : List Line) :
    imageFindings lines =
      if (programWords lines).length ≤ imageSize then [] else [.programTooLong] := by
  rw [imageFindings, appendWords_nil, programWords, List.length_map]

theorem length_buildImage (lines : List Line) : (buildImage lines).length = imageSize := by
  rw [buildImage_eq, length_fillImage]

theorem getElem?_fillImage {words : List Int} {index : Nat} (within : index < imageSize)
    (inside : index < words.length) : (fillImage words)[index]? = words[index]? := by
  have front : index < (words.take imageSize).length := by
    rw [List.length_take]
    omega
  rw [fillImage, List.getElem?_append_left front, List.getElem?_take_of_lt within]

theorem getElem?_fillImage_of_le {words : List Int} {index : Nat} (within : index < imageSize)
    (outside : words.length ≤ index) : (fillImage words)[index]? = some 0 := by
  have all : words.take imageSize = words := List.take_of_length_le (by omega)
  rw [fillImage, all, List.getElem?_append_right outside, List.getElem?_replicate]
  exact if_pos (by omega)

theorem buildImage_bounds {lines : List Line}
    (packed : forall line, line ∈ lines -> line.Packed) {word : Int}
    (member : word ∈ buildImage lines) : 0 ≤ word ∧ word < 65536 := by
  rw [buildImage_eq] at member
  rcases List.mem_append.mp member with taken | filled
  · rcases List.mem_map.mp (List.mem_of_mem_take taken) with ⟨line, listed, rfl⟩
    exact (packed line (List.mem_filter.mp listed).1).word_bounds
  · rw [List.eq_of_mem_replicate filled]
    decide

/-- The text of words within sixteen bits is one line of sixteen binary digits
for each of them. -/
theorem renderWords_toList (words : List Int) :
    (renderWords words).toList =
      (words.map (Numeral.binaryDigits wordBits)).flatMap (fun row => row ++ ['\n']) := by
  induction words with
  | nil => rfl
  | cons word rest inductionHypothesis =>
      unfold renderWords at inductionHypothesis ⊢
      rw [String.toList_join] at inductionHypothesis ⊢
      rw [List.map_cons, List.flatMap_cons, inductionHypothesis, List.map_cons,
        List.flatMap_cons]
      simp [wordText, Numeral.binary]

/-! ## Findings of an assembly -/

theorem atLine_of_mem_findingsOf {directive : Directive} {entries : List Entry}
    {finding : Finding} (member : finding ∈ findingsOf (directive.declarations entries)) :
    Exists fun number => finding = .atLine number directive.problem := by
  rcases List.mem_filterMap.mp member with ⟨declaration, declared, found⟩
  rcases List.mem_map.mp declared with ⟨entry, -, rfl⟩
  unfold Directive.declare at found
  split at found
  · cases found
  · cases found
  · exact ⟨entry.number, (Option.some.inj found).symm⟩

/-- Every finding but the one on the whole program stands at a line. -/
theorem atLine_of_mem_earlyFindings {text : String} {finding : Finding}
    (member : finding ∈ earlyFindings text) :
    Exists fun number => Exists fun problem => finding = .atLine number problem := by
  rcases List.mem_append.mp member with directives | commands
  · rcases List.mem_append.mp directives with defines | labels
    · rcases atLine_of_mem_findingsOf defines with ⟨number, same⟩
      exact ⟨number, _, same⟩
    · rcases atLine_of_mem_findingsOf labels with ⟨number, same⟩
      exact ⟨number, _, same⟩
  · rcases List.mem_flatMap.mp commands with ⟨line, -, found⟩
    unfold Line.resolveFindings at found
    split at found
    · cases found
    · next problem _ => exact ⟨line.number, problem, List.mem_singleton.mp found⟩

theorem message_atLine (number : Nat) (problem : Problem) :
    (Finding.atLine number problem).message =
      "ERROR in Line " ++ Numeral.decimal number ++ ": " ++ problem.message := rfl

theorem message_atLine_ne_programTooLong (number : Nat) (problem : Problem) :
    (Finding.atLine number problem).message ≠ Finding.programTooLong.message := by
  -- the two texts part at the sixth character
  have located : (Finding.atLine number problem).message.toList[5]? = some ' ' := by
    rw [message_atLine, String.toList_append, String.toList_append, String.toList_append,
      List.append_assoc, List.append_assoc, List.getElem?_append_left (by decide +kernel)]
    decide +kernel
  have whole : Finding.programTooLong.message.toList[5]? = some ':' := by decide +kernel
  intro same
  rw [same, whole] at located
  exact absurd located (by decide)

/-- The messages on lines differ from the one on the whole program. -/
theorem programTooLong_not_mem_messages {findings : List Finding}
    (located : forall finding, finding ∈ findings ->
      Exists fun number => Exists fun problem => finding = .atLine number problem) :
    Finding.programTooLong.message ∉ findings.map Finding.message := by
  intro member
  rcases List.mem_map.mp member with ⟨finding, listed, same⟩
  rcases located finding listed with ⟨number, problem, rfl⟩
  exact message_atLine_ne_programTooLong number problem same

/-! ## The lines of an assembly -/

section

variable {text : String} {assembly : Assembly}

theorem map_unencoded_lines (returned : assemble text = .ok assembly) :
    assembly.lines.map Line.unencoded = (placedLines text).map Line.unencoded := by
  rcases (assemble_eq_ok_iff text assembly).mp returned with ⟨steps, taken, rfl⟩
  exact map_unencoded_steps taken

theorem numbered_lines (returned : assemble text = .ok assembly) : Numbered assembly.lines := by
  have same := congrArg (List.map Line.number) (map_unencoded_lines returned)
  rw [List.map_map, List.map_map] at same
  have length : assembly.lines.length = (placedLines text).length := by
    simpa using congrArg List.length (map_unencoded_lines returned)
  rw [Numbered, length]
  exact same.trans (numbered_placedLines text)

theorem map_validLines_lines {Kept : Type} (returned : assemble text = .ok assembly)
    (field : Line -> Kept) (keepsField : forall line, field line.unencoded = field line) :
    (validLines assembly.lines).map field = (validLines (placedLines text)).map field := by
  rw [← map_validLines_erased Line.unencoded (fun _ => rfl) field keepsField,
    map_unencoded_lines returned,
    map_validLines_erased Line.unencoded (fun _ => rfl) field keepsField]

theorem positions_lines (returned : assemble text = .ok assembly) :
    (validLines assembly.lines).map Line.position =
      (List.range (validLines assembly.lines).length).map some := by
  have placed := positions_layoutFrom 0 (resolvedLines text)
  have same : (validLines assembly.lines).map Line.position =
      (List.range' 0 (validLines (resolvedLines text)).length).map some := by
    rw [map_validLines_lines returned Line.position fun _ => rfl]
    exact placed
  have length := congrArg List.length same
  simp only [List.length_map, List.length_range'] at length
  rw [same, length, List.range_eq_range']

/-- The line at a place among the valid lines has that place as its position. -/
theorem getElem?_validLines_of_position (returned : assemble text = .ok assembly)
    {line : Line} {position : Nat} (member : line ∈ validLines assembly.lines)
    (placed : line.position = some position) :
    (validLines assembly.lines)[position]? = some line := by
  rcases List.mem_iff_getElem?.mp member with ⟨index, found⟩
  have listed : ((validLines assembly.lines).map Line.position)[index]? = some line.position := by
    rw [List.getElem?_map, found]
    rfl
  have inside : index < (validLines assembly.lines).length :=
    (List.getElem?_eq_some_iff.mp found).1
  rw [positions_lines returned, List.getElem?_map, List.getElem?_range inside, placed] at listed
  have same : index = position := by simpa using listed
  exact same ▸ found

/-- A line that was dropped has no position and no nibbles. -/
theorem untouched_of_invalid (returned : assemble text = .ok assembly) {line : Line}
    (member : line ∈ assembly.lines) (invalid : line.valid = false) :
    line.position = none ∧ line.nibbles = none := by
  rcases (assemble_eq_ok_iff text assembly).mp returned with ⟨steps, taken, rfl⟩
  rcases List.mem_map.mp member with ⟨step, listed, rfl⟩
  have kept := kept_of_mem_steps taken listed invalid
  exact fresh_of_mem_resolvedLines (mem_of_mem_layoutFrom kept.1 invalid)

/-- The findings of an assembly: those on lines, then at most the one on the
whole program. -/
theorem findings_split (returned : assemble text = .ok assembly) :
    Exists fun located : List Finding =>
      assembly.findings = located ++ imageFindings assembly.lines ∧
        forall finding, finding ∈ located ->
          Exists fun number => Exists fun problem => finding = .atLine number problem := by
  rcases (assemble_eq_ok_iff text assembly).mp returned with ⟨steps, taken, rfl⟩
  refine ⟨earlyFindings text ++ steps.flatMap Prod.snd, rfl, ?_⟩
  intro finding member
  rcases List.mem_append.mp member with early | encoded
  · exact atLine_of_mem_earlyFindings early
  · rcases List.mem_flatMap.mp encoded with ⟨step, listed, found⟩
    rcases taken.exists_line _ listed with ⟨line, -, stepped⟩
    rcases number_of_mem_step stepped found with ⟨problem, same⟩
    exact ⟨line.number, problem, same⟩

theorem image_eq_buildImage (returned : assemble text = .ok assembly) :
    assembly.image = buildImage assembly.lines := by
  rcases (assemble_eq_ok_iff text assembly).mp returned with ⟨steps, -, rfl⟩
  rfl

theorem image_bounds (returned : assemble text = .ok assembly) {word : Int}
    (member : word ∈ assembly.image) : 0 ≤ word ∧ word < 65536 := by
  rw [image_eq_buildImage returned] at member
  exact buildImage_bounds (fun _ => packed_of_mem_lines returned) member

/-- A valid line was encoded from the order it carries. -/
theorem encoded_of_mem_lines (returned : assemble text = .ok assembly) {line : Line}
    {order : Order} (member : line ∈ validLines assembly.lines)
    (ordered : line.order = some order) :
    Exists fun encoding =>
      encodeOrder (placedLines text) order = .ok encoding ∧
        showResolved (some order.tokens) encoding.resolved = .ok line.tokens ∧
        line.nibbles = encoding.nibbles := by
  rcases (assemble_eq_ok_iff text assembly).mp returned with ⟨steps, taken, rfl⟩
  have listed := List.mem_filter.mp member
  rcases List.mem_map.mp listed.1 with ⟨step, inSteps, rfl⟩
  rcases encoded_of_mem_steps taken inSteps listed.2 with
    ⟨other, encoding, -, encoded, shown, carries, nibbles, -⟩
  rw [ordered] at carries
  cases carries
  exact ⟨encoding, encoded, shown, nibbles⟩

/-- What is read off the order of a valid line, line by line, is read off the
orders of the text. -/
theorem map_lines_of_orders {Reading : Type} (returned : assemble text = .ok assembly)
    (field : Line -> Reading) (read : Order -> Reading)
    (reads : forall line order, line ∈ validLines assembly.lines -> line.order = some order ->
      field line = read order) :
    (validLines assembly.lines).map field = (commandOrders text).map read := by
  have orders : (validLines assembly.lines).map Line.order = (commandOrders text).map some :=
    (map_validLines_lines returned Line.order fun _ => rfl).trans (orders_placedLines text)
  have each : forall line, line ∈ validLines assembly.lines ->
      some (field line) = line.order.map read := by
    intro line member
    have carried : line.order ∈ (commandOrders text).map some := by
      rw [← orders]
      exact List.mem_map_of_mem member
    rcases List.mem_map.mp carried with ⟨order, -, ordered⟩
    rw [← ordered, reads line order member ordered.symm]
    rfl
  apply List.map_injective_iff.mpr fun _ _ => Option.some.inj
  calc
    ((validLines assembly.lines).map field).map some
        = ((validLines assembly.lines).map Line.order).map (Option.map read) := by
          rw [List.map_map, List.map_map]
          exact List.map_congr_left each
    _ = ((commandOrders text).map read).map some := by
          rw [orders, List.map_map, List.map_map]
          rfl

/-- The words of an assembly are those of the orders of its text. -/
theorem programWords_eq (returned : assemble text = .ok assembly) :
    programWords assembly.lines =
      (commandOrders text).map (orderWord (placedLines text)) := by
  apply map_lines_of_orders returned
  intro line order member ordered
  rcases encoded_of_mem_lines returned member ordered with ⟨encoding, encoded, -, nibbles⟩
  rw [packed_of_mem_lines returned (List.mem_filter.mp member).1, nibbles, orderWord, encoded]

theorem getElem?_image_of_position (returned : assemble text = .ok assembly) {line : Line}
    {position : Nat} (member : line ∈ validLines assembly.lines)
    (placed : line.position = some position) (within : position < imageSize) :
    assembly.image[position]? = some line.word := by
  have found := getElem?_validLines_of_position returned member placed
  have inside : position < (programWords assembly.lines).length := by
    rw [programWords, List.length_map]
    exact (List.getElem?_eq_some_iff.mp found).1
  rw [image_eq_buildImage returned, buildImage_eq, getElem?_fillImage within inside, programWords,
    List.getElem?_map, found]
  rfl

theorem getElem?_image_of_le (returned : assemble text = .ok assembly) {index : Nat}
    (outside : (validLines assembly.lines).length ≤ index) (within : index < imageSize) :
    assembly.image[index]? = some 0 := by
  rw [image_eq_buildImage returned, buildImage_eq]
  refine getElem?_fillImage_of_le within ?_
  rwa [programWords, List.length_map]

/-- The messages of an assembly end with the one on a program that is too long,
if it is. -/
theorem messages_split (returned : assemble text = .ok assembly) :
    Exists fun located : List String =>
      Finding.programTooLong.message ∉ located ∧
        assembly.diagnostics.messages = located ++
          if (validLines assembly.lines).length ≤ imageSize then []
          else [Finding.programTooLong.message] := by
  rcases findings_split returned with ⟨located, split, atLines⟩
  refine ⟨located.map Finding.message, programTooLong_not_mem_messages atLines, ?_⟩
  rw [Assembly.diagnostics, Diagnostics.ofFindings, split, List.map_append, imageFindings_eq,
    programWords, List.length_map]
  congr 1
  split
  · rfl
  · rfl

theorem renderWords_image (returned : assemble text = .ok assembly) :
    Exists fun rows : List (List Char) =>
      rows.length = imageSize ∧
        (forall row, row ∈ rows ->
          row.length = 16 ∧ forall c, c ∈ row -> c = '0' ∨ c = '1') ∧
        (renderWords assembly.image).toList = rows.flatMap fun row => row ++ ['\n'] := by
  refine ⟨assembly.image.map (Numeral.binaryDigits wordBits), ?_, ?_,
    renderWords_toList assembly.image⟩
  · rw [List.length_map, image_eq_buildImage returned]
    exact length_buildImage _
  · intro row member
    rcases List.mem_map.mp member with ⟨word, listed, rfl⟩
    exact binaryDigits_of_word (image_bounds returned listed)

end

/-- The image of an assembly is laid out by position, whatever problems were
met: the lines stay in source order, the valid ones have the positions from zero
on, and the image is made of their words, cut or filled with zeros to its fixed
size. -/
theorem assembly_positions_and_image (text : String) (assembly : Assembly)
    (returned : assemble text = .ok assembly) :
    assembly.lines.map Line.number = List.range' 1 assembly.lines.length ∧
      (validLines assembly.lines).map Line.position =
        (List.range (validLines assembly.lines).length).map some ∧
      (forall line, line ∈ assembly.lines -> line.valid = false ->
        line.position = none ∧ line.nibbles = none ∧ line.word = 0) ∧
      assembly.image.length = 256 ∧
      (forall word, word ∈ assembly.image -> 0 ≤ word ∧ word < 65536) ∧
      (forall line position, line ∈ validLines assembly.lines ->
        line.position = some position -> position < 256 ->
        assembly.image[position]? = some line.word) ∧
      (forall index, (validLines assembly.lines).length ≤ index -> index < 256 ->
        assembly.image[index]? = some 0) ∧
      (Finding.programTooLong.message ∈ assembly.diagnostics.messages <->
        256 < (validLines assembly.lines).length) ∧
      (256 < (validLines assembly.lines).length ->
        assembly.diagnostics.messages.count Finding.programTooLong.message = 1 ∧
          assembly.diagnostics.messages.getLast? = some Finding.programTooLong.message) ∧
      (Exists fun rows : List (List Char) =>
        rows.length = 256 ∧
          (forall row, row ∈ rows ->
            row.length = 16 ∧ forall c, c ∈ row -> c = '0' ∨ c = '1') ∧
          (renderWords assembly.image).toList = rows.flatMap fun row => row ++ ['\n']) := by
  rcases messages_split returned with ⟨located, absent, messages⟩
  refine ⟨numbered_lines returned, positions_lines returned, ?_, ?_, ?_, ?_, ?_, ?_, ?_,
    renderWords_image returned⟩
  · intro line member invalid
    have untouched := untouched_of_invalid returned member invalid
    exact ⟨untouched.1, untouched.2,
      (packed_of_mem_lines returned member).word_of_no_nibbles untouched.2⟩
  · rw [image_eq_buildImage returned]
    exact length_buildImage _
  · intro word member
    exact image_bounds returned member
  · intro line position member placed within
    exact getElem?_image_of_position returned member placed within
  · intro index outside within
    exact getElem?_image_of_le returned outside within
  · rw [messages]
    by_cases fits : (validLines assembly.lines).length ≤ imageSize
    · rw [if_pos fits, List.append_nil]
      exact ⟨fun member => absurd member absent, fun long => absurd fits (Nat.not_le_of_lt long)⟩
    · rw [if_neg fits]
      exact ⟨fun _ => Nat.lt_of_not_le fits, fun _ => List.mem_append_right _ List.mem_cons_self⟩
  · intro long
    have overflows : ¬ (validLines assembly.lines).length ≤ imageSize := Nat.not_le_of_lt long
    rw [messages, if_neg overflows]
    constructor
    · rw [List.count_append, List.count_eq_zero_of_not_mem absent, List.count_singleton_self]
    · exact List.getLast?_concat

/-- A label and a dropped line take no position. -/
theorem assembly_positions_and_image_of_sample :
    Exists fun assembly =>
      assemble "#label t\nx\nli r1, 5\nla r2, t" = .ok assembly ∧
        (validLines assembly.lines).map Line.position = [some 0, some 1] ∧
        assembly.image.length = 256 := by
  rcases exists_assembly_of_map "#label t\nx\nli r1, 5\nla r2, t"
    (fun assembly => (validLines assembly.lines).length)
    (show _ = some 2 by decide +kernel) with ⟨assembly, returned, two⟩
  have laidOut := assembly_positions_and_image _ assembly returned
  have positions := laidOut.2.1
  rw [two] at positions
  exact ⟨assembly, returned, positions, laidOut.2.2.2.1⟩

end NibbleMachine
