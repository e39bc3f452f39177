import NibbleMachine.CommandLine.Assemble
import NibbleMachine.Proofs.ImageText
import NibbleMachine.Proofs.Listing

namespace NibbleMachine
namespace CommandLine

/-!
# The table of encoded lines

The assembling command can print a table of the encoded lines.  The table and the
image are made by different means.  The table walks over the valid lines and stops
at a line whose position lies outside the image; the image takes as many words as
it has room for and is filled with zeros.  They agree because the positions of the
valid lines count from zero without gaps, so stopping at a position is the same as
stopping at a number of rows.

The bits of a row are the first sixteen characters of the word's binary text, cut
into groups.  Nothing is lost by this, since the text of a word that was packed
from four nibbles has exactly sixteen characters.
-/

/-! ## Rows -/

/-- Among lines with consecutive positions, those below a limit are the first ones. -/
theorem takeWhile_position_lt {lines : List Line} {start : Nat}
    (positions : lines.map Line.position = (List.range' start lines.length).map some)
    (limit : Nat) :
    lines.takeWhile (fun line => line.position.getD 0 < limit) = lines.take (limit - start) := by
  induction lines generalizing start with
  | nil => simp
  | cons line rest inductionHypothesis =>
      rw [List.map_cons, List.length_cons, List.range'_succ, List.map_cons, List.cons.injEq]
        at positions
      have later := inductionHypothesis positions.2
      by_cases below : start < limit
      · have step : limit - start = limit - (start + 1) + 1 := by omega
        rw [List.takeWhile_cons_of_pos (by simpa [positions.1] using below), later, step,
          List.take_succ_cons]
      · have none : limit - start = 0 := by omega
        rw [List.takeWhile_cons_of_neg (by simpa [positions.1] using below), none, List.take_zero]

/-- The table has a row for each line that has a place in the image. -/
theorem encodedRows_eq {text : String} {assembly : Assembly}
    (returned : assemble text = .ok assembly) :
    encodedRows assembly.lines =
      ((validLines assembly.lines).take imageSize).map encodedRow := by
  have positions := positions_lines returned
  rw [List.range_eq_range'] at positions
  rw [encodedRows, takeWhile_position_lt positions, Nat.sub_zero]

/-- The row of a line whose position and tokens are known. -/
theorem encodedRow_eq {line : Line} {position : Nat} {tokens : List String}
    (placed : line.position = some position) (cut : line.tokens = some tokens) :
    encodedRow line =
      alignRight 3 (Numeral.decimal position) ++ "  "
        ++ alignLeft 24 (String.intercalate " " tokens) ++ " " ++ nibbleText line.word := by
  rw [encodedRow, placed, cut]
  rfl

/-! ## Bits -/

/-- Four groups of four make up sixteen items. -/
theorem append_groups {Item : Type} {items : List Item} (sixteen : items.length = 16) :
    items.take 4 ++ ((items.drop 4).take 4 ++ ((items.drop 8).take 4 ++ (items.drop 12).take 4)) =
      items := by
  have last : (items.drop 12).take 4 = items.drop 12 :=
    List.take_of_length_le (by rw [List.length_drop]; omega)
  have third : (items.drop 8).take 4 ++ items.drop 12 = items.drop 8 := by
    have joined := List.take_append_drop 4 (items.drop 8)
    rwa [List.drop_drop] at joined
  have second : (items.drop 4).take 4 ++ items.drop 8 = items.drop 4 := by
    have joined := List.take_append_drop 4 (items.drop 4)
    rwa [List.drop_drop] at joined
  rw [last, third, second, List.take_append_drop]

theorem toList_nibbleText (word : Int) :
    (nibbleText word).toList =
      (Numeral.binaryDigits wordBits word).take 4 ++
        ' ' :: (((Numeral.binaryDigits wordBits word).drop 4).take 4 ++
          ' ' :: (((Numeral.binaryDigits wordBits word).drop 8).take 4 ++
            ' ' :: ((Numeral.binaryDigits wordBits word).drop 12).take 4)) := by
  simp [nibbleText]

/-- Without the spaces between its groups, the shown word is the binary text of the word. -/
theorem filter_nibbleText {word : Int} (bounds : 0 ≤ word ∧ word < 65536) :
    (nibbleText word).toList.filter (fun c => c != ' ') =
      Numeral.binaryDigits wordBits word := by
  rcases binaryDigits_of_word bounds with ⟨length, binary⟩
  have kept : forall group : List Char, group <:+: Numeral.binaryDigits wordBits word ->
      group.filter (fun c => c != ' ') = group := by
    intro group part
    apply List.filter_eq_self.mpr
    intro c member
    rcases binary c (part.subset member) with rfl | rfl
    · rfl
    · rfl
  have group : forall start, ((Numeral.binaryDigits wordBits word).drop start).take 4 <:+:
      Numeral.binaryDigits wordBits word :=
    fun start => (List.take_prefix _ _).isInfix.trans (List.drop_suffix _ _).isInfix
  have skipped : forall rest : List Char,
      (' ' :: rest).filter (fun c => c != ' ') = rest.filter (fun c => c != ' ') :=
    fun rest => List.filter_cons_of_neg (by decide)
  rw [toList_nibbleText]
  simp only [List.filter_append, skipped, kept _ (group _), kept _ (List.take_prefix _ _).isInfix]
  exact append_groups length

/-! ## Table and image -/

/-- The valid lines of an assembly are placed in order and keep tokens to be shown. -/
theorem shown_of_getElem? {text : String} {assembly : Assembly}
    (returned : assemble text = .ok assembly) {index : Nat} {line : Line}
    (found : (validLines assembly.lines)[index]? = some line) :
    line.position = some index ∧ Exists fun tokens => line.tokens = some tokens := by
  rcases List.getElem?_eq_some_iff.mp found with ⟨inside, -⟩
  have listed := congrArg (fun positions => positions[index]?) (positions_lines returned)
  simp only [List.getElem?_map, found, List.getElem?_range inside, Option.map_some,
    Option.some.injEq] at listed
  have cut : line.tokens ∈ ((shownOrders text).map Order.tokens).map some := by
    rw [← tokens_lines returned]
    exact List.mem_map_of_mem (List.mem_of_getElem? found)
  rcases List.mem_map.mp cut with ⟨tokens, -, shown⟩
  exact ⟨listed, tokens, shown.symm⟩

/-- The table of encoded lines agrees with the image, whatever problems were met.  Nothing
that a row shows can be missing: every valid line has its position and its tokens.  The
table has a row for each valid line up to the size of an image.  A row shows the position,
which counts from zero, the tokens that its line ended with, and the bits of its word in
groups; without the spaces these bits are the line of the image text at that position.  The
words of the rows, followed by zeros, are the whole image. -/
theorem encoded_rows_agree_with_image (text : String) (assembly : Assembly)
    (returned : assemble text = .ok assembly) :
    (forall (index : Nat) (line : Line), (validLines assembly.lines)[index]? = some line ->
      line.position = some index ∧ Exists fun tokens => line.tokens = some tokens) ∧
      (encodedRows assembly.lines).length = min (validLines assembly.lines).length 256 ∧
      (forall index, index < min (validLines assembly.lines).length 256 ->
        Exists fun line => Exists fun tokens =>
          (validLines assembly.lines)[index]? = some line ∧ line.tokens = some tokens ∧
            (encodedRows assembly.lines)[index]? =
              some (alignRight 3 (Numeral.decimal index) ++ "  "
                ++ alignLeft 24 (String.intercalate " " tokens) ++ " " ++ nibbleText line.word) ∧
            (Text.lines (renderWords assembly.image).toList)[index]? =
              some ((nibbleText line.word).toList.filter fun c => c != ' ')) ∧
      assembly.image =
        ((validLines assembly.lines).take (encodedRows assembly.lines).length).map Line.word ++
          List.replicate (256 - (encodedRows assembly.lines).length) 0 := by
  have rows := encodedRows_eq returned
  have length : (encodedRows assembly.lines).length =
      min (validLines assembly.lines).length 256 := by
    rw [rows, List.length_map, List.length_take, Nat.min_comm]
    rfl
  refine ⟨fun _ _ => shown_of_getElem? returned, length, ?_, ?_⟩
  · intro index within
    have inside : index < (validLines assembly.lines).length := by omega
    have fits : index < imageSize := by
      unfold imageSize
      omega
    have found := List.getElem?_eq_getElem inside
    have member := List.getElem_mem inside
    generalize (validLines assembly.lines)[index] = line at found member
    rcases shown_of_getElem? returned found with ⟨placed, tokens, shown⟩
    have packed := packed_of_mem_lines returned (List.mem_filter.mp member).1
    refine ⟨line, tokens, found, shown, ?_, ?_⟩
    · rw [rows, List.getElem?_map, List.getElem?_take_of_lt fits, found, Option.map_some,
        encodedRow_eq placed shown]
    · rw [lines_renderWords, List.getElem?_map,
        getElem?_image_of_position returned member placed fits, Option.map_some,
        filter_nibbleText packed.word_bounds]
  · rw [image_eq_buildImage returned, buildImage_eq, fillImage, programWords, length,
      List.length_map, ← List.map_take]
    unfold imageSize
    congr 2
    · rw [Nat.min_comm]
      exact List.take_eq_take_min
    · omega

/-- The first line of the source is dropped, so the row at position one is that of the third. -/
theorem encoded_rows_agree_with_image_of_sample :
    Exists fun assembly =>
      assemble "x\nli r1, 5\nla r2, 1" = .ok assembly ∧
        (encodedRows assembly.lines).length = 2 ∧
        (encodedRows assembly.lines)[1]? =
          some "  1  la r2 0                  1010 0010 0000 0000" ∧
        (Text.lines (renderWords assembly.image).toList)[1]? = some "1010001000000000".toList ∧
        assembly.image = [41221, 41472] ++ List.replicate 254 0 := by
  rcases exists_assembly_of_map "x\nli r1, 5\nla r2, 1"
    (fun assembly => (validLines assembly.lines).map fun line => (line.tokens, line.word))
    (show _ = some [(some ["li", "r1", "5"], (41221 : Int)), (some ["la", "r2", "0"], 41472)] by
      decide +kernel) with ⟨assembly, returned, read⟩
  rcases encoded_rows_agree_with_image _ assembly returned with ⟨-, length, shown, image⟩
  have two : (validLines assembly.lines).length = 2 := by simpa using congrArg List.length read
  have least : min 2 256 = 2 := by decide
  rw [two, least] at length shown
  rw [length, List.take_of_length_le (Nat.le_of_eq two)] at image
  have words : (validLines assembly.lines).map Line.word = [41221, 41472] := by
    have second := congrArg (List.map Prod.snd) read
    rwa [List.map_map] at second
  rw [words] at image
  rcases shown 1 (by decide) with ⟨line, tokens, found, cut, row, bits⟩
  have last := congrArg (fun rows => rows[1]?) read
  simp only [List.getElem?_map, found, cut, Option.map_some, List.getElem?_cons_succ,
    List.getElem?_cons_zero, Option.some.injEq, Prod.mk.injEq] at last
  rw [last.1, last.2] at row
  rw [last.2] at bits
  exact ⟨assembly, returned, length, row.trans (by decide +kernel), bits.trans (by decide +kernel),
    image⟩

end CommandLine
end NibbleMachine
