import Courseware.Markdown.BlockReader
import Courseware.Proofs.Markdown.Definitions

/-!
# Blocks cut no placeholder

A heading or a thematic break that nothing encloses starts where a line starts and stops where the content
of a line stops, and the text of a heading is what is left of lines when their ends, their indents, number
signs and definitions are gone. While lines are read, all of this is known of the lines of the open leaf
and of the blocks that have been added, as `BlockReader.Whole` says. Hence these blocks of a text that cuts
no placeholder can be cut out of it without cutting any.
-/

namespace Courseware.Markdown

variable {sentinels : Sentinels} {count : Nat} {text : Text}

/-! ## Headings -/

namespace Heading

/-- The end of a heading that is dropped consists of blanks and number signs. -/
theorem exists_of_dropClosing (steps : Nat) (reversed : Text) :
    ∃ dropped, reversed = dropped ++ dropClosing steps reversed ∧
      ∀ letter ∈ dropped, Sentinels.isOutside letter = true := by
  induction steps generalizing reversed with
  | zero => exact ⟨[], rfl, nofun⟩
  | succ steps ih =>
    have hblank : reversed = reversed.takeWhile isSpace ++ reversed.dropWhile isSpace :=
      List.takeWhile_append_dropWhile.symm
    have houtside : ∀ letter ∈ reversed.takeWhile isSpace, Sentinels.isOutside letter = true :=
      fun letter hletter => isOutside_of_isSpace (List.mem_takeWhile_imp hletter)
    unfold dropClosing
    generalize hword :
      (reversed.dropWhile isSpace).takeWhile (fun letter => !isSpace letter) = word
    by_cases hsigns : (!word.isEmpty && word.all (· == '#')) = true
    · obtain ⟨dropped, hdropped, hall⟩ := ih ((reversed.dropWhile isSpace).drop word.length)
      refine ⟨reversed.takeWhile isSpace ++ word ++ dropped, ?_, ?_⟩
      · have hsplit : word ++ (reversed.dropWhile isSpace).drop word.length =
            reversed.dropWhile isSpace := by
          rw [← hword]
          exact List.prefix_iff_eq_append.mp (List.takeWhile_prefix _)
        simp only [if_pos hsigns]
        rw [List.append_assoc, ← hdropped, List.append_assoc, hsplit]
        exact hblank
      · rw [Bool.and_eq_true, List.all_eq_true] at hsigns
        rw [List.forall_mem_append, List.forall_mem_append]
        refine ⟨⟨houtside, ?_⟩, hall⟩
        intro letter hletter
        obtain rfl := beq_iff_eq.mp (hsigns.2 letter hletter)
        decide
    · refine ⟨reversed.takeWhile isSpace, ?_, houtside⟩
      simp only [if_neg hsigns]
      exact hblank

theorem intact_passageOf (reserved : sentinels.Reserved) {line : Line} {rest : Text}
    (intact : sentinels.Intact count rest) : sentinels.Intact count (passageOf line rest).text := by
  have hlead : ∀ letter : Char, (isSpace letter || letter == '#') = true →
      Sentinels.isOutside letter = true := by
    intro letter hletter
    rw [Bool.or_eq_true, beq_iff_eq] at hletter
    rcases hletter with hspace | rfl
    · exact isOutside_of_isSpace hspace
    · decide
  have hkept := intact.dropWhile reserved hlead
  unfold passageOf
  generalize rest.dropWhile (fun letter => isSpace letter || letter == '#') = kept at hkept ⊢
  obtain ⟨dropped, hdropped, hall⟩ := exists_of_dropClosing kept.length kept.reverse
  rw [← List.reverse_reverse kept, hdropped, List.reverse_append] at hkept
  refine hkept.left_of_isOutside reserved ?_
  intro letter hletter
  exact hall letter (List.mem_reverse.mp hletter)

/-- The passage of a heading that is read. -/
theorem intact_of_read? (reserved : sentinels.Reserved) {line : Line} {cursor : Cursor}
    {depth : Nat} {passage : Passage} (intact : sentinels.Intact count cursor.rest)
    (h : read? line cursor = some (depth, passage)) : sentinels.Intact count passage.text := by
  obtain ⟨content, hcontent, h⟩ := Option.bind_eq_some_iff.mp h
  obtain ⟨_, heq⟩ := Option.ite_none_left_eq_some.mp h
  cases heq
  have hstart := Cursor.intact_skipAll reserved intact
  rw [Cursor.rest_skipAll_of_unindented? hcontent] at hstart
  apply intact_passageOf reserved
  apply hstart.dropWhile reserved
  intro letter hletter
  obtain rfl := beq_iff_eq.mp hletter
  decide

end Heading

/-! ## Lines of text -/

/-- A line of text that starts where no placeholder is cut and cuts none itself. -/
structure ContentLine.Whole (sentinels : Sentinels) (count : Nat) (text : Text)
    (line : ContentLine) : Prop where
  intact : sentinels.Intact count line.text
  start : sentinels.Uncut count text line.start
  ending : ∀ letter ∈ line.ending, isLineEnd letter = true

namespace Leaf

/-- A leaf of which the lines, if they are text, cut no placeholder. -/
def Whole (sentinels : Sentinels) (count : Nat) (text : Text) : Leaf → Prop
  | content underline lines =>
    (∀ line ∈ underline, line.Whole sentinels count text) ∧
      ∀ line ∈ lines, line.Whole sentinels count text
  | _ => True

variable {lines : List ContentLine}

/-- The passage of lines of text. -/
theorem intact_passage (reserved : sentinels.Reserved)
    (whole : ∀ line ∈ lines, line.Whole sentinels count text) :
    sentinels.Intact count (passage lines).text := by
  cases lines with
  | nil => exact .nil
  | cons last earlier =>
    obtain ⟨hlast, hearlier⟩ := List.forall_mem_cons.mp whole
    rw [passage, List.map_cons, join, List.flatMap_def]
    refine (Sentinels.Intact.flatten ?_).append hlast.intact
    intro part hpart
    obtain ⟨⟨written, ending⟩, hmem, rfl⟩ := List.mem_map.mp hpart
    obtain ⟨line, hline, heq⟩ := List.mem_map.mp (List.mem_reverse.mp hmem)
    cases heq
    have hwhole := hearlier line hline
    exact hwhole.intact.append (intact_of_isLineEnd reserved hwhole.ending)

/-- What is left of lines of text starts where one of them does. -/
theorem uncut_startOf (intact : sentinels.Intact count text)
    (whole : ∀ line ∈ lines, line.Whole sentinels count text) (rest : Passage) :
    sentinels.Uncut count text (startOf lines rest) := by
  unfold startOf
  cases hline : lines[rest.later.length]? with
  | none => exact .zero intact
  | some line => exact (whole line (List.mem_of_getElem? hline)).start

end Leaf

/-- A block that covers, if it is a heading or a thematic break, a part of a text that can be cut out. -/
def Block.Whole (sentinels : Sentinels) (count : Nat) (text : Text) : Block → Prop
  | heading _ passage span =>
    sentinels.Intact count passage.text ∧ sentinels.Uncut count text span.start ∧
      sentinels.Uncut count text span.stop
  | thematicBreak span =>
    sentinels.Uncut count text span.start ∧ sentinels.Uncut count text span.stop
  | _ => True

/-! ## Reading lines -/

namespace BlockReader

/-- A reader of a text whose lines and blocks cut no placeholder. -/
structure Whole (sentinels : Sentinels) (count : Nat) (text : Text) (reader : BlockReader) :
    Prop where
  blocks : ∀ block ∈ reader.blocks, block.Whole sentinels count text
  leaf : reader.leaf.Whole sentinels count text

/-- Containers that go on leave what follows their markers. -/
theorem intact_continueFrames (reserved : sentinels.Reserved) {cursor : Cursor}
    (intact : sentinels.Intact count cursor.rest) (frames : List OpenContainer) :
    sentinels.Intact count (continueFrames cursor frames).2.rest := by
  induction frames generalizing cursor with
  | nil => exact intact
  | cons frame inner ih =>
    unfold continueFrames
    split
    · exact intact
    · next opened next hcontinue =>
      exact ih (OpenContainer.intact_of_continue? reserved intact hcontinue)

namespace Whole

variable {reader : BlockReader} {line : Line} {cursor : Cursor} {underline : Option ContentLine}
  {lines : List ContentLine}

theorem initial : BlockReader.initial.Whole sentinels count text := ⟨nofun, trivial⟩

/-! ### Adding blocks -/

theorem emit (whole : reader.Whole sentinels count text) {block : Block}
    (h : block.Whole sentinels count text) : (reader.emit block).Whole sentinels count text := by
  unfold BlockReader.emit
  split
  · exact ⟨List.forall_mem_cons.mpr ⟨h, whole.blocks⟩, whole.leaf⟩
  · exact ⟨whole.blocks, whole.leaf⟩

theorem emitParagraph (whole : reader.Whole sentinels count text) (start : Nat)
    (passage : Passage) : (reader.emitParagraph start passage).Whole sentinels count text := by
  unfold BlockReader.emitParagraph
  simp only
  split
  · exact whole
  · exact whole.emit trivial

theorem emitDefinitions (whole : reader.Whole sentinels count text) (labels : List Text) :
    (reader.emitDefinitions labels).Whole sentinels count text := by
  unfold BlockReader.emitDefinitions
  split
  · exact whole
  · exact whole.emit trivial

theorem emitUnderline (whole : reader.Whole sentinels count text)
    (underline : Option ContentLine) :
    (reader.emitUnderline underline).Whole sentinels count text := by
  cases underline with
  | none => exact whole
  | some line => exact whole.emitParagraph _ _

theorem emitContent (whole : reader.Whole sentinels count text) (underline : Option ContentLine)
    (lines : List ContentLine) :
    (reader.emitContent underline lines).Whole sentinels count text := by
  have apart : ∀ labels start passage, (((reader.emitUnderline underline).emitDefinitions
      labels).emitParagraph start passage).Whole sentinels count text := fun labels start passage =>
    ((whole.emitUnderline underline).emitDefinitions labels).emitParagraph start passage
  unfold BlockReader.emitContent
  simp only
  split
  · split
    · exact whole.emitParagraph _ _
    · exact apart _ _ _
  · exact apart _ _ _

/-! ### Closing leaves and containers -/

/-- Whatever the open leaf is, a reader without it is whole. -/
theorem closed (whole : reader.Whole sentinels count text) :
    Whole sentinels count text { reader with leaf := .none } :=
  ⟨whole.blocks, trivial⟩

theorem closeLeaf (whole : reader.Whole sentinels count text) :
    reader.closeLeaf.Whole sentinels count text := by
  unfold BlockReader.closeLeaf
  simp only
  split
  · exact whole.closed
  · exact whole.closed.emitContent _ _
  · exact whole.closed.emit trivial
  · exact whole.closed.emit trivial
  · exact whole.closed.emit trivial
  · exact whole.closed.emit trivial

theorem closeConcrete (whole : reader.Whole sentinels count text) :
    reader.closeConcrete.Whole sentinels count text := by
  unfold BlockReader.closeConcrete
  split
  · exact whole.closed.emit trivial
  · exact whole.closeLeaf
  · exact whole

theorem closeFrames (whole : reader.Whole sentinels count text) (keep : Nat)
    (frames : List OpenContainer) :
    (BlockReader.closeFrames keep reader frames).Whole sentinels count text := by
  cases frames with
  | nil =>
    rw [BlockReader.closeFrames]
    exact ⟨whole.blocks, whole.leaf⟩
  | cons frame outer =>
    induction outer generalizing frame with
    | nil =>
      rw [BlockReader.closeFrames]
      split
      · exact ⟨whole.blocks, whole.leaf⟩
      · exact ⟨List.forall_mem_cons.mpr ⟨trivial, whole.blocks⟩, whole.leaf⟩
    | cons parent rest ih =>
      rw [BlockReader.closeFrames]
      split
      · exact ⟨whole.blocks, whole.leaf⟩
      · exact ih _

theorem settle (whole : reader.Whole sentinels count text) (keep : Nat) :
    (reader.settle keep).Whole sentinels count text :=
  whole.closeLeaf.closeFrames keep _

theorem leave (whole : reader.Whole sentinels count text) (keep : Nat) :
    (reader.leave keep).Whole sentinels count text :=
  ⟨(whole.settle keep).blocks, (whole.settle keep).leaf⟩

/-! ### Taking up lines -/

theorem contentLine (h : line.Whole sentinels count text)
    (intact : sentinels.Intact count cursor.rest) (isLazy : Bool) (cells : Option Nat) :
    (BlockReader.contentLine line cursor isLazy cells).Whole sentinels count text :=
  ⟨intact, h.start, h.ending⟩

/-- A line that is taken up as text, or as a row of a table. -/
theorem readText (whole : reader.Whole sentinels count text) (h : line.Whole sentinels count text)
    (rest : sentinels.Intact count cursor.rest) (keep : Nat) :
    (reader.readText keep line cursor).Whole sentinels count text := by
  have alone : ∀ isLazy cells, (Leaf.content none
      [BlockReader.contentLine line cursor isLazy cells]).Whole sentinels count text :=
    fun isLazy cells => ⟨nofun, List.forall_mem_singleton.mpr (contentLine h rest isLazy cells)⟩
  have after : ∀ {underline lines}, reader.leaf = .content underline lines → ∀ isLazy cells,
      (Leaf.content underline (BlockReader.contentLine line cursor isLazy cells ::
        lines)).Whole sentinels count text := by
    intro underline lines hleaf isLazy cells
    have hwhole := whole.leaf
    rw [hleaf] at hwhole
    exact ⟨hwhole.1, List.forall_mem_cons.mpr ⟨contentLine h rest isLazy cells, hwhole.2⟩⟩
  unfold BlockReader.readText
  simp only
  split
  · split
    · split
      · next hleaf _ => exact ⟨whole.blocks, after hleaf _ _⟩
      · exact ⟨(whole.settle keep).blocks, alone _ _⟩
    · exact ⟨whole.blocks, trivial⟩
  · split
    · next hleaf _ => exact ⟨whole.blocks, after hleaf _ _⟩
    · exact ⟨(whole.settle keep).blocks, alone _ _⟩

/-- A line of a concrete leaf. -/
theorem readConcrete (whole : reader.Whole sentinels count text) (line : Line) (cursor : Cursor) :
    (reader.readConcrete line cursor).Whole sentinels count text := by
  unfold BlockReader.readConcrete
  split
  · split
    · exact ⟨whole.closeLeaf.blocks, whole.closeLeaf.leaf⟩
    · exact ⟨whole.blocks, trivial⟩
  · split
    · exact whole.closeLeaf
    · exact whole
  · split
    · exact whole.closeLeaf
    · exact whole
  · exact whole

theorem giveUpHead (whole : reader.Whole sentinels count text) (head? : Option ContentLine)
    (isApart hasClosed : Bool) :
    (reader.giveUpHead head? isApart hasClosed).Whole sentinels count text := by
  cases head? with
  | none => exact whole
  | some head => exact ⟨whole.blocks, whole.leaf⟩

/-- Opening containers leaves what follows their markers. -/
theorem openFrames (reserved : sentinels.Reserved) (whole : reader.Whole sentinels count text)
    (rest : sentinels.Intact count cursor.rest) (steps continued : Nat) :
    (BlockReader.openFrames line steps reader continued cursor).1.Whole sentinels count text ∧
      sentinels.Intact count
        (BlockReader.openFrames line steps reader continued cursor).2.1.rest := by
  induction steps generalizing reader continued cursor with
  | zero => exact ⟨whole, rest⟩
  | succ steps ih =>
    unfold BlockReader.openFrames
    simp only
    split
    · exact ⟨whole, rest⟩
    · next frame next hopen =>
      have settled := whole.settle continued
      apply ih _ (OpenContainer.intact_of_open? reserved rest hopen)
      exact ⟨settled.blocks, settled.leaf⟩

section
variable (reserved : sentinels.Reserved) (intact : sentinels.Intact count text)
include reserved intact

/-- An underline that makes a heading of the lines before it, or waits. -/
theorem addUnderline (whole : reader.Whole sentinels count text)
    (leaf : (Leaf.content underline lines).Whole sentinels count text)
    (h : line.Whole sentinels count text) (rest : sentinels.Intact count cursor.rest)
    (marker : Char) :
    (reader.addUnderline underline lines marker line cursor).Whole sentinels count text := by
  obtain ⟨hunderline, hlines⟩ := leaf
  have heading : ∀ {reader : BlockReader} {start : Nat} {passage : Passage} (depth : Nat),
      reader.Whole sentinels count text → sentinels.Uncut count text start →
      sentinels.Intact count passage.text → Whole sentinels count text
        { reader.emit (.heading depth passage ⟨start, line.stop⟩) with
          leaf := .content none [], interrupting := false } := by
    intro reader start passage depth whole hstart hpassage
    have hblock : (Block.heading depth passage ⟨start, line.stop⟩).Whole sentinels count text :=
      ⟨hpassage, hstart, h.stop⟩
    exact ⟨(whole.emit hblock).blocks, nofun, nofun⟩
  unfold BlockReader.addUnderline
  simp only
  split
  · next first =>
    have hfirst := hunderline first rfl
    exact heading _ whole hfirst.start
      (Leaf.intact_passage reserved (List.forall_mem_singleton.mpr hfirst))
  · have hbefore := (whole.emitUnderline underline).emitDefinitions (divide lines).1
    split
    · refine ⟨hbefore.blocks, ?_, nofun⟩
      rintro other ⟨⟩
      exact contentLine h rest _ _
    · apply heading _ hbefore (Leaf.uncut_startOf intact hlines _)
      exact Reference.intact_definitions reserved (Leaf.intact_passage reserved hlines)

/-- A line that may be a heading, an underline or a thematic break. -/
theorem orHeading (whole : reader.Whole sentinels count text) (h : line.Whole sentinels count text)
    (rest : sentinels.Intact count cursor.rest) (keep : Nat) (isPierced : Bool) :
    (BlockReader.readFlow.orHeading keep isPierced line cursor reader).Whole sentinels count
      text := by
  unfold BlockReader.readFlow.orHeading
  simp only
  split
  · next depth passage hread =>
    have hblock : (Block.heading depth passage ⟨line.start, line.stop⟩).Whole sentinels count text :=
      ⟨Heading.intact_of_read? reserved rest hread, h.start, h.stop⟩
    exact (whole.leave keep).emit hblock
  · split
    · next underline lines marker hleaf _ _ =>
      have hlines := whole.leaf
      rw [hleaf] at hlines
      exact whole.closed.addUnderline reserved intact hlines h rest marker
    · split
      · have hblock : (Block.thematicBreak ⟨line.start, line.stop⟩).Whole sentinels count text :=
          ⟨h.start, h.stop⟩
        exact (whole.leave keep).emit hblock
      · exact whole.readText h rest keep

/-- A line that does not go on with what is open in a way of its own. -/
theorem begins (whole : reader.Whole sentinels count text) (h : line.Whole sentinels count text)
    (rest : sentinels.Intact count cursor.rest) (keep : Nat) (isPierced : Bool) :
    (BlockReader.readFlow.begins keep isPierced line cursor reader).Whole sentinels count
      text := by
  have left := whole.leave keep
  have tagged : Whole sentinels count text
      { reader with isAfterBar := reader.isAfterBar && !cursor.isTag } := ⟨whole.blocks, whole.leaf⟩
  unfold BlockReader.readFlow.begins
  simp only
  split
  · -- a blank line
    exact left
  · split
    · -- an indented line
      split
      · exact whole.readText h rest keep
      · split
        · exact left.emit trivial
        · exact ⟨left.blocks, trivial⟩
    · split
      · -- a fence
        exact ⟨left.blocks, trivial⟩
      · split
        · -- HTML
          split
          · exact (tagged.leave keep).emit trivial
          · exact ⟨(tagged.leave keep).blocks, trivial⟩
        · exact whole.orHeading reserved intact h rest keep isPierced

/-- A line outside of concrete leaves, after the markers of containers. -/
theorem readFlow (whole : reader.Whole sentinels count text) (h : line.Whole sentinels count text)
    (rest : sentinels.Intact count cursor.rest) (keep : Nat) (isPierced : Bool) :
    (reader.readFlow keep isPierced line cursor).Whole sentinels count text := by
  have begun := whole.begins reserved intact h rest keep isPierced
  unfold BlockReader.readFlow
  simp only
  split
  · split
    · exact ⟨whole.blocks, trivial⟩
    · split
      · exact ⟨whole.blocks, trivial⟩
      · exact begun
  · split
    · exact ⟨(whole.emitContent _ _).blocks, trivial⟩
    · exact begun
  · exact begun

/-- What one line does. -/
theorem read (whole : reader.Whole sentinels count text) (h : line.Whole sentinels count text) :
    (reader.read line).Whole sentinels count text := by
  have hstart : sentinels.Intact count (Cursor.ofLine line).rest := h.content
  have hcontinued := intact_continueFrames reserved hstart reader.frames.reverse
  have reframed : ∀ frames, Whole sentinels count text { reader with frames := frames } :=
    fun _ => ⟨whole.blocks, whole.leaf⟩
  unfold BlockReader.read
  simp only
  generalize (if List.contains _ '>' = true then mark line.start _ else _) = frames
  by_cases hconcrete : ((continueFrames (Cursor.ofLine line) reader.frames.reverse).1.length ==
      frames.length && reader.leaf.isConcrete) = true
  · rw [if_pos hconcrete]
    exact (reframed frames).readConcrete _ _
  · rw [if_neg hconcrete]
    obtain ⟨hopened, hrest⟩ := (reframed frames).openFrames reserved hcontinued line.content.length
      (continueFrames (Cursor.ofLine line) reader.frames.reverse).1.length
    exact (hopened.giveUpHead _ _ _).closeConcrete.readFlow reserved intact h hrest _ _

/-- What the lines of a text do. -/
theorem foldl (whole : reader.Whole sentinels count text) {lines : List Line}
    (h : ∀ line ∈ lines, line.Whole sentinels count text) :
    (lines.foldl BlockReader.read reader).Whole sentinels count text := by
  induction lines generalizing reader with
  | nil => exact whole
  | cons line rest ih =>
    obtain ⟨hline, hrest⟩ := List.forall_mem_cons.mp h
    exact ih (whole.read reserved intact hline) hrest

end
end Whole
end BlockReader

/-! ## Blocks of a text -/

theorem Block.whole_of_mem_ofText (reserved : sentinels.Reserved)
    (intact : sentinels.Intact count text) :
    ∀ block ∈ Block.ofText text, block.Whole sentinels count text := by
  have run := BlockReader.Whole.initial.foldl reserved intact
    (Line.whole_of_mem_ofText reserved intact)
  intro block hblock
  exact (run.settle 0).blocks block (List.mem_reverse.mp hblock)

end Courseware.Markdown
