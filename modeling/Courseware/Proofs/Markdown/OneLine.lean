import Courseware.Markdown.Gfm
import Courseware.Proofs.Markdown.Blocks
import Courseware.Proofs.Markdown.WholeLines

/-!
# What one line of Markdown does

For headings and thematic breaks it does not matter what containers hold, or tables and code. What matters are the
lines of text that are open and that no container encloses, since an underline can make a heading of them.
`BlockReader.Reads` says what one line can do to these lines and to the marks, which are the headings and thematic
breaks that have been read: nothing is left of the lines, or a line is added to them, or a mark ends, whose text is
that of the line or of the lines before it.

Where no container encloses a line, its text is all of the line. So the state in which a line is read behind the
markers of containers (`BlockReader.Placed`) says that a place behind no marker is the start of the line.
-/

namespace Courseware.Markdown

/-! ## Passages of headings -/

/-- Spaces and tabs are all that is skipped. -/
theorem Cursor.exists_skipFrom (column taken : Nat) (text : Text) (columns : Nat) :
    ∃ blank, text = blank ++ (skipFrom column taken text columns).rest ∧
      ∀ letter ∈ blank, isSpace letter = true := by
  fun_induction skipFrom column taken text columns with
  | case1 => exact ⟨[], rfl, List.forall_mem_nil _⟩
  | case2 _ _ _ _ ih =>
    obtain ⟨blank, hblank, hspaces⟩ := ih
    exact ⟨' ' :: blank, congrArg _ hblank, List.forall_mem_cons.mpr ⟨rfl, hspaces⟩⟩
  | case3 _ _ _ _ _ ih =>
    obtain ⟨blank, hblank, hspaces⟩ := ih
    exact ⟨'\t' :: blank, congrArg _ hblank, List.forall_mem_cons.mpr ⟨rfl, hspaces⟩⟩
  | case4 => exact ⟨[], rfl, List.forall_mem_nil _⟩
  | case5 => exact ⟨[], rfl, List.forall_mem_nil _⟩

/-- The bytes before a text are those behind the byte order mark. -/
theorem LineStart.width_of_mark {mark lead : Text} (marked : ∀ letter ∈ mark, letter = '\ufeff')
    (apart : ∀ letter ∈ lead, letter ≠ '\ufeff') (isCut : Bool) :
    (⟨mark ++ lead, isCut⟩ : LineStart).width = Text.width lead := by
  rw [width, List.dropWhile_append_of_pos fun letter h => beq_iff_eq.mpr (marked letter h)]
  cases lead with
  | nil => rfl
  | cons first rest =>
    rw [List.dropWhile_cons_of_neg]
    exact fun h => apart first List.mem_cons_self (beq_iff_eq.mp h)

/-- A passage stands in a text behind blanks and number signs, as many bytes as it knows of. -/
def Passage.StandsIn (text : Text) (passage : Passage) : Prop :=
  ∃ lead after, text = lead ++ (passage.text ++ after) ∧ Text.width lead = passage.start.width ∧
    ∀ letter ∈ lead, (isSpace letter || letter == '#') = true

namespace Passage

variable {text : Text} {passage : Passage}

theorem standsIn_self (h : passage.start.width = 0) : passage.StandsIn passage.text :=
  ⟨[], [], (List.append_nil _).symm, h.symm, nofun⟩

theorem StandsIn.append (h : passage.StandsIn text) (after : Text) : passage.StandsIn (text ++ after) := by
  obtain ⟨lead, rest, rfl, hwidth, hlead⟩ := h
  exact ⟨lead, rest ++ after, by simp only [List.append_assoc], hwidth, hlead⟩

end Passage

/-- The passage behind the markers of a heading stands in the line, if only blanks and number signs stand before. -/
theorem Heading.standsIn_passageOf {line : Line} {before rest : Text} (content : line.content = before ++ rest)
    (marked : ∀ letter ∈ line.mark, letter = '\ufeff')
    (signs : ∀ letter ∈ before, (isSpace letter || letter == '#') = true) :
    (passageOf line rest).StandsIn line.content := by
  let isSign (letter : Char) : Bool := isSpace letter || letter == '#'
  have hsplit : rest.takeWhile isSign ++ rest.dropWhile isSign = rest := List.takeWhile_append_dropWhile
  obtain ⟨lead, kept, hlead, hkept, hwhole⟩ : ∃ lead kept, (∀ letter ∈ lead, isSign letter = true) ∧
      rest.dropWhile isSign = kept ∧ line.content = lead ++ kept := by
    refine ⟨before ++ rest.takeWhile isSign, _, ?_, rfl, ?_⟩
    · exact List.forall_mem_append.mpr ⟨signs, fun letter hletter => List.mem_takeWhile_imp hletter⟩
    · rw [List.append_assoc, hsplit, content]
  have htake : line.content.take (line.content.length - kept.length) = lead := by
    rw [hwhole, List.length_append, Nat.add_sub_cancel, List.take_left]
  obtain ⟨dropped, hdropped, _⟩ := exists_of_dropClosing kept.length kept.reverse
  have htext : (dropClosing kept.length kept.reverse).reverse ++ dropped.reverse = kept := by
    rw [← List.reverse_append, ← hdropped, List.reverse_reverse]
  have hwidth : (⟨line.mark ++ lead, false⟩ : LineStart).width = Text.width lead := by
    refine LineStart.width_of_mark marked (fun letter hletter => ?_) false
    rintro rfl
    exact nomatch hlead _ hletter
  refine ⟨lead, dropped.reverse, ?_, ?_, hlead⟩
  · unfold passageOf
    rw [hkept]
    rw [htext, hwhole]
  · unfold passageOf
    rw [hkept]
    simp only [htake, hwidth]

/-- The passage of a heading that fills a line stands in the line. -/
theorem Heading.standsIn_of_read? {line : Line} {cursor : Cursor} {depth : Nat} {passage : Passage}
    (bare : cursor.rest = line.content) (marked : ∀ letter ∈ line.mark, letter = '\ufeff')
    (h : read? line cursor = some (depth, passage)) : passage.StandsIn line.content := by
  obtain ⟨content, hcontent, h⟩ := Option.bind_eq_some_iff.mp h
  obtain ⟨_, heq⟩ := Option.ite_none_left_eq_some.mp h
  cases heq
  obtain ⟨blank, hblank, hspaces⟩ := Cursor.exists_skipFrom cursor.column cursor.taken cursor.rest cursor.indent
  have hrest : (Cursor.skipFrom cursor.column cursor.taken cursor.rest cursor.indent).rest = content :=
    Cursor.rest_skipAll_of_unindented? hcontent
  have hsigns : content.takeWhile (· == '#') ++ content.dropWhile (· == '#') = content :=
    List.takeWhile_append_dropWhile
  have hline : line.content =
      (blank ++ content.takeWhile (· == '#')) ++ content.dropWhile (· == '#') := by
    rw [List.append_assoc, hsigns, ← hrest]
    exact bare.symm.trans hblank
  refine standsIn_passageOf hline marked
    (List.forall_mem_append.mpr ⟨fun letter hletter => ?_, fun letter hletter => ?_⟩)
  · rw [hspaces letter hletter, Bool.true_or]
  · rw [List.mem_takeWhile_imp (p := (· == '#')) hletter, Bool.or_true]

/-- The start of what definitions leave is the start of one of the lines. -/
theorem BlockReader.width_start_divide {lines : List ContentLine} (bare : ∀ line ∈ lines, line.before.width = 0) :
    (divide lines).2.start.width = 0 := by
  have start : (Leaf.passage lines).start.width = 0 ∧ ∀ later ∈ (Leaf.passage lines).later, later.width = 0 := by
    have hall : ∀ start ∈ lines.reverse.map ContentLine.before, start.width = 0 := by
      rw [List.forall_mem_map]
      exact fun line hline => bare line (List.mem_reverse.mp hline)
    unfold Leaf.passage
    generalize lines.reverse.map ContentLine.before = starts at hall
    cases starts with
    | nil => exact ⟨rfl, nofun⟩
    | cons first rest => exact List.forall_mem_cons.mp hall
  have definitions : ∀ steps passage, passage.start.width = 0 → (∀ later ∈ passage.later, later.width = 0) →
      (Reference.definitions steps passage).2.start.width = 0 := by
    intro steps
    induction steps with
    | zero => exact fun passage hstart _ => hstart
    | succ steps ih =>
      intro passage hstart hlater
      unfold Reference.definitions
      split
      · next label rest hread =>
        apply ih
        · unfold Passage.dropTo
          split
          · exact hstart
          · next passed _ =>
            cases hfound : passage.later[passed]? with
            | none => exact hstart
            | some found => exact hlater found (List.mem_of_getElem? hfound)
        · unfold Passage.dropTo
          split
          · exact hlater
          · exact fun later h => hlater later (List.mem_of_mem_drop h)
      · exact hstart
  exact definitions _ _ start.1 start.2

/-! ## Marks and open lines -/

/-- A heading or a thematic break that has been read: its span, and the passage of a heading. -/
structure Mark where
  span : Span
  passage? : Option Passage

/-- The mark that a block is. -/
def Mark.ofBlock? : Block → Option Mark
  | .heading _ passage span => some ⟨span, some passage⟩
  | .thematicBreak span => some ⟨span, none⟩
  | _ => none

/-- The passage of a mark, if it is a heading, stands in a text. -/
def Mark.StandsIn (text : Text) (mark : Mark) : Prop := ∀ passage ∈ mark.passage?, passage.StandsIn text

/-- The lines of text in a leaf, latest first. -/
def Leaf.lines : Leaf → List ContentLine
  | content underline lines => lines ++ underline.toList
  | _ => []

namespace BlockReader

/-- The headings and thematic breaks that have been read, latest first. -/
def marks (reader : BlockReader) : List Mark := reader.blocks.filterMap Mark.ofBlock?

/-- The open lines of text that no container encloses, latest first. -/
def lines (reader : BlockReader) : List ContentLine :=
  if reader.frames.length = 0 then reader.leaf.lines else []

theorem lines_of_outside {reader : BlockReader} (h : reader.frames.length = 0) :
    reader.lines = reader.leaf.lines := if_pos h

theorem lines_of_inside {reader : BlockReader} (h : reader.frames.length ≠ 0) : reader.lines = [] := if_neg h

theorem lines_of_leaf {reader : BlockReader} (h : reader.leaf.lines = []) : reader.lines = [] := by
  rw [lines, h, ite_self]

/-- An operation that adds blocks none of which is a mark, and leaves everything else open. -/
structure Adds (reader next : BlockReader) : Prop where
  marks : next.marks = reader.marks
  leaf : next.leaf = reader.leaf
  depth : next.frames.length = reader.frames.length

namespace Adds

variable {reader middle next : BlockReader}

theorem refl (reader : BlockReader) : Adds reader reader := ⟨rfl, rfl, rfl⟩

theorem trans (first : Adds reader middle) (second : Adds middle next) : Adds reader next :=
  ⟨second.marks.trans first.marks, second.leaf.trans first.leaf, second.depth.trans first.depth⟩

theorem lines (adds : Adds reader next) : next.lines = reader.lines := by
  rw [BlockReader.lines, BlockReader.lines, adds.depth, adds.leaf]

theorem emit (reader : BlockReader) {block : Block} (h : Mark.ofBlock? block = none) :
    Adds reader (reader.emit block) := by
  unfold BlockReader.emit
  split
  · exact ⟨List.filterMap_cons_none h, rfl, rfl⟩
  · next hframes => exact ⟨rfl, rfl, by rw [hframes]; rfl⟩

theorem emitParagraph (reader : BlockReader) (start : Nat) (passage : Passage) :
    Adds reader (reader.emitParagraph start passage) := by
  unfold BlockReader.emitParagraph
  simp only
  split
  · exact .refl _
  · exact .emit _ rfl

theorem emitDefinitions (reader : BlockReader) (labels : List Text) :
    Adds reader (reader.emitDefinitions labels) := by
  unfold BlockReader.emitDefinitions
  split
  · exact .refl _
  · exact .emit _ rfl

theorem emitUnderline (reader : BlockReader) (underline : Option ContentLine) :
    Adds reader (reader.emitUnderline underline) := by
  cases underline with
  | none => exact .refl _
  | some line => exact .emitParagraph _ _ _

theorem emitContent (reader : BlockReader) (underline : Option ContentLine) (lines : List ContentLine) :
    Adds reader (reader.emitContent underline lines) := by
  have apart : ∀ labels start passage, Adds reader
      (((reader.emitUnderline underline).emitDefinitions labels).emitParagraph start passage) :=
    fun labels start passage =>
      ((emitUnderline _ _).trans (emitDefinitions _ _)).trans (emitParagraph _ _ _)
  unfold BlockReader.emitContent
  simp only
  split
  · split
    · exact .emitParagraph _ _ _
    · exact apart _ _ _
  · exact apart _ _ _

/-- Closing the open leaf adds its blocks to a reader without it. -/
theorem closeLeaf (reader : BlockReader) : Adds { reader with leaf := .none } reader.closeLeaf := by
  unfold BlockReader.closeLeaf
  simp only
  split
  · exact .refl _
  · exact .emitContent _ _ _
  · exact .emit _ rfl
  · exact .emit _ rfl
  · exact .emit _ rfl
  · exact .emit _ rfl

theorem giveUpHead (reader : BlockReader) (head? : Option ContentLine) (isApart hasClosed : Bool) :
    Adds reader (reader.giveUpHead head? isApart hasClosed) := by
  cases head? with
  | none => exact .refl _
  | some head => exact ⟨rfl, rfl, rfl⟩

end Adds

/-- An operation that closes the open leaf and all but the outermost `keep` containers. -/
structure Closes (keep : Nat) (reader next : BlockReader) : Prop where
  marks : next.marks = reader.marks
  leaf : next.leaf = .none
  depth : keep ≤ reader.frames.length → next.frames.length = keep

namespace Closes

variable {keep : Nat}

theorem closeFrames {reader : BlockReader} (h : reader.leaf = .none) (frames : List OpenContainer) :
    (BlockReader.closeFrames keep reader frames).marks = reader.marks ∧
      (BlockReader.closeFrames keep reader frames).leaf = .none ∧
      (keep ≤ frames.length → (BlockReader.closeFrames keep reader frames).frames.length = keep) := by
  cases frames with
  | nil =>
    rw [BlockReader.closeFrames]
    exact ⟨rfl, h, fun hkeep => (Nat.le_zero.mp hkeep).symm⟩
  | cons frame outer =>
    induction outer generalizing frame with
    | nil =>
      rw [BlockReader.closeFrames]
      split
      · next hfew => exact ⟨rfl, h, fun hkeep => Nat.le_antisymm hfew hkeep⟩
      · next hmany => exact ⟨List.filterMap_cons_none rfl, h, fun _ => (Nat.le_zero.mp (Nat.not_lt.mp hmany)).symm⟩
    | cons parent rest ih =>
      rw [BlockReader.closeFrames]
      split
      · next hfew => exact ⟨rfl, h, fun hkeep => Nat.le_antisymm hfew hkeep⟩
      · next hmany =>
        obtain ⟨hmarks, hleaf, hdepth⟩ := ih _
        exact ⟨hmarks, hleaf, fun _ => hdepth (Nat.not_lt.mp hmany)⟩

theorem settle (reader : BlockReader) (keep : Nat) : Closes keep reader (reader.settle keep) := by
  have adds := Adds.closeLeaf reader
  obtain ⟨hmarks, hleaf, hdepth⟩ := @closeFrames keep reader.closeLeaf adds.leaf reader.closeLeaf.frames
  refine ⟨hmarks.trans adds.marks, hleaf, fun hkeep => hdepth ?_⟩
  rwa [adds.depth]

theorem leave (reader : BlockReader) (keep : Nat) : Closes keep reader (reader.leave keep) :=
  ⟨(settle reader keep).marks, (settle reader keep).leaf, (settle reader keep).depth⟩

end Closes

/-! ## Lines and places in them -/

/-- A line of text that is a whole line of the document. -/
structure Bare (line : Line) (found : ContentLine) : Prop where
  start : found.start = line.start
  before : found.before.width = 0
  text : found.text = line.content
  ending : found.ending = line.ending
  full : found.text ≠ []

/-- A place in a line behind the markers of the outermost `keep` containers. Behind none it is the start of the
line. -/
structure Placed (reader : BlockReader) (keep : Nat) (line : Line) (cursor : Cursor) : Prop where
  keeps : keep ≤ reader.frames.length
  bare : keep = 0 → cursor.rest = line.content
  marked : ∀ letter ∈ line.mark, letter = '\ufeff'

/-- A mark that ends with a line: it is the line, or an underline that had nothing to underline before, or what
definitions have left of lines before. -/
inductive Ends (line : Line) (lines : List ContentLine) (mark : Mark) : Prop
  | alone (span : mark.span = ⟨line.start, line.stop⟩) (stands : mark.StandsIn line.content)
  | underlined (first : ContentLine) (only : lines = [first]) (span : mark.span = ⟨first.start, line.stop⟩)
      (passage : mark.passage? = some (Leaf.passage [first]))
  | under (last : ContentLine) (earlier others : List ContentLine) (split : lines = last :: earlier ++ others)
      (full : (divide (last :: earlier)).2.text ≠ [])
      (span : mark.span = ⟨Leaf.startOf (last :: earlier) (divide (last :: earlier)).2, line.stop⟩)
      (passage : mark.passage? = some (divide (last :: earlier)).2)

/-- What one line can do to marks and open lines of text. -/
inductive Reads (line : Line) (reader next : BlockReader) : Prop
  | closes (marks : next.marks = reader.marks) (lines : next.lines = [])
  | takes (marks : next.marks = reader.marks) (found : ContentLine) (kept : List ContentLine)
      (bare : Bare line found) (lines : next.lines = found :: kept) (before : kept = [] ∨ kept = reader.lines)
  | ends (mark : Mark) (marks : next.marks = mark :: reader.marks) (lines : next.lines = [])
      (place : Ends line reader.lines mark)

namespace Reads

variable {line : Line} {reader middle next : BlockReader} {keep : Nat} {cursor : Cursor}

/-- What adds no mark and closes lines may be done before. -/
theorem after (marks : middle.marks = reader.marks) (lines : middle.lines = [] ∨ middle.lines = reader.lines)
    (reads : Reads line middle next) : Reads line reader next := by
  cases reads with
  | closes hmarks hlines => exact .closes (hmarks.trans marks) hlines
  | takes hmarks found kept bare hlines before =>
    refine .takes (hmarks.trans marks) found kept bare hlines ?_
    rcases before with hnone | rfl
    · exact .inl hnone
    · exact lines
  | ends mark hmarks hlines place =>
    refine .ends mark (hmarks.trans (congrArg _ marks)) hlines ?_
    rcases lines with hnone | hsame
    · rw [hnone] at place
      cases place with
      | alone span stands => exact .alone span stands
      | underlined first only => exact nomatch only
      | under last earlier others split => exact nomatch split
    · rwa [← hsame]

/-- The leaf is one without open lines of text. -/
theorem of_leaf (marks : next.marks = reader.marks) (leaf : next.leaf.lines = []) : Reads line reader next :=
  .closes marks (lines_of_leaf leaf)

/-- A line of text is open. -/
theorem of_line {found : ContentLine} {kept : List ContentLine} (marks : next.marks = reader.marks)
    (leaf : next.leaf.lines = found :: kept) (bare : next.frames.length = 0 → Bare line found)
    (before : next.frames.length = 0 → kept = [] ∨ kept = reader.lines) : Reads line reader next := by
  by_cases houtside : next.frames.length = 0
  · exact .takes marks found kept (bare houtside) ((lines_of_outside houtside).trans leaf) (before houtside)
  · exact .closes marks (lines_of_inside houtside)

/-- A block is added. It is a mark if it is a heading or a thematic break that no container encloses. -/
theorem of_emit {block : Block} (marks : middle.marks = reader.marks)
    (emitted : next.marks = (middle.emit block).marks) (leaf : next.leaf.lines = [])
    (place : middle.frames.length = 0 → ∀ mark ∈ Mark.ofBlock? block, Ends line reader.lines mark) :
    Reads line reader next := by
  unfold BlockReader.emit at emitted
  split at emitted
  · next hframes =>
    cases hmark : Mark.ofBlock? block with
    | none => exact of_leaf (emitted.trans ((List.filterMap_cons_none hmark).trans marks)) leaf
    | some mark =>
      refine .ends mark (emitted.trans ((List.filterMap_cons_some hmark).trans (congrArg _ marks)))
        (lines_of_leaf leaf) (place ?_ mark hmark)
      rw [hframes]
      rfl
  · exact of_leaf (emitted.trans marks) leaf

end Reads

/-- The line of text that is read from a place on. -/
theorem Placed.bare_contentLine {line : Line} {reader : BlockReader} {keep : Nat} {cursor : Cursor}
    (placed : Placed reader keep line cursor) (visible : cursor.isBlank = false) (h : keep = 0) (isLazy : Bool)
    (cells : Option Nat) : Bare line (contentLine line cursor isLazy cells) where
  start := rfl
  before := by
    have hlead : leadOf line cursor = line.mark ++ [] := by
      rw [leadOf, placed.bare h, Nat.sub_self, List.take_zero]
    rw [contentLine, hlead]
    exact LineStart.width_of_mark placed.marked (fun letter hletter => absurd hletter List.not_mem_nil) _
  text := placed.bare h
  ending := rfl
  full := by
    rintro hnone
    rw [Cursor.isBlank, show cursor.rest = [] from hnone] at visible
    exact nomatch visible

namespace Reads

variable {line : Line} {reader middle next : BlockReader} {keep : Nat} {cursor : Cursor}

/-- A line that is taken up as text, or as a row of a table. -/
theorem readText (placed : Placed reader keep line cursor) (visible : cursor.isBlank = false) :
    Reads line reader (reader.readText keep line cursor) := by
  have alone : ∀ isLazy cells interrupting isAfterBar, Reads line reader { reader.settle keep with
      leaf := .content none [contentLine line cursor isLazy cells]
      interrupting := interrupting, isAfterBar := isAfterBar } := by
    intro isLazy cells interrupting isAfterBar
    have closes := Closes.settle reader keep
    refine of_line closes.marks rfl (fun houtside => ?_) fun _ => .inl rfl
    exact placed.bare_contentLine visible ((closes.depth placed.keeps).symm.trans houtside) _ _
  have after : ∀ {underline lines}, reader.leaf = .content underline lines →
      ∀ isLazy cells interrupting isAfterBar, Reads line reader { reader with
        leaf := .content underline (contentLine line cursor isLazy cells :: lines)
        interrupting := interrupting, isAfterBar := isAfterBar } := by
    intro underline lines hleaf isLazy cells interrupting isAfterBar
    refine of_line rfl rfl (fun houtside => ?_) fun houtside => .inr ?_
    · exact placed.bare_contentLine visible (Nat.le_zero.mp (houtside ▸ placed.keeps)) _ _
    · have hopen : reader.lines = reader.leaf.lines := lines_of_outside houtside
      rw [hopen, hleaf]
      rfl
  unfold BlockReader.readText
  simp only
  split
  · split
    · split
      · next hleaf _ => exact after hleaf _ _ _ _
      · exact alone _ _ _ _
    · exact of_leaf rfl rfl
  · split
    · next hleaf _ => exact after hleaf _ _ _ _
    · exact alone _ _ _ _

/-- An underline makes a heading of the lines before it, or it waits. -/
theorem addUnderline {underline : Option ContentLine} {lines : List ContentLine}
    (hleaf : reader.leaf = .content underline lines) (placed : Placed reader keep line cursor)
    (visible : cursor.isBlank = false) (marker : Char) :
    Reads line reader
      (BlockReader.addUnderline { reader with leaf := .none } underline lines marker line cursor) := by
  have heading : ∀ {middle : BlockReader} {start : Nat} (depth : Nat) (passage : Passage),
      Adds { reader with leaf := .none } middle →
      (reader.frames.length = 0 → Ends line reader.lines ⟨⟨start, line.stop⟩, some passage⟩) →
      Reads line reader { middle.emit (.heading depth passage ⟨start, line.stop⟩) with
        leaf := .content none [], interrupting := false } := by
    intro middle start depth passage adds place
    refine of_emit adds.marks rfl rfl fun houtside => ?_
    rintro mark ⟨⟩
    exact place (adds.depth.symm.trans houtside)
  have hopen : reader.frames.length = 0 → reader.lines = lines ++ underline.toList := by
    intro houtside
    rw [lines_of_outside houtside, hleaf]
    rfl
  unfold BlockReader.addUnderline
  simp only
  split
  · next first =>
    exact heading _ _ (.refl _) fun houtside => .underlined first (hopen houtside) rfl rfl
  · have adds : Adds { reader with leaf := .none }
        ((BlockReader.emitUnderline { reader with leaf := .none } underline).emitDefinitions
          (divide lines).1) := (Adds.emitUnderline _ _).trans (.emitDefinitions _ _)
    split
    · refine of_line adds.marks rfl (fun houtside => ?_) fun _ => .inl rfl
      have hkeep : keep = 0 := Nat.le_zero.mp ((adds.depth.symm.trans houtside) ▸ placed.keeps)
      exact placed.bare_contentLine visible hkeep _ _
    · next full =>
      have hfull : (divide lines).2.text ≠ [] := fun hnone => full (by rw [hnone]; rfl)
      refine heading _ _ adds fun houtside => ?_
      cases lines with
      | nil => exact absurd rfl hfull
      | cons last earlier =>
        exact .under last earlier _ (hopen houtside) hfull rfl rfl

/-- A line that may be a heading, an underline or a thematic break. -/
theorem orHeading (placed : Placed reader keep line cursor) (visible : cursor.isBlank = false) (isPierced : Bool) :
    Reads line reader (BlockReader.readFlow.orHeading keep isPierced line cursor reader) := by
  have closes := Closes.leave reader keep
  have whole : ∀ {block : Block},
      (keep = 0 → ∀ mark ∈ Mark.ofBlock? block, mark.span = ⟨line.start, line.stop⟩ ∧
        mark.StandsIn line.content) →
      Reads line reader ((reader.leave keep).emit block) := by
    intro block place
    refine of_emit closes.marks rfl ?_ fun houtside mark hmark => ?_
    · rw [(show ((reader.leave keep).emit block).leaf = (reader.leave keep).leaf by
        unfold BlockReader.emit; split <;> rfl), closes.leaf]
      rfl
    · obtain ⟨hspan, hstands⟩ := place ((closes.depth placed.keeps).symm.trans houtside) mark hmark
      exact .alone hspan hstands
  unfold BlockReader.readFlow.orHeading
  simp only
  split
  · next depth passage hread =>
    refine whole fun hkeep => ?_
    rintro mark ⟨⟩
    refine ⟨rfl, ?_⟩
    rintro passage ⟨⟩
    exact Heading.standsIn_of_read? (placed.bare hkeep) placed.marked hread
  · split
    · next hleaf _ _ => exact addUnderline hleaf placed visible _
    · split
      · refine whole fun _ => ?_
        rintro mark ⟨⟩
        refine ⟨rfl, ?_⟩
        rintro passage ⟨⟩
      · exact readText placed visible

/-- A line that does not go on with what is open in a way of its own. -/
theorem begins (placed : Placed reader keep line cursor) (isPierced : Bool) :
    Reads line reader (BlockReader.readFlow.begins keep isPierced line cursor reader) := by
  have left : ∀ {other next : BlockReader}, other.marks = reader.marks →
      next.marks = (other.leave keep).marks → next.leaf.lines = [] → Reads line reader next :=
    fun same marks leaf => of_leaf (marks.trans ((Closes.leave _ keep).marks.trans same)) leaf
  have empty : ∀ other : BlockReader, (other.leave keep).leaf.lines = [] := by
    intro other
    rw [(Closes.leave other keep).leaf]
    rfl
  have added : ∀ {other : BlockReader} {block : Block}, other.marks = reader.marks →
      Mark.ofBlock? block = none → Reads line reader ((other.leave keep).emit block) := by
    intro other block same hnone
    have adds := Adds.emit (other.leave keep) hnone
    exact left same adds.marks (by rw [adds.leaf, empty])
  unfold BlockReader.readFlow.begins
  simp only
  split
  · -- a blank line
    exact left rfl rfl (empty reader)
  · next hvisible =>
    have visible : cursor.isBlank = false := Bool.eq_false_iff.mpr hvisible
    split
    · -- an indented line
      split
      · exact readText placed visible
      · split
        · exact added rfl rfl
        · exact left rfl rfl rfl
    · split
      · -- a fence
        exact left rfl rfl rfl
      · split
        · -- HTML
          split
          · exact added rfl rfl
          · exact @left { reader with isAfterBar := reader.isAfterBar && !cursor.isTag } _ rfl rfl rfl
        · exact orHeading placed visible isPierced

/-- A line outside of concrete leaves, after the markers of containers. -/
theorem readFlow (placed : Placed reader keep line cursor) (isPierced : Bool) :
    Reads line reader (reader.readFlow keep isPierced line cursor) := by
  have begun := begins placed isPierced
  unfold BlockReader.readFlow
  simp only
  split
  · split
    · exact of_leaf rfl rfl
    · split
      · exact of_leaf rfl rfl
      · exact begun
  · split
    · exact of_leaf (Adds.emitContent _ _ _).marks rfl
    · exact begun
  · exact begun

/-- A line of a concrete leaf. -/
theorem readConcrete (concrete : reader.leaf.isConcrete = true) (line : Line) (cursor : Cursor) :
    Reads line reader (reader.readConcrete line cursor) := by
  have closed : ∀ {next : BlockReader}, next.marks = reader.closeLeaf.marks → next.leaf = reader.closeLeaf.leaf →
      Reads line reader next := by
    intro next marks leaf
    have adds := Adds.closeLeaf reader
    refine of_leaf (marks.trans adds.marks) ?_
    rw [leaf, adds.leaf]
    rfl
  unfold BlockReader.readConcrete
  split
  · split
    · exact closed rfl rfl
    · exact of_leaf rfl rfl
  · next hleaf =>
    split
    · exact closed rfl rfl
    · exact of_leaf rfl (by rw [hleaf]; rfl)
  · next hleaf =>
    split
    · exact closed rfl rfl
    · exact of_leaf rfl (by rw [hleaf]; rfl)
  · next notFence _ notHtml =>
    cases hleaf : reader.leaf with
    | fence => exact (notFence _ _ _ _ hleaf).elim
    | html block => exact (notHtml block hleaf).elim
    | _ =>
      rw [hleaf] at concrete
      exact nomatch concrete

end Reads

/-! ## The start of a line -/

/-- Containers that go on: no more than there are, and where none does, nothing is taken from the line. -/
theorem spec_of_continueFrames (cursor : Cursor) (frames : List OpenContainer) :
    (continueFrames cursor frames).1.length ≤ frames.length ∧
      ((continueFrames cursor frames).1.length = 0 → (continueFrames cursor frames).2 = cursor) := by
  induction frames generalizing cursor with
  | nil => exact ⟨Nat.le_refl _, fun _ => rfl⟩
  | cons frame inner ih =>
    unfold continueFrames
    split
    · exact ⟨Nat.zero_le _, fun _ => rfl⟩
    · next next after hcontinue =>
      exact ⟨Nat.succ_le_succ (ih after).1, nofun⟩

/-- Opening containers adds no mark. Either nothing changes, or there is a container then. -/
theorem spec_of_openFrames (line : Line) (steps : Nat) (reader : BlockReader) (continued : Nat) (cursor : Cursor) :
    (openFrames line steps reader continued cursor).1.marks = reader.marks ∧
      (openFrames line steps reader continued cursor = (reader, cursor, false) ∨
        (openFrames line steps reader continued cursor).2.2 = true ∧
          (openFrames line steps reader continued cursor).1.frames.length ≠ 0) := by
  induction steps generalizing reader continued cursor with
  | zero => exact ⟨rfl, .inl rfl⟩
  | succ steps ih =>
    unfold openFrames
    simp only
    split
    · exact ⟨rfl, .inl rfl⟩
    · next frame after hopen =>
      have closes := Closes.settle reader continued
      generalize hopened : ({ reader.settle continued with
        frames := frame :: (reader.settle continued).frames
        interrupting := continued == reader.frames.length && reader.interrupting } : BlockReader) = opened
      have hmarks : opened.marks = reader.marks := by rw [← hopened]; exact closes.marks
      have hframes : opened.frames.length ≠ 0 := by rw [← hopened]; exact Nat.succ_ne_zero _
      obtain ⟨hinner, hchange⟩ := ih opened (continued + 1) after
      refine ⟨hinner.trans hmarks, .inr ⟨rfl, ?_⟩⟩
      rcases hchange with hsame | ⟨_, hdeep⟩
      · rw [hsame]
        exact hframes
      · exact hdeep

/-- A leaf that a lazy line does not continue has no lines of text. -/
theorem spec_of_closeConcrete (reader : BlockReader) :
    reader.closeConcrete.marks = reader.marks ∧ reader.closeConcrete.frames.length = reader.frames.length ∧
      reader.closeConcrete.lines = reader.lines := by
  have closed : ∀ {next : BlockReader}, Adds { reader with leaf := .none } next → reader.leaf.lines = [] →
      next.marks = reader.marks ∧ next.frames.length = reader.frames.length ∧ next.lines = reader.lines := by
    intro next adds hleaf
    refine ⟨adds.marks, adds.depth, ?_⟩
    rw [adds.lines, lines_of_leaf hleaf]
    exact lines_of_leaf rfl
  unfold closeConcrete
  split
  · next hleaf => exact closed (.emit _ rfl) (by rw [hleaf]; rfl)
  · next hleaf => exact closed (.closeLeaf _) (by rw [hleaf]; rfl)
  · exact ⟨rfl, rfl, rfl⟩

/-- What one line does, if nothing but byte order marks stands before its content. -/
theorem Reads.read (reader : BlockReader) {line : Line} (marked : ∀ letter ∈ line.mark, letter = '\ufeff') :
    Reads line reader (reader.read line) := by
  obtain ⟨hkeep, hbare⟩ := spec_of_continueFrames (Cursor.ofLine line) reader.frames.reverse
  unfold BlockReader.read
  simp only
  generalize continueFrames (Cursor.ofLine line) reader.frames.reverse = continued at hkeep hbare ⊢
  generalize hframes : (if List.contains _ '>' = true then mark line.start _ else _) = frames
  have hdepth : frames.length = reader.frames.length := by
    rw [List.length_reverse] at hkeep
    rw [← hframes]
    split <;> simp only [mark, List.length_map, List.length_reverse, List.length_append, List.length_drop] <;> omega
  have reframed : Adds reader { reader with frames := frames } := ⟨rfl, rfl, hdepth⟩
  split
  · next hconcrete =>
    rw [Bool.and_eq_true] at hconcrete
    have concrete : ({ reader with frames := frames } : BlockReader).leaf.isConcrete = true := hconcrete.2
    exact after reframed.marks (.inr reframed.lines) (readConcrete concrete _ _)
  · obtain ⟨hmarks, hchange⟩ := spec_of_openFrames line line.content.length { reader with frames := frames }
      continued.1.length continued.2
    generalize openFrames line line.content.length { reader with frames := frames } continued.1.length
      continued.2 = opened at hmarks hchange ⊢
    generalize hgave : opened.1.giveUpHead _ _ _ = gave
    have adds : Adds opened.1 gave := hgave ▸ .giveUpHead _ _ _ _
    obtain ⟨hmarks', hdepth', hlines'⟩ := spec_of_closeConcrete gave
    refine .after ?_ ?_ (readFlow ?_ _)
    · exact hmarks'.trans (adds.marks.trans hmarks)
    · rw [hlines', adds.lines]
      rcases hchange with hsame | ⟨_, hdeep⟩
      · rw [hsame]
        exact .inr reframed.lines
      · exact .inl (lines_of_inside hdeep)
    · rcases hchange with hsame | ⟨hpierced, hdeep⟩
      · rw [hsame] at adds ⊢
        rw [if_neg Bool.false_ne_true]
        rw [List.length_reverse] at hkeep
        refine ⟨?_, fun hnone => congrArg Cursor.rest (hbare hnone), marked⟩
        exact hkeep.trans (hdepth'.trans (adds.depth.trans hdepth)).ge
      · rw [if_pos hpierced]
        refine ⟨hdepth'.ge, fun hnone => ?_, marked⟩
        exact absurd (adds.depth.symm.trans hnone) hdeep

end BlockReader
end Courseware.Markdown
