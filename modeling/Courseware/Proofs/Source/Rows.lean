import Courseware.Proofs.Source.Placeholder
import Courseware.Proofs.Source.Stable

/-!
# Restoring line by line

Restoring a line of scrubbed text gives one line, or more where a literal in it spans lines. The first of
them has the indent of the scrubbed line, since a literal begins with a visible letter. The others come from
literals as they stand in the document, and the last line of a literal is never blank. `added` gives their
margins; they do not depend on what the scrubbed line is indented by.

This is where restoring and dedenting part. Dedenting before restoring leaves the added lines alone, and
dedenting afterwards moves them with the others. Where no line is added the order does not matter
(`restore_dedent`).
-/

namespace Courseware

/-! ## The ends of literals -/

namespace Literal

variable {literal : Literal} {before after : Text}

/-- A literal begins with a letter that is not blank. -/
theorem Stands.exists_first (stands : literal.Stands before after) :
    ∃ first rest, literal.text = first :: rest ∧ Text.isBlank first = false := by
  cases stands with
  | @fence marker run _ _ _ _ _ _ _ _ _ known long =>
    obtain ⟨more, rfl⟩ := Nat.exists_eq_add_of_le' long
    exact ⟨marker, _, rfl, (isIndent_of_isMarker known).2⟩
  | @inlineCode count _ _ full =>
    obtain ⟨more, rfl⟩ := Nat.exists_eq_add_one.mpr full
    exact ⟨'\x60', _, rfl, by decide⟩
  | displayMath => exact ⟨'$', _, rfl, by decide⟩
  | inlineMath => exact ⟨'$', _, rfl, by decide⟩
  | verbatim => exact ⟨'<', _, rfl, by decide⟩

/-- A literal ends with a letter that is not blank, or it is a fence with blanks at the end of its last line. -/
theorem Stands.exists_last (stands : literal.Stands before after) :
    ∃ inner last blanks, literal.text = inner ++ last :: blanks ∧ Text.isBlank last = false ∧
      ('\n' ∉ inner → blanks = []) := by
  cases stands with
  | @fence marker run _ _ words closing _ lines _ _ _ known long _ _ _ closes lastLine =>
    obtain ⟨indent, count, tail, rfl, _, hcount, _⟩ := closes
    obtain ⟨more, rfl⟩ := Nat.exists_eq_add_of_le' (long.trans hcount)
    refine ⟨List.replicate run marker ++ (words ++ ['\n']) ++ lines.flatMap (· ++ ['\n']) ++
      (indent ++ List.replicate (more + 2) marker), marker, tail, ?_,
      (isIndent_of_isMarker known).2, ?_⟩
    · rw [text, List.replicate_succ' (n := more + 2)]
      simp only [List.append_assoc, List.singleton_append]
    · intro h
      exact absurd (by simp) h
  | @inlineCode count body _ full =>
    obtain ⟨more, rfl⟩ := Nat.exists_eq_add_one.mpr full
    refine ⟨List.replicate (more + 1) '\x60' ++ (body ++ List.replicate more '\x60'), '\x60', [], ?_,
      by decide, fun _ => rfl⟩
    rw [text, List.append_assoc, List.append_assoc, ← List.replicate_succ']
  | @displayMath body =>
    exact ⟨['$', '$'] ++ (body ++ ['$']), '$', [], by simp [text], by decide, fun _ => rfl⟩
  | @inlineMath body =>
    exact ⟨['$'] ++ body, '$', [], by simp [text], by decide, fun _ => rfl⟩
  | @verbatim body =>
    exact ⟨verbatimOpening ++ (body ++ verbatimClosing.dropLast), '>', [], by
      simp [text, verbatimClosing], by decide, fun _ => rfl⟩

end Literal

namespace Extraction

variable {source text line lead : Text} {extraction : Extraction} {bytes : Nat}

/-! ## Restoring parts -/

/-- Texts that cut no placeholder are restored one after the other. -/
theorem WellFormed.restore_append (hwell : extraction.WellFormed) {before : Text}
    (intact : extraction.sentinels.Intact extraction.literals.length before) (after : Text) :
    extraction.restore (before ++ after) = extraction.restore before ++ extraction.restore after := by
  induction intact with
  | nil => rw [restore_nil, List.nil_append, List.nil_append]
  | letter opening closing _ ih =>
    rw [List.cons_append, restore_cons opening, restore_cons opening, ih, List.cons_append]
  | @placeholder number rest known _ ih =>
    have hliteral := List.getElem?_eq_getElem known
    rw [List.append_assoc, restore_placeholder hwell.closing_not_digit hliteral,
      restore_placeholder hwell.closing_not_digit hliteral, ih, List.append_assoc]

theorem opening_notMem_of_isAllBlank (reserved : extraction.sentinels.Reserved)
    (blank : Text.isAllBlank text = true) : extraction.sentinels.opening ∉ text := by
  intro hopening
  have hblank := List.all_eq_true.mp blank _ hopening
  exact (reserved.ne_of_isOutside (Sentinels.isOutside_of_isBlank hblank)).1 rfl

theorem restore_of_isAllBlank (reserved : extraction.sentinels.Reserved)
    (blank : Text.isAllBlank text = true) : extraction.restore text = text :=
  restore_of_notMem (opening_notMem_of_isAllBlank reserved blank)

theorem WellFormed.restore_join (hwell : extraction.WellFormed)
    (reserved : extraction.sentinels.Reserved) {parts : List Text}
    (intact : ∀ part ∈ parts, extraction.sentinels.Intact extraction.literals.length part) :
    extraction.restore (Text.join ['\n'] parts) = Text.join ['\n'] (parts.map extraction.restore) := by
  have hfeed : '\n' ≠ extraction.sentinels.opening :=
    (reserved.ne_of_isOutside (by decide : Sentinels.isOutside '\n' = true)).1
  induction parts with
  | nil => exact extraction.restore_nil
  | cons first others ih =>
    obtain ⟨hfirst, hothers⟩ := List.forall_mem_cons.mp intact
    cases others with
    | nil => simp only [Text.join, List.map_cons, List.map_nil, List.intercalate_singleton]
    | cons second more =>
      rw [Text.join_cons _ (List.cons_ne_nil _ _), hwell.restore_append hfirst, restore_cons hfeed,
        ih hothers]
      exact (Text.join_cons _ (List.cons_ne_nil _ _)).symm

section
variable (extracted : ofSource source = .ok extraction)
include extracted

/-- A placeholder is replaced by a literal of the document. -/
theorem exists_restore_placeholder {number : Nat} (known : number < extraction.literals.length)
    (rest : Text) :
    ∃ (literal : Literal) (before after : Text), literal.Stands before after ∧
      extraction.restore (extraction.sentinels.placeholder number ++ rest) =
        literal.text ++ extraction.restore rest := by
  have hliteral := List.getElem?_eq_getElem known
  obtain ⟨first, others, hpieces, _⟩ := Piece.exists_of_getElem?_literals hliteral
  exact ⟨_, _, _, stands_of_ofSource extracted hpieces,
    restore_placeholder (wellFormed_of_ofSource extracted).closing_not_digit hliteral rest⟩

/-! ## The lines of a line -/

/-- Where a literal begins, a visible line begins. -/
theorem margin?_placeholder_append (number : Nat) (rest : Text) :
    Text.margin? (extraction.sentinels.placeholder number ++ rest) = some 0 := by
  have hvisible : Text.isBlank extraction.sentinels.opening = false := by
    cases hblank : Text.isBlank extraction.sentinels.opening with
    | false => rfl
    | true =>
      exact absurd rfl ((reserved_of_ofSource extracted).ne_of_isOutside
        (Sentinels.isOutside_of_isBlank hblank)).1
  exact Text.margin?_cons_of_visible hvisible _

/-- The first line of a line that is restored has the margin of the line. -/
theorem exists_split_restore (intact : extraction.sentinels.Intact extraction.literals.length line)
    (oneLine : '\n' ∉ line) :
    ∃ first others, Text.split '\n' (extraction.restore line) = first :: others ∧
      Text.margin? first = Text.margin? line := by
  induction intact with
  | nil =>
    rw [restore_nil]
    exact ⟨[], [], rfl, rfl⟩
  | @letter letter rest opening closing _ ih =>
    obtain ⟨hletter, hrest⟩ := List.ne_and_not_mem_of_not_mem_cons oneLine
    obtain ⟨first, others, hsplit, hmargin⟩ := ih hrest
    refine ⟨letter :: first, others, ?_, Text.margin?_cons_congr hmargin letter⟩
    rw [restore_cons opening]
    exact Text.split_append_of_notMem
      (List.not_mem_cons_of_ne_of_not_mem hletter List.not_mem_nil) hsplit
  | @placeholder number rest known intact ih =>
    obtain ⟨literal, before, after, stands, hrestore⟩ := exists_restore_placeholder extracted known rest
    obtain ⟨letter, more, htext, visible⟩ := stands.exists_first
    have hletter : '\n' ≠ letter := by
      rintro rfl
      exact absurd visible (by decide)
    obtain ⟨first, others, hsplit⟩ :=
      List.exists_cons_of_ne_nil (Text.split_ne_nil '\n' (more ++ extraction.restore rest))
    refine ⟨letter :: first, others, ?_, ?_⟩
    · rw [hrestore, htext]
      exact Text.split_append_of_notMem
        (List.not_mem_cons_of_ne_of_not_mem hletter List.not_mem_nil) hsplit
    · rw [Text.margin?_cons_of_visible visible, margin?_placeholder_append extracted]

end

/-- The margins of the lines that come from literals in a line. -/
def added (extraction : Extraction) (line : Text) : List Nat :=
  (Text.split '\n' (extraction.restore line)).tail.filterMap Text.margin?

theorem added_of_notMem (oneLine : '\n' ∉ extraction.restore line) : extraction.added line = [] := by
  rw [added, Text.split_of_notMem oneLine]
  rfl

/-- What is put in front of a line adds no line. -/
theorem added_append (h : extraction.sentinels.opening ∉ lead) (oneLine : '\n' ∉ lead) (line : Text) :
    extraction.added (lead ++ line) = extraction.added line := by
  obtain ⟨first, others, hsplit⟩ :=
    List.exists_cons_of_ne_nil (Text.split_ne_nil '\n' (extraction.restore line))
  rw [added, restore_append_of_notMem h, Text.split_append_of_notMem oneLine hsplit, added, hsplit]
  rfl

section
variable (extracted : ofSource source = .ok extraction)
include extracted

theorem added_of_isAllBlank (blank : Text.isAllBlank line = true) (oneLine : '\n' ∉ line) :
    extraction.added line = [] := by
  apply added_of_notMem
  rwa [restore_of_isAllBlank (reserved_of_ofSource extracted) blank]

/-- A line that is restored has its own margin and those of the lines that literals add. -/
theorem margins_restore (intact : extraction.sentinels.Intact extraction.literals.length line)
    (oneLine : '\n' ∉ line) :
    Text.margins (extraction.restore line) = (Text.margin? line).toList ++ extraction.added line := by
  obtain ⟨first, others, hsplit, hmargin⟩ := exists_split_restore extracted intact oneLine
  rw [Text.margins, added, hsplit, ← hmargin]
  cases hfirst : Text.margin? first with
  | none => exact List.filterMap_cons_none hfirst
  | some indent => exact List.filterMap_cons_some hfirst

/-- An indent that a line has is dropped before the line is restored or afterwards. -/
theorem restore_unindent (h : ∀ indent ∈ Text.margin? line, bytes ≤ indent) :
    extraction.restore (Text.unindent bytes line) = Text.unindent bytes (extraction.restore line) := by
  have reserved := reserved_of_ofSource extracted
  cases visible : Text.isAllBlank line with
  | true =>
    rw [restore_of_isAllBlank reserved visible,
      restore_of_isAllBlank reserved (Text.isAllBlank_unindent visible bytes)]
  | false =>
    rw [Text.margin?_of_visible visible] at h
    obtain ⟨lead, hline, indent, rfl⟩ := Text.exists_append_unindent (h _ rfl)
    have hrestore := restore_append_of_notMem
      (opening_notMem_of_isAllBlank reserved (Text.isAllBlank_of_isIndent indent))
      (Text.unindent lead.length line)
    rw [← hline] at hrestore
    rw [hrestore, Text.unindent_append indent]

/-- The lines that literals add do not depend on the indent of the line. -/
theorem added_unindent (oneLine : '\n' ∉ line) (h : ∀ indent ∈ Text.margin? line, bytes ≤ indent) :
    extraction.added (Text.unindent bytes line) = extraction.added line := by
  have honeLine : '\n' ∉ Text.unindent bytes line := fun hfeed =>
    oneLine ((Text.unindent_suffix bytes line).mem hfeed)
  cases visible : Text.isAllBlank line with
  | true =>
    rw [added_of_isAllBlank extracted visible oneLine,
      added_of_isAllBlank extracted (Text.isAllBlank_unindent visible bytes) honeLine]
  | false =>
    rw [Text.margin?_of_visible visible] at h
    obtain ⟨lead, hline, indent, _⟩ := Text.exists_append_unindent (h _ rfl)
    have hopening := opening_notMem_of_isAllBlank (reserved_of_ofSource extracted)
      (Text.isAllBlank_of_isIndent indent)
    have hlead : '\n' ∉ lead := fun hfeed => absurd (indent _ hfeed) (by decide)
    have hadded := added_append hopening hlead (Text.unindent bytes line)
    rw [← hline] at hadded
    exact hadded.symm

/-- A literal that spans lines adds a line that is not blank: its last one. -/
theorem added_ne_nil (intact : extraction.sentinels.Intact extraction.literals.length line)
    (oneLine : '\n' ∉ line) (h : '\n' ∈ extraction.restore line) : extraction.added line ≠ [] := by
  induction intact with
  | nil =>
    rw [restore_nil] at h
    exact absurd h List.not_mem_nil
  | @letter letter rest opening closing _ ih =>
    obtain ⟨hletter, hrest⟩ := List.ne_and_not_mem_of_not_mem_cons oneLine
    rw [restore_cons opening] at h
    have hadded := @added_append [letter] extraction (List.not_mem_cons_of_ne_of_not_mem opening.symm List.not_mem_nil)
      (List.not_mem_cons_of_ne_of_not_mem hletter List.not_mem_nil) rest
    rw [List.singleton_append] at hadded
    rw [hadded]
    exact ih hrest ((List.mem_cons.mp h).resolve_left hletter)
  | @placeholder number rest known intact ih =>
    obtain ⟨literal, before, after, stands, hrestore⟩ := exists_restore_placeholder extracted known rest
    rw [hrestore] at h
    rw [added, hrestore]
    by_cases hliteral : '\n' ∈ literal.text
    · obtain ⟨inner, last, blanks, htext, visible, hblanks⟩ := stands.exists_last
      have hinner : '\n' ∈ inner := by
        by_contra hnone
        rw [htext, hblanks hnone, List.mem_append, List.mem_singleton] at hliteral
        rcases hliteral with hinner | rfl
        · exact hnone hinner
        · exact absurd visible (by decide)
      obtain ⟨first, others, rfl⟩ := List.append_of_mem hinner
      intro hnil
      rw [htext, List.append_assoc, List.append_assoc, List.cons_append, Text.split_append_separator,
        List.tail_append_of_ne_nil (Text.split_ne_nil _ _), List.filterMap_append,
        List.append_eq_nil_iff] at hnil
      have hblank := Text.isAllBlank_of_margins_eq_nil hnil.2
      rw [Text.isAllBlank_append, List.cons_append, Text.isAllBlank_cons, visible, Bool.false_and,
        Bool.and_false] at hblank
      exact nomatch hblank
    · obtain ⟨first, others, hsplit⟩ :=
        List.exists_cons_of_ne_nil (Text.split_ne_nil '\n' (extraction.restore rest))
      have hadded := ih (fun hmem => oneLine (List.mem_append_right _ hmem))
        ((List.mem_append.mp h).resolve_left hliteral)
      rw [added, hsplit] at hadded
      rwa [Text.split_append_of_notMem hliteral hsplit]

/-! ## The lines of a text -/

/-- The carriage return at the end of a line is restored to itself. -/
theorem restore_dropReturn_cases
    (intact : extraction.sentinels.Intact extraction.literals.length line) :
    line.getLast? ≠ some '\r' ∧ Text.dropReturn line = line ∨
      extraction.restore line = extraction.restore (Text.dropReturn line) ++ ['\r'] := by
  have hwell := wellFormed_of_ofSource extracted
  have reserved := reserved_of_ofSource extracted
  rcases Text.dropReturn_cases line with hkept | hreturn
  · exact .inl hkept
  · right
    have hrestore := hwell.restore_append (intact.dropReturn reserved) ['\r']
    have hblank : Text.isAllBlank ['\r'] = true := by decide
    rwa [← hreturn, restore_of_isAllBlank reserved hblank] at hrestore

theorem margins_restore_dropReturn
    (intact : extraction.sentinels.Intact extraction.literals.length line) :
    Text.margins (extraction.restore (Text.dropReturn line)) = Text.margins (extraction.restore line) := by
  rcases restore_dropReturn_cases extracted intact with ⟨_, hsame⟩ | hreturn
  · rw [hsame]
  · have hblank : Text.isAllBlank ['\r'] = true := by decide
    rw [hreturn, Text.margins_append_of_isAllBlank _ hblank]

/-- A text that is restored has the margins of its lines and those of the lines that literals add. -/
theorem margins_restore_lines (intact : extraction.sentinels.Intact extraction.literals.length text) :
    Text.margins (extraction.restore text) = (Text.lines text).flatMap fun line =>
      (Text.margin? line).toList ++ extraction.added line := by
  have hwell := wellFormed_of_ofSource extracted
  have reserved := reserved_of_ofSource extracted
  have hfeed : '\n' ≠ extraction.sentinels.opening :=
    (reserved.ne_of_isOutside (by decide : Sentinels.isOutside '\n' = true)).1
  induction text using Text.rows_induction with
  | nil =>
    rw [restore_nil, Text.margins_nil, Text.lines]
    rfl
  | last line full oneLine =>
    rw [Text.lines_of_notMem full oneLine, List.flatMap_singleton,
      margins_restore extracted intact oneLine]
  | row row rest oneLine ih =>
    obtain ⟨hrow, hrest⟩ := intact.cut reserved (by decide)
    have hline : '\n' ∉ Text.dropReturn row :=
      Text.notMem_of_mem_lines (by
        rw [Text.lines_append_feed oneLine rest]
        exact List.mem_cons_self)
    rw [hwell.restore_append hrow, restore_cons hfeed, Text.margins_append_feed, ih hrest,
      Text.lines_append_feed oneLine, List.flatMap_cons, ← margins_restore_dropReturn extracted hrow,
      margins_restore extracted (hrow.dropReturn reserved) hline]

/-- A line of a text without the common indent of the text. -/
theorem intact_unindent_of_mem_lines
    (intact : extraction.sentinels.Intact extraction.literals.length text) (h : line ∈ Text.lines text) :
    extraction.sentinels.Intact extraction.literals.length
      (Text.unindent (Text.commonIndent (Text.lines text)) line) := by
  have reserved := reserved_of_ofSource extracted
  apply (intact.lines reserved line h).unindent reserved
  cases visible : Text.isAllBlank line with
  | true => exact .inl rfl
  | false => exact .inr (Text.commonIndent_le h _ (Text.margin?_of_visible visible))

/-- A text that is dedented and then restored has lost its common indent outside literals only. -/
theorem margins_restore_dedent (intact : extraction.sentinels.Intact extraction.literals.length text) :
    Text.margins (extraction.restore (Text.dedent text)) = (Text.lines text).flatMap fun line =>
      ((Text.margin? line).map (· - Text.commonIndent (Text.lines text))).toList ++
        extraction.added line := by
  have hwell := wellFormed_of_ofSource extracted
  have reserved := reserved_of_ofSource extracted
  generalize hbytes : Text.commonIndent (Text.lines text) = bytes
  have hline : ∀ line ∈ Text.lines text,
      Text.margins (extraction.restore (Text.unindent bytes line)) =
        ((Text.margin? line).map (· - bytes)).toList ++ extraction.added line := by
    intro line hmem
    have hintact := intact_unindent_of_mem_lines extracted intact hmem
    have hindent := Text.commonIndent_le hmem
    rw [hbytes] at hintact hindent
    have oneLine := Text.notMem_of_mem_lines hmem
    rw [margins_restore extracted hintact fun hfeed => oneLine ((Text.unindent_suffix _ _).mem hfeed),
      Text.margin?_unindent hindent, added_unindent extracted oneLine hindent]
  have hkept : ∀ row ∈ (Text.lines text).dropWhile Text.isAllBlank, row ∈ Text.lines text :=
    fun row hrow => (List.dropWhile_sublist _).mem hrow
  have hblank : ((Text.lines text).takeWhile Text.isAllBlank).flatMap
      (fun line => ((Text.margin? line).map (· - bytes)).toList ++ extraction.added line) = [] := by
    rw [List.flatMap_eq_nil_iff]
    intro line hmem
    have blank := List.mem_takeWhile_imp hmem
    have oneLine := Text.notMem_of_mem_lines ((List.takeWhile_sublist _).mem hmem)
    rw [Text.margin?_of_isAllBlank blank, added_of_isAllBlank extracted blank oneLine]
    rfl
  have hintact : ∀ part ∈ ((Text.lines text).dropWhile Text.isAllBlank).map (Text.unindent bytes),
      extraction.sentinels.Intact extraction.literals.length part := by
    intro part hpart
    obtain ⟨line, hmem, rfl⟩ := List.mem_map.mp hpart
    have hintact := intact_unindent_of_mem_lines extracted intact (hkept line hmem)
    rwa [hbytes] at hintact
  calc Text.margins (extraction.restore (Text.dedent text))
    _ = ((Text.lines text).dropWhile Text.isAllBlank).flatMap fun line =>
        Text.margins (extraction.restore (Text.unindent bytes line)) := by
      rw [Text.dedent, Text.commonIndent_dropWhile, hbytes, hwell.restore_join reserved hintact,
        Text.margins_join, List.map_map, List.flatMap_map]
      rfl
    _ = ((Text.lines text).dropWhile Text.isAllBlank).flatMap fun line =>
        ((Text.margin? line).map (· - bytes)).toList ++ extraction.added line :=
      List.flatMap_congr fun line hmem => hline line (hkept line hmem)
    _ = (Text.lines text).flatMap fun line =>
        ((Text.margin? line).map (· - bytes)).toList ++ extraction.added line := by
      conv_rhs => rw [← List.takeWhile_append_dropWhile (p := Text.isAllBlank) (l := Text.lines text)]
      rw [List.flatMap_append, hblank, List.nil_append]

/-! ## Literals on one line -/

/-- What is restored is empty only if nothing was there. -/
theorem eq_nil_of_restore_eq_nil
    (intact : extraction.sentinels.Intact extraction.literals.length line)
    (h : extraction.restore line = []) : line = [] := by
  cases intact with
  | nil => rfl
  | letter opening closing intact =>
    rw [restore_cons opening] at h
    exact nomatch h
  | @placeholder number rest known intact =>
    obtain ⟨literal, before, after, stands, hrestore⟩ := exists_restore_placeholder extracted known rest
    rw [hrestore, List.append_eq_nil_iff] at h
    exact absurd h.1 stands.text_ne_nil

/-- A text of which all literals are on one line ends with a carriage return only if it did before. -/
theorem getLast?_of_restore (intact : extraction.sentinels.Intact extraction.literals.length line)
    (oneLine : '\n' ∉ extraction.restore line)
    (h : (extraction.restore line).getLast? = some '\r') : line.getLast? = some '\r' := by
  induction intact with
  | nil =>
    rw [restore_nil] at h
    exact nomatch h
  | @letter letter rest opening closing intact ih =>
    rw [restore_cons opening] at oneLine h
    rw [List.getLast?_cons, Option.some.injEq] at h
    have hrest := ih (List.not_mem_of_not_mem_cons oneLine)
    rw [List.getLast?_cons]
    cases hlast : (extraction.restore rest).getLast? with
    | none =>
      rw [List.getLast?_eq_none_iff] at hlast
      rw [eq_nil_of_restore_eq_nil extracted intact hlast]
      rw [hlast] at h
      exact congrArg some h
    | some last =>
      rw [hlast, Option.getD_some] at h
      rw [hrest (by rw [hlast, h]), Option.getD_some]
  | @placeholder number rest known intact ih =>
    obtain ⟨literal, before, after, stands, hrestore⟩ := exists_restore_placeholder extracted known rest
    rw [hrestore, List.mem_append, not_or] at oneLine
    rw [hrestore, List.getLast?_append] at h
    cases hlast : (extraction.restore rest).getLast? with
    | some last =>
      rw [hlast, Option.some_or] at h
      rw [List.getLast?_append, ih oneLine.2 (by rw [hlast, h]), Option.some_or]
    | none =>
      -- The text ends with the literal, and this ends with a visible letter.
      rw [hlast, Option.none_or] at h
      obtain ⟨inner, final, blanks, htext, visible, hblanks⟩ := stands.exists_last
      rw [htext] at oneLine h
      rw [hblanks fun hmem => oneLine.1 (List.mem_append_left _ hmem), List.getLast?_concat] at h
      rw [Option.some.inj h] at visible
      exact absurd visible (by decide)

theorem dropReturn_restore (intact : extraction.sentinels.Intact extraction.literals.length line)
    (oneLine : '\n' ∉ extraction.restore (Text.dropReturn line)) :
    Text.dropReturn (extraction.restore line) = extraction.restore (Text.dropReturn line) := by
  rcases restore_dropReturn_cases extracted intact with ⟨hlast, hsame⟩ | hreturn
  · rw [hsame] at oneLine ⊢
    exact Text.dropReturn_of_getLast? fun h => hlast (getLast?_of_restore extracted intact oneLine h)
  · rw [hreturn, Text.dropReturn_concat]

/-- Where no literal spans lines, the lines are restored one by one. -/
theorem lines_restore (intact : extraction.sentinels.Intact extraction.literals.length text)
    (flat : ∀ line ∈ Text.lines text, '\n' ∉ extraction.restore line) :
    Text.lines (extraction.restore text) = (Text.lines text).map extraction.restore := by
  have hwell := wellFormed_of_ofSource extracted
  have reserved := reserved_of_ofSource extracted
  have hfeed : '\n' ≠ extraction.sentinels.opening :=
    (reserved.ne_of_isOutside (by decide : Sentinels.isOutside '\n' = true)).1
  induction text using Text.rows_induction with
  | nil =>
    rw [restore_nil, Text.lines]
    rfl
  | last line full oneLine =>
    rw [Text.lines_of_notMem full oneLine] at flat ⊢
    have hfull : extraction.restore line ≠ [] := fun hnil =>
      full (eq_nil_of_restore_eq_nil extracted intact hnil)
    exact Text.lines_of_notMem hfull (flat line List.mem_cons_self)
  | row row rest oneLine ih =>
    obtain ⟨hrow, hrest⟩ := intact.cut reserved (by decide)
    rw [Text.lines_append_feed oneLine] at flat ⊢
    obtain ⟨hline, hothers⟩ := List.forall_mem_cons.mp flat
    have hrestored : '\n' ∉ extraction.restore row := by
      rcases restore_dropReturn_cases extracted hrow with ⟨_, hsame⟩ | hreturn
      · rwa [hsame] at hline
      · rw [hreturn, List.mem_append, not_or]
        exact ⟨hline, by decide⟩
    rw [hwell.restore_append hrow, restore_cons hfeed, Text.lines_append_feed hrestored,
      ih hrest hothers, dropReturn_restore extracted hrow hline, List.map_cons]

/-- Where no literal spans lines, it does not matter whether a text is dedented before it is restored or
afterwards. -/
theorem restore_dedent (intact : extraction.sentinels.Intact extraction.literals.length text)
    (flat : ∀ line ∈ Text.lines text, '\n' ∉ extraction.restore line) :
    extraction.restore (Text.dedent text) = Text.dedent (extraction.restore text) := by
  have hwell := wellFormed_of_ofSource extracted
  have reserved := reserved_of_ofSource extracted
  have hmargin : ∀ line ∈ Text.lines text,
      Text.margin? (extraction.restore line) = Text.margin? line := by
    intro line hmem
    obtain ⟨first, others, hsplit, hmargin⟩ := exists_split_restore extracted
      (intact.lines reserved line hmem) (Text.notMem_of_mem_lines hmem)
    rw [Text.split_of_notMem (flat line hmem)] at hsplit
    rwa [← (List.cons.inj hsplit).1] at hmargin
  have hbytes : Text.commonIndent ((Text.lines text).map extraction.restore) =
      Text.commonIndent (Text.lines text) := by
    rw [Text.commonIndent_eq, Text.commonIndent_eq, List.filterMap_map, List.filterMap_congr]
    exact fun line hmem => hmargin line hmem
  have hkept : ((Text.lines text).map extraction.restore).dropWhile Text.isAllBlank =
      ((Text.lines text).dropWhile Text.isAllBlank).map extraction.restore := by
    apply Text.dropWhile_isAllBlank_map
    intro line hmem
    rw [Bool.eq_iff_iff, ← Text.margin?_eq_none_iff, hmargin line hmem, Text.margin?_eq_none_iff]
  rw [Text.dedent, Text.dedent, Text.commonIndent_dropWhile, Text.commonIndent_dropWhile,
    lines_restore extracted intact flat, hbytes, hkept, hwell.restore_join reserved, List.map_map,
    List.map_map]
  · refine congrArg (Text.join ['\n']) (List.map_congr_left fun line hmem => ?_)
    exact restore_unindent extracted (Text.commonIndent_le ((List.dropWhile_sublist _).mem hmem))
  · intro part hpart
    obtain ⟨line, hmem, rfl⟩ := List.mem_map.mp hpart
    exact intact_unindent_of_mem_lines extracted intact ((List.dropWhile_sublist _).mem hmem)

end
end Extraction
end Courseware
