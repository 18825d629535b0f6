import Courseware.Proofs.Source.Rows
import Courseware.Task.Builder

/-!
# What dedenting and trimming leave alone

Dedenting, trimming and restoring change the layout of a text, and they may be done in another order in one
place than in another. The letters that are not blank are the same whatever the order. A bracket is no blank,
so it can be followed by its place among these letters through all that is done to the content of a directive.
-/

namespace Courseware

namespace Text

variable {text before after : Text} {parts : List Text}

/-- The letters of a text that are not blank. -/
def visible (text : Text) : Text := text.filter fun letter => !isBlank letter

@[simp]
theorem visible_append : visible (before ++ after) = visible before ++ visible after :=
  List.filter_append ..

theorem visible_of_isAllBlank (blank : isAllBlank text = true) : visible text = [] := by
  rw [visible, List.filter_eq_nil_iff]
  intro letter hletter
  rw [List.all_eq_true.mp blank letter hletter]
  decide

theorem visible_trimStart (text : Text) : visible (trimStart text) = visible text := by
  have blank : isAllBlank (text.takeWhile isBlank) = true :=
    List.all_eq_true.mpr fun letter hletter => List.mem_takeWhile_imp hletter
  have hsplit := congrArg visible (List.takeWhile_append_dropWhile (p := isBlank) (l := text))
  rwa [visible_append, visible_of_isAllBlank blank] at hsplit

theorem visible_trimEnd (text : Text) : visible (trimEnd text) = visible text := by
  obtain ⟨blanks, htext, blank⟩ := exists_trimEnd_append text
  have hsplit := congrArg visible htext
  rw [visible_append, visible_of_isAllBlank blank, List.append_nil] at hsplit
  exact hsplit.symm

theorem visible_trim (text : Text) : visible (trim text) = visible text :=
  (visible_trimEnd (trimStart text)).trans (visible_trimStart text)

/-! ## Reading part by part -/

/-- A way to read texts one part after the other, where every part is whole. Blanks are read as they are, and
the lines of a whole text are whole, also without their common indent. -/
structure Piecewise (whole : Text → Prop) (read : Text → Text) : Prop where
  append : ∀ {before : Text}, whole before → ∀ after, read (before ++ after) = read before ++ read after
  blank : ∀ {text : Text}, isAllBlank text = true → whole text ∧ read text = text
  cut : ∀ {row rest : Text}, whole (row ++ '\n' :: rest) → whole row ∧ whole rest
  lines : ∀ {text line : Text}, whole text → line ∈ lines text →
    whole line ∧ whole (unindent (commonIndent (Text.lines text)) line)

namespace Piecewise

variable {whole : Text → Prop} {read : Text → Text} (piecewise : Piecewise whole read)
include piecewise

theorem read_blank_append (blank : isAllBlank before = true) (after : Text) :
    visible (read (before ++ after)) = visible (read after) := by
  obtain ⟨hwhole, hread⟩ := piecewise.blank blank
  rw [piecewise.append hwhole, hread, visible_append, visible_of_isAllBlank blank, List.nil_append]

theorem read_append_blank (hwhole : whole before) (blank : isAllBlank after = true) :
    visible (read (before ++ after)) = visible (read before) := by
  rw [piecewise.append hwhole, (piecewise.blank blank).2, visible_append, visible_of_isAllBlank blank,
    List.append_nil]

/-- Of lines that are put together, each is read by itself. -/
theorem visible_read_join (hwhole : ∀ part ∈ parts, whole part) :
    visible (read (join ['\n'] parts)) = parts.flatMap fun part => visible (read part) := by
  induction parts with
  | nil =>
    have hnil : read [] = [] := (piecewise.blank rfl).2
    rw [join, List.intercalate_nil, hnil]
    rfl
  | cons first others ih =>
    obtain ⟨hfirst, hothers⟩ := List.forall_mem_cons.mp hwhole
    cases others with
    | nil => rw [join, List.intercalate_singleton, List.flatMap_singleton]
    | cons second more =>
      have hfeed := piecewise.read_blank_append (by decide : isAllBlank ['\n'] = true)
        (join ['\n'] (second :: more))
      rw [List.singleton_append] at hfeed
      rw [join_cons _ (List.cons_ne_nil _ _), piecewise.append hfirst, visible_append, hfeed, ih hothers]
      rfl

/-- The lines of a text are read one by one. -/
theorem flatMap_visible_lines (hwhole : whole text) :
    ((Text.lines text).flatMap fun line => visible (read line)) = visible (read text) := by
  induction text using rows_induction with
  | nil =>
    have hnil : read [] = [] := (piecewise.blank rfl).2
    rw [hnil, Text.lines]
    rfl
  | last line full oneLine => rw [lines_of_notMem full oneLine, List.flatMap_singleton]
  | row row rest oneLine ih =>
    obtain ⟨hrow, hrest⟩ := piecewise.cut hwhole
    have hfeed := piecewise.read_blank_append (by decide : isAllBlank ['\n'] = true) rest
    rw [List.singleton_append] at hfeed
    have hmem : dropReturn row ∈ Text.lines (row ++ '\n' :: rest) := by
      rw [lines_append_feed oneLine]
      exact List.mem_cons_self
    have hline : visible (read (dropReturn row)) = visible (read row) := by
      rcases dropReturn_cases row with ⟨_, hsame⟩ | hreturn
      · rw [hsame]
      · conv_rhs => rw [hreturn]
        rw [piecewise.read_append_blank (piecewise.lines hwhole hmem).1 (by decide)]
    rw [lines_append_feed oneLine, List.flatMap_cons, hline, ih hrest, piecewise.append hrow,
      visible_append, hfeed]

/-- Dedenting takes away nothing but blanks. -/
theorem visible_read_dedent (hwhole : whole text) :
    visible (read (dedent text)) = visible (read text) := by
  have hmem : ∀ line ∈ (Text.lines text).dropWhile isAllBlank, line ∈ Text.lines text :=
    fun line hline => (List.dropWhile_sublist _).mem hline
  have hunindent : ∀ line ∈ (Text.lines text).dropWhile isAllBlank,
      visible (read (unindent (commonIndent (Text.lines text)) line)) = visible (read line) := by
    intro line hline
    cases hblank : isAllBlank line with
    | true =>
      have hleft := isAllBlank_unindent hblank (commonIndent (Text.lines text))
      rw [(piecewise.blank hblank).2, (piecewise.blank hleft).2, visible_of_isAllBlank hblank,
        visible_of_isAllBlank hleft]
    | false =>
      obtain ⟨lead, hsplit, hlead, _⟩ :=
        exists_append_unindent (commonIndent_le (hmem line hline) _ (margin?_of_visible hblank))
      have hread := piecewise.read_blank_append (isAllBlank_of_isIndent hlead)
        (unindent (commonIndent (Text.lines text)) line)
      rwa [← hsplit, eq_comm] at hread
  have hblank : ((Text.lines text).takeWhile isAllBlank).flatMap (fun line => visible (read line)) = [] := by
    rw [List.flatMap_eq_nil_iff]
    intro line hline
    have hblank : isAllBlank line = true := List.mem_takeWhile_imp hline
    rw [(piecewise.blank hblank).2, visible_of_isAllBlank hblank]
  have hparts : ∀ part ∈ ((Text.lines text).dropWhile isAllBlank).map
      (unindent (commonIndent (Text.lines text))), whole part := by
    intro part hpart
    obtain ⟨line, hline, rfl⟩ := List.mem_map.mp hpart
    exact (piecewise.lines hwhole (hmem line hline)).2
  calc visible (read (dedent text))
    _ = ((Text.lines text).dropWhile isAllBlank).flatMap fun line =>
        visible (read (unindent (commonIndent (Text.lines text)) line)) := by
      rw [dedent, commonIndent_dropWhile, piecewise.visible_read_join hparts, List.flatMap_map]
    _ = ((Text.lines text).dropWhile isAllBlank).flatMap fun line => visible (read line) :=
      List.flatMap_congr hunindent
    _ = (Text.lines text).flatMap fun line => visible (read line) := by
      conv_rhs => rw [← List.takeWhile_append_dropWhile (p := isAllBlank) (l := Text.lines text)]
      rw [List.flatMap_append, hblank, List.nil_append]
    _ = visible (read text) := piecewise.flatMap_visible_lines hwhole

end Piecewise

theorem piecewise_id : Piecewise (fun _ => True) id where
  append := fun _ _ => rfl
  blank := fun _ => ⟨trivial, rfl⟩
  cut := fun _ => ⟨trivial, trivial⟩
  lines := fun _ _ => ⟨trivial, trivial⟩

theorem visible_dedent (text : Text) : visible (dedent text) = visible text :=
  piecewise_id.visible_read_dedent trivial

end Text

namespace Extraction

variable {source text : Text} {extraction : Extraction}

theorem piecewise_restore (extracted : ofSource source = .ok extraction) :
    Text.Piecewise (extraction.sentinels.Intact extraction.literals.length) extraction.restore where
  append := (wellFormed_of_ofSource extracted).restore_append
  blank := by
    intro text blank
    have reserved := reserved_of_ofSource extracted
    refine ⟨.of_isOutside reserved fun letter hletter => ?_, restore_of_isAllBlank reserved blank⟩
    exact Sentinels.isOutside_of_isBlank (List.all_eq_true.mp blank letter hletter)
  cut := fun intact => intact.cut (reserved_of_ofSource extracted) (by decide)
  lines := fun intact hline => ⟨intact.lines (reserved_of_ofSource extracted) _ hline,
    intact_unindent_of_mem_lines extracted intact hline⟩

/-- A text that is dedented before it is restored has lost nothing but blanks. -/
theorem visible_restore_dedent (extracted : ofSource source = .ok extraction)
    (intact : extraction.sentinels.Intact extraction.literals.length text) :
    Text.visible (extraction.restore (Text.dedent text)) = Text.visible (extraction.restore text) :=
  (piecewise_restore extracted).visible_read_dedent intact

/-- The Markdown of a text is the text, restored, apart from blanks. -/
theorem visible_markdown (extraction : Extraction) (text : Text) :
    Text.visible (DirectiveNode.markdown extraction text) = Text.visible (extraction.restore text) := by
  rw [DirectiveNode.markdown, Text.visible_trim, Text.visible_dedent]

end Extraction
end Courseware
