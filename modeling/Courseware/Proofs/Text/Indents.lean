import Mathlib.Data.List.Forall2
import Courseware.Proofs.Text.Margins

/-!
# The indent that dedenting takes away

Dedenting takes the same number of spaces and tabs from every line that is not blank, which is the number at
the start of the line that has the fewest. It does not look at which of the two they are. So all lines lose one
string exactly if the indent of one line stands at the start of them all (`dedent_loses_indent_iff`). Where a
line is indented by a tab and another by spaces there is no such line, and then the lines have no indent in
common, but each of them loses a part of its own (`dedent_mixes_indents`).

The lines of the outcome are taken between its line feeds, as `split` has them. `lines` would not do: a line
may end with a carriage return, which is then taken for a part of its end.
-/

namespace Courseware.Text

variable {text line lead other : Text} {rows left : List Text} {count : Nat}

/-- The lines of a text behind its leading blank lines. -/
def body (text : Text) : List Text := (lines text).dropWhile isAllBlank

/-- The spaces and tabs at the start of a line. -/
def indent (line : Text) : Text := line.takeWhile isIndent

/-- What is left of rows when each that is not blank loses so many spaces and tabs at its start. -/
def Loses (count : Nat) (rows left : List Text) : Prop :=
  List.Forall₂ (fun line rest => isAllBlank line = false →
    ∃ lead, line = lead ++ rest ∧ lead.length = count ∧ ∀ letter ∈ lead, isIndent letter = true) rows left

/-- Rows lose `lead` in common: it consists of spaces and tabs, each row that is not blank is `lead` and what
is left of the row, and no longer string of spaces and tabs stands at the start of all these rows. -/
structure LosesIndent (lead : Text) (rows left : List Text) : Prop where
  spaces : ∀ letter ∈ lead, isIndent letter = true
  taken : List.Forall₂ (fun line rest => isAllBlank line = false → line = lead ++ rest) rows left
  longest : ∀ other : Text, (∀ letter ∈ other, isIndent letter = true) →
    (∀ line ∈ rows, isAllBlank line = false → other <+: line) → other.length ≤ lead.length

/-! ## Indents -/

/-- Spaces and tabs at the start of a line belong to its indent. -/
theorem prefix_indent (spaces : ∀ letter ∈ other, isIndent letter = true) (h : other <+: line) :
    other <+: indent line := by
  obtain ⟨rest, rfl⟩ := h
  rw [indent, List.takeWhile_append_of_pos spaces]
  exact List.prefix_append other _

/-- An indent that is as long as that of a line is the indent of the line. -/
theorem eq_indent (spaces : ∀ letter ∈ lead, isIndent letter = true) (h : lead <+: line)
    (length : lead.length = indentOf line) : lead = indent line :=
  (prefix_indent spaces h).eq_of_length length

/-! ## Lines that are not blank -/

/-- A line that is not blank is not dropped. -/
theorem mem_body (h : line ∈ lines text) (visible : isAllBlank line = false) : line ∈ body text := by
  rw [← List.takeWhile_append_dropWhile (p := isAllBlank) (l := lines text), List.mem_append] at h
  refine h.resolve_left fun hblank => ?_
  rw [List.mem_takeWhile_imp hblank] at visible
  exact nomatch visible

/-- Where some line is not blank, one of these lines is indented by the common indent only. -/
theorem exists_indentOf_eq (h : line ∈ rows) (visible : isAllBlank line = false) :
    ∃ least ∈ rows, isAllBlank least = false ∧ indentOf least = commonIndent rows := by
  have hmem : indentOf line ∈ rows.filterMap margin? :=
    List.mem_filterMap.mpr ⟨line, h, margin?_of_visible visible⟩
  obtain ⟨least, hleast⟩ := Option.isSome_iff_exists.mp (List.isSome_min?_of_mem hmem)
  obtain ⟨row, hrow, hmargin⟩ := List.mem_filterMap.mp (List.min?_mem hleast)
  cases hblank : isAllBlank row with
  | true => exact nomatch (margin?_of_isAllBlank hblank).symm.trans hmargin
  | false =>
    rw [margin?_of_visible hblank] at hmargin
    refine ⟨row, hrow, hblank, ?_⟩
    rw [Option.some.inj hmargin, commonIndent_eq, hleast, Option.getD_some]

theorem commonIndent_le_indentOf (h : line ∈ rows) (visible : isAllBlank line = false) :
    commonIndent rows ≤ indentOf line :=
  commonIndent_le h _ (margin?_of_visible visible)

/-! ## What dedenting leaves -/

/-- The lines of a text that has been dedented. -/
theorem split_dedent (full : body text ≠ []) :
    split '\n' (dedent text) = (body text).map (unindent (commonIndent (body text))) := by
  have hlines : ∀ row ∈ (body text).map (unindent (commonIndent (body text))), '\n' ∉ row := by
    intro row hrow hfeed
    obtain ⟨line, hline, rfl⟩ := List.mem_map.mp hrow
    exact notMem_of_mem_lines ((List.dropWhile_sublist _).mem hline)
      ((unindent_suffix _ line).mem hfeed)
  exact split_join (fun hnil => full (List.map_eq_nil_iff.mp hnil)) hlines

/-- Rows lose as much as the least of them is indented by. -/
theorem loses_unindent (rows : List Text) :
    Loses (commonIndent rows) rows (rows.map (unindent (commonIndent rows))) := by
  rw [Loses, List.forall₂_map_right_iff, List.forall₂_same]
  intro line hline visible
  obtain ⟨lead, hlead, spaces, length⟩ :=
    exists_append_unindent (commonIndent_le_indentOf hline visible)
  exact ⟨lead, hlead, length, spaces⟩

/-- Rows that begin with the indent of one of them lose this indent. -/
theorem losesIndent_unindent (h : line ∈ rows) (visible : isAllBlank line = false)
    (shared : ∀ row ∈ rows, isAllBlank row = false → indent line <+: row) :
    LosesIndent (indent line) rows (rows.map (unindent (commonIndent rows))) := by
  have spaces : ∀ letter ∈ indent line, isIndent letter = true := fun letter hletter =>
    List.mem_takeWhile_imp hletter
  have hcount : (indent line).length = commonIndent rows := by
    obtain ⟨least, hleast, hvisible, hindent⟩ := exists_indentOf_eq h visible
    apply Nat.le_antisymm _ (commonIndent_le_indentOf h visible)
    rw [← hindent]
    exact (prefix_indent spaces (shared least hleast hvisible)).length_le
  constructor
  case spaces => exact spaces
  case taken =>
    rw [List.forall₂_map_right_iff, List.forall₂_same]
    intro row hrow hvisible
    obtain ⟨rest, rfl⟩ := shared row hrow hvisible
    rw [← hcount, unindent_append spaces]
  case longest =>
    intro other hspaces hother
    exact (prefix_indent hspaces (hother line h visible)).length_le

/-- If rows lose one string, it is the indent of the least of them. -/
theorem LosesIndent.exists_shared (h : line ∈ rows) (visible : isAllBlank line = false)
    (loses : LosesIndent lead rows (rows.map (unindent (commonIndent rows)))) :
    ∃ least ∈ rows, isAllBlank least = false ∧
      ∀ row ∈ rows, isAllBlank row = false → indent least <+: row := by
  obtain ⟨spaces, hrows, _⟩ := loses
  rw [List.forall₂_map_right_iff, List.forall₂_same] at hrows
  obtain ⟨least, hleast, hvisible, hindent⟩ := exists_indentOf_eq h visible
  have hline := hrows least hleast hvisible
  -- The least indented row loses its whole indent.
  have hlength : lead.length = indentOf least := by
    have hwidth := congrArg List.length hline
    have hlt := (List.takeWhile_prefix isIndent (l := least)).length_le
    rw [indentOf] at hindent ⊢
    rw [List.length_append, unindent_eq_drop hindent.ge, List.length_drop] at hwidth
    omega
  have hlead : lead = indent least := eq_indent spaces ⟨_, hline.symm⟩ hlength
  refine ⟨least, hleast, hvisible, fun row hrow hvisible => ?_⟩
  rw [← hlead]
  exact ⟨_, (hrows row hrow hvisible).symm⟩

/-- Dedenting takes one number of spaces and tabs from all lines that are not blank, as many as one of them has.
They lose one string, which is the longest that they have in common, exactly if all of them begin with the
indent of one of them. -/
theorem dedent_loses_indent_iff (visible : ∃ line ∈ lines text, isAllBlank line = false) :
    (∃ line ∈ body text, isAllBlank line = false ∧
      Loses (indentOf line) (body text) (split '\n' (dedent text))) ∧
    ((∃ lead, LosesIndent lead (body text) (split '\n' (dedent text))) ↔
      ∃ line ∈ body text, isAllBlank line = false ∧
        ∀ row ∈ body text, isAllBlank row = false → indent line <+: row) := by
  obtain ⟨line, hline, hvisible⟩ := visible
  have hbody := mem_body hline hvisible
  rw [split_dedent (List.ne_nil_of_mem hbody)]
  constructor
  · obtain ⟨least, hleast, hshown, hindent⟩ := exists_indentOf_eq hbody hvisible
    refine ⟨least, hleast, hshown, ?_⟩
    rw [hindent]
    exact loses_unindent (body text)
  · constructor
    · rintro ⟨lead, loses⟩
      exact loses.exists_shared hbody hvisible
    · rintro ⟨shared, hshared, hshown, hrows⟩
      exact ⟨indent shared, losesIndent_unindent hshared hshown hrows⟩

/-- A line that is indented by a tab, and one that is indented by two spaces. -/
def mixedIndents : Text := "\ta\n  b".toList

/-- Each of the two lines loses a letter, and they are not the same letters. -/
theorem dedent_loses_indent_iff_mixed :
    (∃ line ∈ body mixedIndents, Loses (indentOf line) (body mixedIndents) [['a'], [' ', 'b']]) ∧
      ¬∃ lead, LosesIndent lead (body mixedIndents) [['a'], [' ', 'b']] := by
  have visible : ∃ line ∈ lines mixedIndents, isAllBlank line = false := by decide +kernel
  have hsplit : split '\n' (dedent mixedIndents) = [['a'], [' ', 'b']] := by decide +kernel
  obtain ⟨⟨line, hline, _, loses⟩, hiff⟩ := dedent_loses_indent_iff visible
  rw [hsplit] at loses hiff
  refine ⟨⟨line, hline, loses⟩, fun hlead => ?_⟩
  obtain ⟨shared, hshared, _, hrows⟩ := hiff.mp hlead
  have apart : ¬∃ line ∈ body mixedIndents, ∀ row ∈ body mixedIndents, indent line <+: row := by
    decide +kernel
  refine apart ⟨shared, hshared, fun row hrow => hrows row hrow ?_⟩
  revert row
  decide +kernel

/-- The lines of a text need not lose one string. -/
theorem dedent_mixes_indents :
    ¬∀ text : Text, (∃ line ∈ lines text, isAllBlank line = false) →
      ∃ lead, LosesIndent lead (body text) (split '\n' (dedent text)) := by
  intro loses
  obtain ⟨lead, _, hlines, _⟩ := loses mixedIndents (by decide +kernel)
  have hbody : body mixedIndents = [['\t', 'a'], [' ', ' ', 'b']] := by decide +kernel
  have hsplit : split '\n' (dedent mixedIndents) = [['a'], [' ', 'b']] := by decide +kernel
  rw [hbody, hsplit, List.forall₂_cons, List.forall₂_cons] at hlines
  obtain ⟨hfirst, hsecond, _⟩ := hlines
  -- One line says that the string is a tab, the other that it is a space.
  have htab : ['\t'] = lead := List.append_cancel_right (hfirst (by decide))
  have hspace : [' '] = lead := List.append_cancel_right (hsecond (by decide))
  exact absurd (htab.trans hspace.symm) (by decide)

end Courseware.Text
