import Mathlib.Data.List.Basic
import Mathlib.Data.List.TakeWhile
import Courseware.Proofs.Text.Parts
import Courseware.Text.Lines

/-!
# The margins of a text

The margins of a text are the indents of its lines that are not blank. All that trimming and dedenting do to
the layout of a text can be seen in its margins: trimming changes the first one at most, and dedenting takes
the least of them from each. So two texts whose margins differ behind the first are different after trimming,
whatever else is in them.

`lines` passes over a text line by line, and `rows_induction` is the induction that follows it.
-/

namespace Courseware.Text

variable {text line row rest lead before after : Text} {parts : List Text} {bytes : Nat}

/-! ## Lines -/

/-- A text is empty, or it is one line, or it is a line with its line feed and what follows. -/
@[elab_as_elim]
theorem rows_induction {motive : Text → Prop} (nil : motive [])
    (last : ∀ line, line ≠ [] → '\n' ∉ line → motive line)
    (row : ∀ row rest, '\n' ∉ row → motive rest → motive (row ++ '\n' :: rest)) (text : Text) :
    motive text := by
  induction hlength : text.length using Nat.strongRecOn generalizing text with
  | ind length ih =>
    by_cases hfeed : '\n' ∈ text
    · obtain ⟨first, others, rfl, hfirst⟩ := List.eq_append_cons_of_mem hfeed
      apply row first others hfirst
      apply ih others.length _ others rfl
      rw [← hlength, List.length_append, List.length_cons]
      omega
    · cases text with
      | nil => exact nil
      | cons letter tail => exact last _ (List.cons_ne_nil _ _) hfeed

theorem lines_of_notMem (full : line ≠ []) (oneLine : '\n' ∉ line) : lines line = [line] := by
  have kept : ∀ letter ∈ line, (letter != '\n') = true := by
    intro letter hletter
    rw [bne_iff_ne]
    rintro rfl
    exact oneLine hletter
  obtain ⟨letter, tail, rfl⟩ := List.exists_cons_of_ne_nil full
  rw [lines]
  split
  · rfl
  · next feed after left =>
    rw [List.dropWhile_eq_nil_iff.mpr kept] at left
    cases left

theorem lines_append_feed (oneLine : '\n' ∉ row) (rest : Text) :
    lines (row ++ '\n' :: rest) = dropReturn row :: lines rest := by
  have kept : ∀ letter ∈ row, (letter != '\n') = true := by
    intro letter hletter
    rw [bne_iff_ne]
    rintro rfl
    exact oneLine hletter
  have hdrop : (row ++ '\n' :: rest).dropWhile (· != '\n') = '\n' :: rest := by
    rw [List.dropWhile_append_of_pos kept]
    rfl
  have htake : (row ++ '\n' :: rest).takeWhile (· != '\n') = row := by
    rw [List.takeWhile_append_of_pos kept, List.takeWhile_cons_of_neg (by decide), List.append_nil]
  obtain ⟨letter, tail, htext⟩ :=
    List.exists_cons_of_ne_nil (List.append_ne_nil_of_right_ne_nil row (List.cons_ne_nil '\n' rest))
  rw [htext] at hdrop htake ⊢
  rw [lines]
  split
  · next left => cases hdrop.symm.trans left
  · next feed after left =>
    obtain ⟨_, rfl⟩ := List.cons.inj (hdrop.symm.trans left)
    rw [htake]

theorem dropReturn_concat (line : Text) : dropReturn (line ++ ['\r']) = line := by
  unfold dropReturn
  split
  · exact List.dropLast_concat
  · next hlast => exact absurd List.getLast?_concat hlast

theorem dropReturn_of_getLast? (h : line.getLast? ≠ some '\r') : dropReturn line = line := by
  unfold dropReturn
  split
  · next hlast => exact absurd hlast h
  · rfl

/-- A line loses its last letter when this is a carriage return, and nothing else. -/
theorem dropReturn_cases (line : Text) :
    line.getLast? ≠ some '\r' ∧ dropReturn line = line ∨ line = dropReturn line ++ ['\r'] := by
  by_cases hlast : line.getLast? = some '\r'
  · right
    obtain ⟨earlier, rfl⟩ := List.getLast?_eq_some_iff.mp hlast
    rw [dropReturn_concat]
  · exact .inl ⟨hlast, dropReturn_of_getLast? hlast⟩

theorem notMem_of_mem_lines (h : line ∈ lines text) : '\n' ∉ line := by
  induction text using rows_induction with
  | nil =>
    rw [lines] at h
    exact absurd h List.not_mem_nil
  | last text full oneLine =>
    rw [lines_of_notMem full oneLine, List.mem_singleton] at h
    rwa [h]
  | row row rest oneLine ih =>
    rw [lines_append_feed oneLine] at h
    rcases List.mem_cons.mp h with rfl | hrest
    · rcases dropReturn_cases row with ⟨_, hsame⟩ | hreturn
      · rwa [hsame]
      · intro hmem
        exact oneLine (by rw [hreturn]; exact List.mem_append_left _ hmem)
    · exact ih hrest

/-- A line in front of others. -/
theorem join_cons (first : Text) (full : parts ≠ []) :
    join ['\n'] (first :: parts) = first ++ '\n' :: join ['\n'] parts := by
  obtain ⟨second, more, rfl⟩ := List.exists_cons_of_ne_nil full
  rw [join, List.intercalate_cons_cons, List.append_assoc, ← join]
  rfl

/-- What is put in front of a text on its first line is put in front of the first of its lines. -/
theorem split_append_of_notMem (oneLine : '\n' ∉ lead) (h : split '\n' text = line :: parts) :
    split '\n' (lead ++ text) = (lead ++ line) :: parts := by
  induction lead with
  | nil => exact h
  | cons letter others ih =>
    obtain ⟨hletter, hothers⟩ := List.ne_and_not_mem_of_not_mem_cons oneLine
    rw [List.cons_append, split, if_neg (by simpa using hletter.symm), ih hothers]
    rfl

/-! ## Blank texts -/

theorem isAllBlank_append :
    isAllBlank (before ++ after) = (isAllBlank before && isAllBlank after) := List.all_append

theorem isAllBlank_cons {letter : Char} :
    isAllBlank (letter :: rest) = (isBlank letter && isAllBlank rest) := List.all_cons

theorem isIndent_iff {letter : Char} : isIndent letter = true ↔ letter = ' ' ∨ letter = '\t' := by
  rw [isIndent, Bool.or_eq_true, beq_iff_eq, beq_iff_eq]

theorem isBlank_of_isIndent {letter : Char} (h : isIndent letter = true) : isBlank letter = true := by
  rcases isIndent_iff.mp h with rfl | rfl <;> decide

theorem isAllBlank_of_isIndent (indent : ∀ letter ∈ lead, isIndent letter = true) :
    isAllBlank lead = true :=
  List.all_eq_true.mpr fun letter hletter => isBlank_of_isIndent (indent letter hletter)

theorem trimStart_append_of_isAllBlank (blank : isAllBlank lead = true) (text : Text) :
    trimStart (lead ++ text) = trimStart text :=
  List.dropWhile_append_of_pos (List.all_eq_true.mp blank)

theorem trimStart_eq_nil_iff : trimStart text = [] ↔ isAllBlank text = true := by
  rw [trimStart, List.dropWhile_eq_nil_iff, isAllBlank, List.all_eq_true]

/-- Trimming the start stops inside a text that is not blank. -/
theorem trimStart_append (visible : isAllBlank before = false) (after : Text) :
    trimStart (before ++ after) = trimStart before ++ after := by
  have hne : before.dropWhile isBlank ≠ [] := by
    intro hnil
    rw [trimStart_eq_nil_iff.mp hnil] at visible
    exact nomatch visible
  rw [trimStart, List.dropWhile_append, if_neg (by rwa [List.isEmpty_iff])]
  rfl

theorem trimEnd_append_of_isAllBlank (text : Text) (blank : isAllBlank after = true) :
    trimEnd (text ++ after) = trimEnd text := by
  have hblank : ∀ letter ∈ after.reverse, isBlank letter = true := fun letter hletter =>
    List.all_eq_true.mp blank letter (List.mem_reverse.mp hletter)
  rw [trimEnd, dropTrailing, List.reverse_append, List.dropWhile_append_of_pos hblank]
  rfl

/-- Trimming the end stops inside a text that is not blank. -/
theorem trimEnd_append (before : Text) (visible : isAllBlank after = false) :
    trimEnd (before ++ after) = before ++ trimEnd after := by
  have hne : after.reverse.dropWhile isBlank ≠ [] := by
    intro hnil
    rw [List.dropWhile_eq_nil_iff] at hnil
    rw [isAllBlank, List.all_eq_true.mpr fun letter hletter =>
      hnil letter (List.mem_reverse.mpr hletter)] at visible
    exact nomatch visible
  rw [trimEnd, dropTrailing, List.reverse_append, List.dropWhile_append,
    if_neg (by rwa [List.isEmpty_iff]), List.reverse_append, List.reverse_reverse]
  rfl

theorem trimStart_append_cons {letter : Char} (visible : isBlank letter = false) (before after : Text) :
    trimStart (before ++ letter :: after) = trimStart before ++ letter :: after := by
  cases hbefore : isAllBlank before with
  | false => exact trimStart_append hbefore _
  | true =>
    rw [trimStart_append_of_isAllBlank hbefore, trimStart_eq_nil_iff.mpr hbefore, List.nil_append,
      trimStart, List.dropWhile_cons_of_neg (by rw [visible]; exact Bool.false_ne_true)]

theorem trimEnd_append_cons {letter : Char} (visible : isBlank letter = false) (before after : Text) :
    trimEnd (before ++ letter :: after) = before ++ letter :: trimEnd after := by
  have hletter : trimEnd (letter :: after) = letter :: trimEnd after := by
    cases hafter : isAllBlank after with
    | false => exact trimEnd_append [letter] hafter
    | true =>
      have hnil : trimEnd after = [] := by
        have hend := trimEnd_append_of_isAllBlank [] hafter
        rwa [List.nil_append] at hend
      have hsingle : trimEnd [letter] = [letter] := by
        rw [trimEnd, dropTrailing, List.reverse_singleton,
          List.dropWhile_cons_of_neg (by rw [visible]; exact Bool.false_ne_true), List.reverse_singleton]
      rw [← List.singleton_append, trimEnd_append_of_isAllBlank _ hafter, hsingle, hnil]
  have hfull : isAllBlank (letter :: after) = false := by
    rw [isAllBlank_cons, visible]
    rfl
  rw [trimEnd_append before hfull, hletter]

theorem trim_append_of_isAllBlank_left (blank : isAllBlank lead = true) (text : Text) :
    trim (lead ++ text) = trim text := by
  rw [trim, trimStart_append_of_isAllBlank blank, trim]

theorem trim_append_of_isAllBlank_right (text : Text) (blank : isAllBlank after = true) :
    trim (text ++ after) = trim text := by
  cases visible : isAllBlank text with
  | false => rw [trim, trimStart_append visible, trimEnd_append_of_isAllBlank _ blank, trim]
  | true =>
    have hnil : trimStart text = [] := trimStart_eq_nil_iff.mpr visible
    rw [trim, trimStart_append_of_isAllBlank visible, trimStart_eq_nil_iff.mpr blank, trim, hnil]

/-- Blank lines behind a line are blanks behind its text. -/
theorem exists_join_cons (line : Text) (blank : ∀ row ∈ parts, isAllBlank row = true) :
    ∃ blanks, join ['\n'] (line :: parts) = line ++ blanks ∧ isAllBlank blanks = true := by
  induction parts generalizing line with
  | nil => exact ⟨[], by rw [join, List.intercalate_singleton, List.append_nil], rfl⟩
  | cons second others ih =>
    obtain ⟨hsecond, hothers⟩ := List.forall_mem_cons.mp blank
    obtain ⟨blanks, hjoin, hblanks⟩ := ih second hothers
    refine ⟨'\n' :: (second ++ blanks), by rw [join_cons _ (List.cons_ne_nil _ _), hjoin], ?_⟩
    rw [isAllBlank_cons, isAllBlank_append, hsecond, hblanks]
    rfl

theorem isAllBlank_join (blank : ∀ row ∈ parts, isAllBlank row = true) :
    isAllBlank (join ['\n'] parts) = true := by
  cases parts with
  | nil => rfl
  | cons first others =>
    obtain ⟨hfirst, hothers⟩ := List.forall_mem_cons.mp blank
    obtain ⟨blanks, hjoin, hblanks⟩ := exists_join_cons first hothers
    rw [hjoin, isAllBlank_append, hfirst, hblanks]
    rfl

/-- Blank lines in front of lines are blanks in front of their text. -/
theorem exists_join_append {rows : List Text} (blank : ∀ row ∈ parts, isAllBlank row = true)
    (full : rows ≠ []) :
    ∃ blanks, join ['\n'] (parts ++ rows) = blanks ++ join ['\n'] rows ∧ isAllBlank blanks = true := by
  induction parts with
  | nil => exact ⟨[], rfl, rfl⟩
  | cons first others ih =>
    obtain ⟨hfirst, hothers⟩ := List.forall_mem_cons.mp blank
    obtain ⟨blanks, hjoin, hblanks⟩ := ih hothers
    refine ⟨first ++ '\n' :: blanks, ?_, ?_⟩
    · rw [List.cons_append, join_cons _ (List.append_ne_nil_of_right_ne_nil _ full), hjoin,
        List.append_assoc, List.cons_append]
    · rw [isAllBlank_append, isAllBlank_cons, hfirst, hblanks]
      rfl

/-- Blank lines are dropped before lines are changed or afterwards, if they stay blank or visible. -/
theorem dropWhile_isAllBlank_map {change : Text → Text}
    (h : ∀ row ∈ parts, isAllBlank (change row) = isAllBlank row) :
    (parts.map change).dropWhile isAllBlank = (parts.dropWhile isAllBlank).map change := by
  induction parts with
  | nil => rfl
  | cons row others ih =>
    obtain ⟨hrow, hothers⟩ := List.forall_mem_cons.mp h
    rw [List.map_cons]
    cases visible : isAllBlank row with
    | true =>
      rw [List.dropWhile_cons_of_pos (hrow.trans visible), List.dropWhile_cons_of_pos visible, ih hothers]
    | false =>
      rw [List.dropWhile_cons_of_neg (by rw [hrow, visible]; exact Bool.false_ne_true),
        List.dropWhile_cons_of_neg (by rw [visible]; exact Bool.false_ne_true), List.map_cons]

/-! ## Margins -/

/-- The indent of a line, unless it is blank. -/
def margin? (line : Text) : Option Nat := if isAllBlank line then none else some (indentOf line)

/-- The indents of the lines that are not blank. -/
def margins (text : Text) : List Nat := (split '\n' text).filterMap margin?

theorem margin?_of_isAllBlank (blank : isAllBlank line = true) : margin? line = none := if_pos blank

theorem margin?_of_visible (visible : isAllBlank line = false) : margin? line = some (indentOf line) :=
  if_neg (by simp [visible])

theorem margin?_cons_of_visible {letter : Char} (visible : isBlank letter = false) (rest : Text) :
    margin? (letter :: rest) = some 0 := by
  have hindent : ¬isIndent letter = true := by
    intro h
    rw [isBlank_of_isIndent h] at visible
    exact nomatch visible
  rw [margin?_of_visible (by rw [isAllBlank_cons, visible]; rfl), indentOf,
    List.takeWhile_cons_of_neg hindent]
  rfl

theorem margin?_cons_of_isBlank {letter : Char} (blank : isBlank letter = true) (rest : Text) :
    margin? (letter :: rest) =
      (margin? rest).map fun indent => if isIndent letter then indent + 1 else 0 := by
  have hblank : isAllBlank (letter :: rest) = isAllBlank rest := by
    rw [isAllBlank_cons, blank, Bool.true_and]
  cases visible : isAllBlank rest with
  | true => rw [margin?_of_isAllBlank (hblank.trans visible), margin?_of_isAllBlank visible, Option.map_none]
  | false =>
    rw [margin?_of_visible (hblank.trans visible), margin?_of_visible visible, Option.map_some, indentOf]
    by_cases hindent : isIndent letter = true
    · rw [List.takeWhile_cons_of_pos hindent, if_pos hindent, List.length_cons, indentOf]
    · rw [List.takeWhile_cons_of_neg hindent, if_neg hindent, List.length_nil]

/-- Lines with the same margin have the same margin behind any letter. -/
theorem margin?_cons_congr {other : Text} (h : margin? line = margin? other) (letter : Char) :
    margin? (letter :: line) = margin? (letter :: other) := by
  cases hletter : isBlank letter with
  | false => rw [margin?_cons_of_visible hletter, margin?_cons_of_visible hletter]
  | true => rw [margin?_cons_of_isBlank hletter, margin?_cons_of_isBlank hletter, h]

theorem margin?_eq_none_iff : margin? line = none ↔ isAllBlank line = true := by
  unfold margin?
  split <;> simp_all

theorem margins_of_notMem (oneLine : '\n' ∉ line) : margins line = (margin? line).toList := by
  rw [margins, split_of_notMem oneLine]
  cases h : margin? line with
  | none => rw [List.filterMap_cons_none h]; rfl
  | some indent => rw [List.filterMap_cons_some h]; rfl

theorem margins_nil : margins [] = [] := margins_of_notMem List.not_mem_nil

theorem margins_append_feed (before after : Text) :
    margins (before ++ '\n' :: after) = margins before ++ margins after := by
  rw [margins, split_append_separator, List.filterMap_append]
  rfl

theorem margins_join (parts : List Text) : margins (join ['\n'] parts) = parts.flatMap margins := by
  induction parts with
  | nil => exact margins_nil
  | cons first others ih =>
    cases others with
    | nil => rw [join, List.intercalate_singleton, List.flatMap_singleton]
    | cons second more =>
      rw [join, List.intercalate_cons_cons, List.append_assoc, List.singleton_append,
        margins_append_feed, ← join, ih]
      exact List.flatMap_cons.symm

/-- An indent is not changed by what stands behind a letter that does not belong to it. -/
theorem indentOf_append (visible : isAllBlank line = false) (after : Text) :
    indentOf (line ++ after) = indentOf line := by
  have hstop : ¬∀ letter ∈ line, isIndent letter = true := by
    intro hindent
    rw [isAllBlank_of_isIndent hindent] at visible
    exact nomatch visible
  rw [indentOf, List.takeWhile_append, if_neg, indentOf]
  intro hlength
  apply hstop
  rw [← List.takeWhile_eq_self_iff]
  exact (List.takeWhile_prefix _).eq_of_length hlength

theorem margin?_append_of_isAllBlank (blank : isAllBlank after = true) :
    margin? (line ++ after) = margin? line := by
  cases visible : isAllBlank line with
  | true =>
    rw [margin?_of_isAllBlank visible, margin?_of_isAllBlank]
    rw [isAllBlank_append, visible, blank]
    rfl
  | false =>
    rw [margin?_of_visible visible, margin?_of_visible, indentOf_append visible]
    rw [isAllBlank_append, visible]
    rfl

theorem margin?_dropReturn (line : Text) : margin? (dropReturn line) = margin? line := by
  rcases dropReturn_cases line with ⟨_, hsame⟩ | hreturn
  · rw [hsame]
  · have hblank : isAllBlank ['\r'] = true := rfl
    rw [← margin?_append_of_isAllBlank hblank, ← hreturn]

/-- The lines of a text have its margins. -/
theorem filterMap_margin?_lines (text : Text) : (lines text).filterMap margin? = margins text := by
  induction text using rows_induction with
  | nil =>
    rw [lines, margins_nil]
    rfl
  | last line full oneLine =>
    rw [lines_of_notMem full oneLine, margins, split_of_notMem oneLine]
  | row row rest oneLine ih =>
    rw [lines_append_feed oneLine, margins_append_feed, margins_of_notMem oneLine, ← ih,
      ← margin?_dropReturn]
    cases h : margin? (dropReturn row) with
    | none => exact List.filterMap_cons_none h
    | some indent => exact List.filterMap_cons_some h

/-! ## Trimming -/

theorem tail_margins_trimStart (text : Text) : (margins (trimStart text)).tail = (margins text).tail := by
  induction text with
  | nil => rfl
  | cons letter rest ih =>
    cases hletter : isBlank letter with
    | false => rw [trimStart, List.dropWhile_cons_of_neg (by simp [hletter])]
    | true =>
      rw [trimStart, List.dropWhile_cons_of_pos hletter, ← trimStart, ih]
      by_cases hfeed : letter = '\n'
      · subst hfeed
        rw [← List.nil_append ('\n' :: rest), margins_append_feed, margins_nil, List.nil_append]
      · -- The letter belongs to the first line, which is blank with it exactly when it is blank without it.
        obtain ⟨first, others, hsplit⟩ := List.exists_cons_of_ne_nil (split_ne_nil '\n' rest)
        have hsplit' : split '\n' (letter :: rest) = (letter :: first) :: others := by
          rw [split, if_neg (by simpa using hfeed), hsplit]
        have hmargin := margin?_cons_of_isBlank hletter first
        rw [margins, margins, hsplit, hsplit']
        cases hfirst : margin? first with
        | none =>
          rw [hfirst, Option.map_none] at hmargin
          rw [List.filterMap_cons_none hmargin, List.filterMap_cons_none hfirst]
        | some indent =>
          rw [hfirst, Option.map_some] at hmargin
          rw [List.filterMap_cons_some hmargin, List.filterMap_cons_some hfirst, List.tail_cons,
            List.tail_cons]

theorem margins_of_isAllBlank (blank : isAllBlank text = true) : margins text = [] := by
  induction text using rows_induction with
  | nil => exact margins_nil
  | last line full oneLine =>
    rw [margins_of_notMem oneLine, margin?_of_isAllBlank blank]
    rfl
  | row row rest oneLine ih =>
    rw [isAllBlank_append, isAllBlank_cons, Bool.and_eq_true, Bool.and_eq_true] at blank
    rw [margins_append_feed, margins_of_notMem oneLine, margin?_of_isAllBlank blank.1, ih blank.2.2]
    rfl

/-- A text without margins is blank. -/
theorem isAllBlank_of_margins_eq_nil (h : margins text = []) : isAllBlank text = true := by
  have hline : ∀ line, '\n' ∉ line → margins line = [] → isAllBlank line = true := by
    intro line oneLine hnil
    rw [margins_of_notMem oneLine, Option.toList_eq_nil_iff] at hnil
    exact margin?_eq_none_iff.mp hnil
  induction text using rows_induction with
  | nil => rfl
  | last line full oneLine => exact hline line oneLine h
  | row row rest oneLine ih =>
    rw [margins_append_feed, List.append_eq_nil_iff] at h
    rw [isAllBlank_append, isAllBlank_cons, hline row oneLine h.1, ih h.2]
    rfl

theorem margins_append_of_isAllBlank (text : Text) (blank : isAllBlank after = true) :
    margins (text ++ after) = margins text := by
  induction text using rows_induction with
  | nil => rw [List.nil_append, margins_of_isAllBlank blank, margins_nil]
  | row row rest oneLine ih =>
    rw [List.append_assoc, List.cons_append, margins_append_feed, ih, margins_append_feed]
  | last line full oneLine =>
    -- The line goes on up to the first line feed among the blanks.
    by_cases hfeed : '\n' ∈ after
    · obtain ⟨first, others, rfl, hfirst⟩ := List.eq_append_cons_of_mem hfeed
      rw [isAllBlank_append, isAllBlank_cons, Bool.and_eq_true, Bool.and_eq_true] at blank
      have honeLine : '\n' ∉ line ++ first := by
        rw [List.mem_append, not_or]
        exact ⟨oneLine, hfirst⟩
      rw [← List.append_assoc, margins_append_feed, margins_of_isAllBlank blank.2.2, List.append_nil,
        margins_of_notMem honeLine, margin?_append_of_isAllBlank blank.1, margins_of_notMem oneLine]
    · have honeLine : '\n' ∉ line ++ after := by
        rw [List.mem_append, not_or]
        exact ⟨oneLine, hfeed⟩
      rw [margins_of_notMem honeLine, margin?_append_of_isAllBlank blank, margins_of_notMem oneLine]

/-- A text is what trimming its end leaves, and blanks. -/
theorem exists_trimEnd_append (text : Text) :
    ∃ blanks, text = trimEnd text ++ blanks ∧ isAllBlank blanks = true := by
  refine ⟨(text.reverse.takeWhile isBlank).reverse, ?_, ?_⟩
  · rw [trimEnd, dropTrailing, ← List.reverse_append, List.takeWhile_append_dropWhile,
      List.reverse_reverse]
  · rw [isAllBlank, List.all_eq_true]
    intro letter hletter
    exact List.mem_takeWhile_imp (List.mem_reverse.mp hletter)

/-- Trimming changes no margin but the first. -/
theorem tail_margins_trim (text : Text) : (margins (trim text)).tail = (margins text).tail := by
  obtain ⟨blanks, htext, blank⟩ := exists_trimEnd_append (trimStart text)
  have hmargins := margins_append_of_isAllBlank (trimEnd (trimStart text)) blank
  rw [← htext] at hmargins
  rw [trim, ← hmargins, tail_margins_trimStart]

/-! ## Dedenting -/

/-- What is left of a line without an indent is its end. -/
theorem unindent_suffix (bytes : Nat) (line : Text) : unindent bytes line <:+ line := by
  have hdrop : ∀ rest, dropExactly? bytes line = some rest → rest <:+ line := by
    intro rest h
    fun_induction dropExactly? bytes line with
    | case1 =>
      obtain rfl := Option.some.inj h
      exact List.suffix_refl _
    | case2 => exact nomatch h
    | case3 bytes letter line _ _ ih => exact (ih h).trans (List.suffix_cons letter line)
    | case4 => exact nomatch h
  rw [unindent]
  cases h : dropExactly? bytes line with
  | none => exact List.dropWhile_suffix isBlank
  | some rest => exact hdrop rest h

theorem unindent_zero (line : Text) : unindent 0 line = line := by
  cases line <;> rfl

theorem dropExactly?_eq_drop (h : bytes ≤ indentOf line) :
    dropExactly? bytes line = some (line.drop bytes) := by
  induction bytes generalizing line with
  | zero => cases line <;> rfl
  | succ bytes ih =>
    cases line with
    | nil => exact absurd h (Nat.not_succ_le_zero _)
    | cons letter others =>
      by_cases hletter : isIndent letter = true
      · rw [indentOf, List.takeWhile_cons_of_pos hletter, List.length_cons] at h
        have hsize : letter.utf8Size = 1 := by rcases isIndent_iff.mp hletter with rfl | rfl <;> rfl
        rw [dropExactly?, if_pos (by omega), hsize, Nat.add_sub_cancel,
          ih (Nat.le_of_succ_le_succ h), List.drop_succ_cons]
        exact Nat.succ_ne_zero bytes
      · rw [indentOf, List.takeWhile_cons_of_neg hletter] at h
        exact absurd h (Nat.not_succ_le_zero _)

/-- A line loses an indent that it has. -/
theorem unindent_eq_drop (h : bytes ≤ indentOf line) : unindent bytes line = line.drop bytes := by
  rw [unindent, dropExactly?_eq_drop h, Option.getD_some]

/-- The indent that a line loses, and what is left. -/
theorem exists_append_unindent (h : bytes ≤ indentOf line) :
    ∃ lead, line = lead ++ unindent bytes line ∧ (∀ letter ∈ lead, isIndent letter = true) ∧
      lead.length = bytes := by
  refine ⟨line.take bytes, ?_, ?_, ?_⟩
  · rw [unindent_eq_drop h, List.take_append_drop]
  · intro letter hletter
    have hstart : line.take bytes <+: line.takeWhile isIndent := by
      apply List.prefix_of_prefix_length_le (List.take_prefix _ _) (List.takeWhile_prefix _)
      rw [List.length_take]
      exact (Nat.min_le_left _ _).trans h
    exact List.mem_takeWhile_imp (hstart.mem hletter)
  · have hlength : indentOf line ≤ line.length := (List.takeWhile_prefix _).length_le
    rw [List.length_take]
    omega

/-- An indent that is put in front of a line adds to its own. -/
theorem indentOf_append_left (indent : ∀ letter ∈ lead, isIndent letter = true) (line : Text) :
    indentOf (lead ++ line) = lead.length + indentOf line := by
  rw [indentOf, List.takeWhile_append_of_pos indent, List.length_append, indentOf]

/-- What is left of a blank line is blank. -/
theorem isAllBlank_unindent (blank : isAllBlank line = true) (bytes : Nat) :
    isAllBlank (unindent bytes line) = true := by
  rw [isAllBlank, List.all_eq_true] at blank ⊢
  exact fun letter hletter => blank letter ((unindent_suffix bytes line).mem hletter)

/-- An indent that has been put in front of a line is taken away again. -/
theorem unindent_append (indent : ∀ letter ∈ lead, isIndent letter = true) (line : Text) :
    unindent lead.length (lead ++ line) = line := by
  have hle : lead.length ≤ indentOf (lead ++ line) := by
    rw [indentOf_append_left indent]
    exact Nat.le_add_right _ _
  rw [unindent_eq_drop hle, List.drop_left]

theorem margin?_unindent (h : ∀ indent ∈ margin? line, bytes ≤ indent) :
    margin? (unindent bytes line) = (margin? line).map (· - bytes) := by
  cases visible : isAllBlank line with
  | true =>
    rw [margin?_of_isAllBlank visible, margin?_of_isAllBlank (isAllBlank_unindent visible bytes)]
    rfl
  | false =>
    rw [margin?_of_visible visible] at h ⊢
    obtain ⟨lead, hline, indent, rfl⟩ := exists_append_unindent (h _ rfl)
    have hlead := isAllBlank_of_isIndent indent
    have hrest : isAllBlank (unindent lead.length line) = false := by
      rw [hline, isAllBlank_append, hlead] at visible
      exact visible
    have hindent := indentOf_append_left indent (unindent lead.length line)
    rw [← hline] at hindent
    rw [margin?_of_visible hrest, hindent, Option.map_some, Nat.add_sub_cancel_left]

theorem commonIndent_eq (rows : List Text) :
    commonIndent rows = (rows.filterMap margin?).min?.getD 0 := by
  have hmargins : (rows.filter fun row => !isAllBlank row).map indentOf = rows.filterMap margin? := by
    induction rows with
    | nil => rfl
    | cons row others ih =>
      cases visible : isAllBlank row with
      | true =>
        rw [List.filter_cons_of_neg (by simp [visible]), ih,
          List.filterMap_cons_none (margin?_of_isAllBlank visible)]
      | false =>
        rw [List.filter_cons_of_pos (by simp [visible]), List.map_cons, ih,
          List.filterMap_cons_some (margin?_of_visible visible)]
  rw [commonIndent, hmargins]

theorem filterMap_margin?_dropWhile (rows : List Text) :
    (rows.dropWhile isAllBlank).filterMap margin? = rows.filterMap margin? := by
  have hblank : (rows.takeWhile isAllBlank).filterMap margin? = [] := by
    rw [List.filterMap_eq_nil_iff]
    exact fun row hrow => margin?_of_isAllBlank (List.mem_takeWhile_imp hrow)
  calc (rows.dropWhile isAllBlank).filterMap margin?
    _ = (rows.takeWhile isAllBlank).filterMap margin? ++
        (rows.dropWhile isAllBlank).filterMap margin? := by rw [hblank, List.nil_append]
    _ = rows.filterMap margin? := by rw [← List.filterMap_append, List.takeWhile_append_dropWhile]

/-- Blank lines have no part in the common indent. -/
theorem commonIndent_dropWhile (rows : List Text) :
    commonIndent (rows.dropWhile isAllBlank) = commonIndent rows := by
  rw [commonIndent_eq, commonIndent_eq, filterMap_margin?_dropWhile]

/-- Every line that is not blank has the common indent. -/
theorem commonIndent_le {rows : List Text} (h : line ∈ rows) :
    ∀ indent ∈ margin? line, commonIndent rows ≤ indent := by
  intro indent hindent
  rw [commonIndent_eq]
  exact List.min?_getD_le_of_mem (List.mem_filterMap.mpr ⟨line, h, hindent⟩)

/-- Dedenting takes the common indent from every margin. -/
theorem margins_dedent (text : Text) :
    margins (dedent text) = (margins text).map (· - commonIndent (lines text)) := by
  have hrow : ∀ row ∈ (lines text).dropWhile isAllBlank,
      margins (unindent (commonIndent (lines text)) row) =
        ((margin? row).map (· - commonIndent (lines text))).toList := by
    intro row hrow
    have hmem : row ∈ lines text := (List.dropWhile_sublist _).mem hrow
    have honeLine : '\n' ∉ unindent (commonIndent (lines text)) row := fun hfeed =>
      notMem_of_mem_lines hmem ((unindent_suffix _ _).mem hfeed)
    rw [margins_of_notMem honeLine, margin?_unindent (commonIndent_le hmem)]
  rw [dedent, commonIndent_dropWhile, margins_join, List.flatMap_map, List.flatMap_congr hrow,
    ← filterMap_margin?_lines, ← filterMap_margin?_dropWhile, List.map_filterMap,
    List.filterMap_eq_flatMap_toList]

end Courseware.Text
