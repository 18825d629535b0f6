import Courseware.Proofs.Source.Rows

/-!
# Dedenting before restoring

A text with placeholders can be dedented before its literals are restored or afterwards. Literals that stand on
one line make no difference. A literal that spans lines does: its lines but the first are dedented only if it
is restored first. `trim_restore_dedent_iff` says when the results are the same all the same. No indent may
have been taken away then, from the literals or from the lines around them, and no line of a literal may end
with a carriage return, which dedenting takes away as well.

That these conditions are necessary can be read off the margins. Behind the first one, on which trimming has a
hold, the margins of both results must agree line by line (`eq_zero_of_tail_eq`).
-/

namespace Courseware

namespace Text

variable {text : Text}

/-- A text with bare line feeds between its lines. -/
def withFeeds (text : Text) : Text := join ['\n'] (lines text)

/-- Blank lines in front are trimmed away, also after a change that leaves blanks in front alone. -/
theorem trim_join_dropWhile {change : Text → Text}
    (keeps : ∀ blanks text, isAllBlank blanks = true → change (blanks ++ text) = blanks ++ change text)
    (rows : List Text) :
    trim (change (join ['\n'] (rows.dropWhile isAllBlank))) = trim (change (join ['\n'] rows)) := by
  have hblank : ∀ row ∈ rows.takeWhile isAllBlank, isAllBlank row = true := fun row hrow =>
    List.mem_takeWhile_imp hrow
  have hrows := List.takeWhile_append_dropWhile (p := isAllBlank) (l := rows)
  by_cases hkept : rows.dropWhile isAllBlank = []
  · rw [hkept, List.append_nil] at hrows
    rw [hrows] at hblank
    have hchange := keeps _ [] (isAllBlank_join hblank)
    rw [List.append_nil] at hchange
    rw [hkept, hchange, trim_append_of_isAllBlank_left (isAllBlank_join hblank)]
    rfl
  · obtain ⟨blanks, hjoin, hblanks⟩ := exists_join_append hblank hkept
    rw [hrows] at hjoin
    rw [hjoin, keeps _ _ hblanks, trim_append_of_isAllBlank_left hblanks]

theorem map_unindent_zero (rows : List Text) : rows.map (unindent 0) = rows :=
  (List.map_congr_left fun row _ => unindent_zero row).trans (List.map_id rows)

/-- Without a common indent, dedenting a text changes nothing but its line ends and blanks around it. -/
theorem trim_dedent_of_commonIndent_eq_zero (flush : commonIndent (lines text) = 0) :
    trim (dedent text) = trim (withFeeds text) := by
  rw [dedent, commonIndent_dropWhile, flush, map_unindent_zero]
  exact @trim_join_dropWhile id (fun _ _ _ => rfl) (lines text)

/-! ## Comparing margins -/

/-- Parts of the same lengths can be told from what they are one after the other. -/
theorem eq_of_flatMap_eq {α β : Type} {items : List α} {first second : α → List β}
    (length : ∀ item ∈ items, (first item).length = (second item).length)
    (h : items.flatMap first = items.flatMap second) : ∀ item ∈ items, first item = second item := by
  induction items with
  | nil => exact fun item hitem => absurd hitem List.not_mem_nil
  | cons item others ih =>
    obtain ⟨hitem, hothers⟩ := List.forall_mem_cons.mp length
    obtain ⟨hfirst, hrest⟩ := List.append_inj h hitem
    exact List.forall_mem_cons.mpr ⟨hfirst, ih hothers hrest⟩

section
variable {α : Type} {rows : List α} {own : α → Option Nat} {added : α → List Nat} {bytes common : Nat}

/-- Margins that lines have of their own and margins that they add can be told apart. -/
theorem eq_of_flatMap_margins_eq
    (h : (rows.flatMap fun row => ((own row).map (· - bytes)).toList ++ added row) =
      (rows.flatMap fun row => (own row).toList ++ added row).map (· - common)) :
    ∀ row ∈ rows, (own row).map (· - bytes) = (own row).map (· - common) ∧
      added row = (added row).map (· - common) := by
  have hlength : ∀ row, ((own row).map (· - bytes)).toList.length = (own row).toList.length := by
    intro row
    cases own row <;> rfl
  rw [List.map_flatMap] at h
  intro row hrow
  have hline := eq_of_flatMap_eq (fun row _ => by simp [hlength]) h row hrow
  rw [List.map_append] at hline
  obtain ⟨hown, hadded⟩ := List.append_inj hline (by simp [hlength])
  refine ⟨?_, hadded⟩
  cases hcase : own row with
  | none => rfl
  | some indent =>
    rw [hcase] at hown
    exact congrArg some (List.singleton_inj.mp hown)

/-- Lines have margins of their own and margins that they add. If taking `bytes` from the former leaves the
same margins, behind the first, as taking `common` from all, then nothing is taken, unless no line adds
margins or only one line has a margin. -/
theorem eq_zero_of_tail_eq (blank : ∀ row ∈ rows, own row = none → added row = [])
    (hbytes : ∀ row ∈ rows, ∀ indent ∈ own row, bytes ≤ indent)
    (hcommon : ∀ row ∈ rows, ∀ indent ∈ added row, common ≤ indent)
    (h : (rows.flatMap fun row => ((own row).map (· - bytes)).toList ++ added row).tail =
      ((rows.flatMap fun row => (own row).toList ++ added row).map (· - common)).tail)
    (adds : ∃ row ∈ rows, added row ≠ []) :
    common = 0 ∧ (bytes = 0 ∨ (rows.filterMap own).length ≤ 1) := by
  induction rows with
  | nil =>
    obtain ⟨row, hrow, _⟩ := adds
    exact absurd hrow List.not_mem_nil
  | cons row others ih =>
    obtain ⟨hblank, blankOthers⟩ := List.forall_mem_cons.mp blank
    rw [List.flatMap_cons, List.flatMap_cons] at h
    cases hown : own row with
    | none =>
      rw [hown, hblank hown] at h
      rw [List.filterMap_cons_none hown]
      refine ih blankOthers (List.forall_mem_cons.mp hbytes).2 (List.forall_mem_cons.mp hcommon).2 h ?_
      obtain ⟨adding, hmem, hadds⟩ := adds
      rcases List.mem_cons.mp hmem with rfl | hmem
      · exact absurd (hblank hown) hadds
      · exact ⟨adding, hmem, hadds⟩
    | some margin =>
      -- The margin of this line is left out of account, and all others must agree.
      rw [hown, List.map_append, List.map_append, List.append_assoc, List.append_assoc,
        Option.map_some, Option.toList_some, Option.toList_some, List.map_singleton,
        List.singleton_append, List.singleton_append, List.tail_cons, List.tail_cons] at h
      obtain ⟨hfirst, hrest⟩ := List.append_inj h (List.length_map _).symm
      have hlines := eq_of_flatMap_margins_eq hrest
      have hkept : ∀ other ∈ row :: others, added other = (added other).map (· - common) :=
        List.forall_mem_cons.mpr ⟨hfirst, fun other hother => (hlines other hother).2⟩
      have hzero : common = 0 := by
        obtain ⟨adding, hmem, hadds⟩ := adds
        obtain ⟨indent, more, hcons⟩ := List.exists_cons_of_ne_nil hadds
        have hsame := hkept adding hmem
        have hle := hcommon adding hmem indent (by rw [hcons]; exact List.mem_cons_self)
        rw [hcons, List.map_cons] at hsame
        have hindent := (List.cons.inj hsame).1
        omega
      refine ⟨hzero, ?_⟩
      rw [List.filterMap_cons_some hown]
      by_cases hmore : others.filterMap own = []
      · rw [hmore]
        exact .inr (Nat.le_refl 1)
      · left
        obtain ⟨indent, hindents⟩ := List.exists_mem_of_ne_nil _ hmore
        obtain ⟨other, hother, hindent⟩ := List.mem_filterMap.mp hindents
        have hsame := (hlines other hother).1
        have hle := hbytes other (List.mem_cons_of_mem _ hother) indent hindent
        rw [hindent, Option.map_some, Option.map_some, Option.some.injEq] at hsame
        omega

end

end Text

namespace Extraction

variable {source text line : Text} {extraction : Extraction}

section
variable (extracted : ofSource source = .ok extraction)
include extracted

/-- Blank lines in front are trimmed away, also after restoring. -/
theorem trim_restore_join_dropWhile (rows : List Text) :
    Text.trim (extraction.restore (Text.join ['\n'] (rows.dropWhile Text.isAllBlank))) =
      Text.trim (extraction.restore (Text.join ['\n'] rows)) :=
  Text.trim_join_dropWhile (fun _ _ blank => restore_append_of_notMem
    (opening_notMem_of_isAllBlank (reserved_of_ofSource extracted) blank) _) rows

/-- Blank lines behind a line are trimmed away, also after restoring. -/
theorem trim_restore_join_cons {rows : List Text}
    (intact : extraction.sentinels.Intact extraction.literals.length line)
    (blank : ∀ row ∈ rows, Text.isAllBlank row = true) :
    Text.trim (extraction.restore (Text.join ['\n'] (line :: rows))) =
      Text.trim (extraction.restore line) := by
  obtain ⟨blanks, hjoin, hblanks⟩ := Text.exists_join_cons line blank
  rw [hjoin, (wellFormed_of_ofSource extracted).restore_append intact,
    restore_of_isAllBlank (reserved_of_ofSource extracted) hblanks,
    Text.trim_append_of_isAllBlank_right _ hblanks]

/-- Without a common indent, what is dedented before it is restored has nothing changed but its line ends and
blanks around it. -/
theorem trim_restore_dedent_of_commonIndent_eq_zero
    (flush : Text.commonIndent (Text.lines text) = 0) :
    Text.trim (extraction.restore (Text.dedent text)) =
      Text.trim (extraction.restore (Text.withFeeds text)) := by
  rw [Text.dedent, Text.commonIndent_dropWhile, flush, Text.map_unindent_zero]
  exact trim_restore_join_dropWhile extracted (Text.lines text)

/-- So it is where only one line is not blank, whatever its indent. -/
theorem trim_restore_dedent_of_length_margins
    (intact : extraction.sentinels.Intact extraction.literals.length text)
    (single : (Text.margins text).length ≤ 1) :
    Text.trim (extraction.restore (Text.dedent text)) =
      Text.trim (extraction.restore (Text.withFeeds text)) := by
  have hwell := wellFormed_of_ofSource extracted
  have reserved := reserved_of_ofSource extracted
  rw [← Text.filterMap_margin?_lines, ← Text.filterMap_margin?_dropWhile] at single
  rw [Text.withFeeds, ← trim_restore_join_dropWhile extracted, Text.dedent, Text.commonIndent_dropWhile]
  have hhead := List.head?_dropWhile_not Text.isAllBlank (Text.lines text)
  have hmem : ∀ row ∈ (Text.lines text).dropWhile Text.isAllBlank, row ∈ Text.lines text :=
    fun row hrow => (List.dropWhile_sublist _).mem hrow
  generalize hkept : (Text.lines text).dropWhile Text.isAllBlank = kept at single hhead hmem
  cases kept with
  | nil => rfl
  | cons first others =>
    have visible : Text.isAllBlank first = false := hhead
    have hfirst := hmem first List.mem_cons_self
    rw [List.filterMap_cons_some (Text.margin?_of_visible visible), List.length_cons] at single
    have hothers : others.filterMap Text.margin? = [] := List.eq_nil_of_length_eq_zero (by omega)
    have blank : ∀ row ∈ others, Text.isAllBlank row = true := fun row hrow =>
      Text.margin?_eq_none_iff.mp (List.filterMap_eq_nil_iff.mp hothers row hrow)
    obtain ⟨lead, hline, indent, _⟩ :=
      Text.exists_append_unindent (Text.commonIndent_le hfirst _ (Text.margin?_of_visible visible))
    have hlead := Text.isAllBlank_of_isIndent indent
    have hrestore := restore_append_of_notMem (opening_notMem_of_isAllBlank reserved hlead)
      (Text.unindent (Text.commonIndent (Text.lines text)) first)
    rw [← hline] at hrestore
    rw [List.map_cons, trim_restore_join_cons extracted (intact_unindent_of_mem_lines extracted intact hfirst),
      trim_restore_join_cons extracted (intact.lines reserved first hfirst) blank, hrestore,
      Text.trim_append_of_isAllBlank_left hlead]
    intro row hrow
    obtain ⟨other, hother, rfl⟩ := List.mem_map.mp hrow
    exact Text.isAllBlank_unindent (blank other hother) _

/-- Where a literal spans lines, results that agree have no indent taken away. -/
theorem commonIndent_eq_zero_of_trim_eq
    (intact : extraction.sentinels.Intact extraction.literals.length text)
    (spans : ∃ line ∈ Text.lines text, '\n' ∈ extraction.restore line)
    (h : Text.trim (extraction.restore (Text.dedent text)) =
      Text.trim (Text.dedent (extraction.restore text))) :
    Text.commonIndent (Text.lines (extraction.restore text)) = 0 ∧
      (Text.commonIndent (Text.lines text) = 0 ∨ (Text.margins text).length ≤ 1) := by
  have reserved := reserved_of_ofSource extracted
  have htail := congrArg (fun result => (Text.margins result).tail) h
  rw [Text.tail_margins_trim, Text.tail_margins_trim, margins_restore_dedent extracted intact,
    Text.margins_dedent, margins_restore_lines extracted intact] at htail
  rw [← Text.filterMap_margin?_lines]
  refine Text.eq_zero_of_tail_eq ?_ (fun row hrow => Text.commonIndent_le hrow) ?_ htail ?_
  · intro row hrow hnone
    exact added_of_isAllBlank extracted (Text.margin?_eq_none_iff.mp hnone) (Text.notMem_of_mem_lines hrow)
  · intro row hrow indent hindent
    rw [Text.commonIndent_eq, Text.filterMap_margin?_lines, margins_restore_lines extracted intact]
    apply List.min?_getD_le_of_mem
    exact List.mem_flatMap.mpr ⟨row, hrow, List.mem_append_right _ hindent⟩
  · obtain ⟨line, hline, hfeed⟩ := spans
    exact ⟨line, hline, added_ne_nil extracted (intact.lines reserved line hline)
      (Text.notMem_of_mem_lines hline) hfeed⟩

/-- A text that is dedented and then restored is, apart from blanks around it, the same as if it were
restored first in two cases: no literal in it spans lines, or nothing is taken away from the start or the end
of any line behind the first. -/
theorem trim_restore_dedent_iff (intact : extraction.sentinels.Intact extraction.literals.length text) :
    Text.trim (extraction.restore (Text.dedent text)) = Text.trim (Text.dedent (extraction.restore text)) ↔
      (∀ line ∈ Text.lines text, '\n' ∉ extraction.restore line) ∨
        Text.commonIndent (Text.lines (extraction.restore text)) = 0 ∧
          (Text.commonIndent (Text.lines text) = 0 ∨ (Text.margins text).length ≤ 1) ∧
          Text.trim (extraction.restore (Text.withFeeds text)) =
            Text.trim (Text.withFeeds (extraction.restore text)) := by
  have hfeeds (hzero : Text.commonIndent (Text.lines text) = 0 ∨ (Text.margins text).length ≤ 1) :
      Text.trim (extraction.restore (Text.dedent text)) =
        Text.trim (extraction.restore (Text.withFeeds text)) := by
    rcases hzero with flush | single
    · exact trim_restore_dedent_of_commonIndent_eq_zero extracted flush
    · exact trim_restore_dedent_of_length_margins extracted intact single
  constructor
  · intro h
    by_cases flat : ∀ line ∈ Text.lines text, '\n' ∉ extraction.restore line
    · exact .inl flat
    · have spans : ∃ line ∈ Text.lines text, '\n' ∈ extraction.restore line := by simpa using flat
      obtain ⟨hcommon, hzero⟩ := commonIndent_eq_zero_of_trim_eq extracted intact spans h
      rw [hfeeds hzero, Text.trim_dedent_of_commonIndent_eq_zero hcommon] at h
      exact .inr ⟨hcommon, hzero, h⟩
  · rintro (flat | ⟨hcommon, hzero, h⟩)
    · rw [restore_dedent extracted intact flat]
    · rw [hfeeds hzero, Text.trim_dedent_of_commonIndent_eq_zero hcommon, h]

end
end Extraction
end Courseware
