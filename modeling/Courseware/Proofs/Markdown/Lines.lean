import Courseware.Markdown.Container
import Courseware.Proofs.Source.Cut

/-!
# Lines of Markdown cut no placeholder

Lines end at line feeds and carriage returns. From the start of a line indents and the markers of
containers are taken, which consist of blanks, punctuation and numbers before punctuation. None of these
can be the end of a part of a placeholder, so a place in a line that is reached in this way is one at which
what follows is intact.
-/

namespace Courseware.Markdown

variable {sentinels : Sentinels} {count : Nat}

theorem isOutside_of_isSpace {letter : Char} (h : isSpace letter = true) :
    Sentinels.isOutside letter = true := by
  rw [isSpace, Bool.or_eq_true, beq_iff_eq, beq_iff_eq] at h
  rcases h with rfl | rfl <;> decide

theorem isOutside_of_isLineEnd {letter : Char} (h : isLineEnd letter = true) :
    Sentinels.isOutside letter = true := by
  rw [isLineEnd, Bool.or_eq_true, beq_iff_eq, beq_iff_eq] at h
  rcases h with rfl | rfl <;> decide

theorem intact_of_isLineEnd (reserved : sentinels.Reserved) {ending : Text}
    (h : ∀ letter ∈ ending, isLineEnd letter = true) : sentinels.Intact count ending :=
  .of_isOutside reserved fun letter hletter => isOutside_of_isLineEnd (h letter hletter)

/-! ## Lines -/

/-- A line end is split off the start of a text. -/
theorem spec_of_splitEnding (text : Text) :
    (splitEnding text).1 ++ (splitEnding text).2 = text ∧
      (∀ letter ∈ (splitEnding text).1, isLineEnd letter = true) ∧
      Text.width (splitEnding text).1 = (splitEnding text).1.length := by
  unfold splitEnding
  split
  · exact ⟨rfl, List.forall_mem_cons.mpr ⟨rfl, List.forall_mem_singleton.mpr rfl⟩, rfl⟩
  · exact ⟨rfl, List.forall_mem_singleton.mpr rfl, rfl⟩
  · exact ⟨rfl, List.forall_mem_singleton.mpr rfl, rfl⟩
  · exact ⟨rfl, nofun, rfl⟩

theorem intact_splitEnding (reserved : sentinels.Reserved) {text : Text}
    (intact : sentinels.Intact count text) :
    sentinels.Intact count (splitEnding text).1 ∧ sentinels.Intact count (splitEnding text).2 := by
  obtain ⟨hsplit, hends, _⟩ := spec_of_splitEnding text
  have hending : sentinels.Intact count (splitEnding text).1 := intact_of_isLineEnd reserved hends
  rw [← hsplit] at intact
  exact ⟨hending, hending.cancel_left reserved intact⟩

/-- The content of the first line of a text goes up to a line end. -/
theorem intact_content (reserved : sentinels.Reserved) {text content : Text}
    (intact : sentinels.Intact count text)
    (h : text.takeWhile (fun letter => !isLineEnd letter) = content) :
    content ++ text.drop content.length = text ∧ sentinels.Intact count content ∧
      sentinels.Intact count (text.drop content.length) := by
  have hsplit : content ++ text.drop content.length = text := by
    rw [← h]
    exact List.prefix_iff_eq_append.mp (List.takeWhile_prefix _)
  have hcontent : sentinels.Intact count content := by
    rw [← h]
    refine (intact.splitWhile reserved ?_).1
    intro letter hletter
    exact isOutside_of_isLineEnd (by simpa using hletter)
  rw [← hsplit] at intact
  exact ⟨hsplit, hcontent, hcontent.cancel_left reserved intact⟩

namespace Line

/-- A line of a text: its content is intact, and it starts and stops where no placeholder is cut. -/
structure Whole (sentinels : Sentinels) (count : Nat) (text : Text) (line : Line) : Prop where
  content : sentinels.Intact count line.content
  start : sentinels.Uncut count text line.start
  stop : sentinels.Uncut count text line.stop
  ending : ∀ letter ∈ line.ending, isLineEnd letter = true

/-- The lines of a text from a place on at which no placeholder is cut. -/
theorem whole_of_mem_scan (reserved : sentinels.Reserved) {before rest : Text} {steps : Nat}
    (hbefore : sentinels.Intact count before) (hrest : sentinels.Intact count rest) :
    ∀ line ∈ scan steps (Text.width before) rest,
      line.Whole sentinels count (before ++ rest) := by
  induction steps generalizing before rest with
  | zero =>
    cases rest <;> exact fun line hline => absurd hline List.not_mem_nil
  | succ steps ih =>
    cases rest with
    | nil => exact fun line hline => absurd hline List.not_mem_nil
    | cons first others =>
      rw [scan]
      · generalize hline : (first :: others).takeWhile (fun letter => !isLineEnd letter) = content
        obtain ⟨hsplit, hcontent, hafter⟩ := intact_content reserved hrest hline
        obtain ⟨hjoin, hends, hwidth⟩ := spec_of_splitEnding ((first :: others).drop content.length)
        obtain ⟨hending, hnext⟩ := intact_splitEnding reserved hafter
        rw [List.forall_mem_cons]
        constructor
        · refine ⟨hcontent, ⟨before, _, rfl, rfl, hbefore, hrest⟩, ?_, hends⟩
          refine ⟨before ++ content, _, ?_, Text.width_append _ _, hbefore.append hcontent, hafter⟩
          rw [List.append_assoc, hsplit]
        · -- The next line starts behind the line end, every character of which takes one byte.
          have hlines := ih ((hbefore.append hcontent).append hending) hnext
          rw [Text.width_append, Text.width_append, hwidth, List.append_assoc, hjoin,
            List.append_assoc, hsplit] at hlines
          exact hlines
      · exact List.cons_ne_nil _ _

/-- The lines of a text. The byte order mark before the first line stands in no placeholder. -/
theorem whole_of_mem_ofText (reserved : sentinels.Reserved) {text : Text}
    (intact : sentinels.Intact count text) :
    ∀ line ∈ ofText text, line.Whole sentinels count text := by
  unfold ofText
  split
  · next rest =>
    have hmark : sentinels.Intact count ['\ufeff'] :=
      .of_isOutside reserved (List.forall_mem_singleton.mpr (by decide))
    have hlines := @whole_of_mem_scan _ _ reserved ['\ufeff'] rest rest.length hmark
      (intact.tail reserved (by decide))
    split
    · exact fun line hline => absurd hline List.not_mem_nil
    · next first others hscan =>
      rw [show Text.width ['\ufeff'] = 3 from rfl, hscan] at hlines
      obtain ⟨hfirst, hothers⟩ := List.forall_mem_cons.mp hlines
      rw [List.forall_mem_cons]
      exact ⟨⟨hfirst.content, hfirst.start, hfirst.stop, hfirst.ending⟩, hothers⟩
  · exact @whole_of_mem_scan _ _ reserved [] text text.length .nil intact

end Line

/-! ## Places in a line -/

namespace Cursor

variable {cursor : Cursor}

theorem intact_skipFrom (reserved : sentinels.Reserved) {column taken columns : Nat} {text : Text}
    (intact : sentinels.Intact count text) :
    sentinels.Intact count (skipFrom column taken text columns).rest := by
  fun_induction skipFrom column taken text columns with
  | case1 => exact intact
  | case2 _ _ _ _ ih => exact ih (intact.tail reserved (by decide))
  | case3 _ _ _ _ _ ih => exact ih (intact.tail reserved (by decide))
  | case4 => exact intact
  | case5 => exact intact

theorem intact_skip (reserved : sentinels.Reserved) (intact : sentinels.Intact count cursor.rest)
    (columns : Nat) : sentinels.Intact count (cursor.skip columns).rest :=
  intact_skipFrom reserved intact

theorem intact_skipAll (reserved : sentinels.Reserved)
    (intact : sentinels.Intact count cursor.rest) : sentinels.Intact count cursor.skipAll.rest :=
  intact_skip reserved intact _

/-- A marker that ends with a character that stands in no placeholder. -/
theorem intact_advance (reserved : sentinels.Reserved) (lead : Text) {after : Text} {letter : Char}
    (intact : sentinels.Intact count cursor.rest) (h : cursor.rest = lead ++ letter :: after)
    (outside : Sentinels.isOutside letter = true) :
    sentinels.Intact count (cursor.advance (lead.length + 1)).rest := by
  show sentinels.Intact count (cursor.rest.drop (lead.length + 1))
  rw [h] at intact ⊢
  rw [List.drop_append, List.drop_of_length_le (Nat.le_succ _), Nat.add_sub_cancel_left]
  exact (intact.cut reserved outside).2

/-- Where an indent of less than four columns is found, it is taken. -/
theorem rest_skipAll_of_unindented? {text : Text} (h : cursor.unindented? = some text) :
    cursor.skipAll.rest = text := by
  unfold unindented? at h
  split at h
  · exact Option.some.inj h
  · exact nomatch h

end Cursor

/-! ## Containers -/

namespace OpenContainer

variable {frame opened : OpenContainer} {line : Line} {cursor next : Cursor} {interrupts : Bool}

/-- The marker of a quote, and the blank after it. -/
theorem intact_of_quote (reserved : sentinels.Reserved) {rest : Text}
    (intact : sentinels.Intact count cursor.rest) (h : cursor.unindented? = some ('>' :: rest)) :
    sentinels.Intact count ((cursor.skipAll.advance 1).skip 1).rest := by
  apply Cursor.intact_skip reserved
  exact Cursor.intact_advance reserved [] (Cursor.intact_skipAll reserved intact)
    (Cursor.rest_skipAll_of_unindented? h) (by decide)

theorem intact_of_continue? (reserved : sentinels.Reserved)
    (intact : sentinels.Intact count cursor.rest)
    (h : frame.continue? cursor = some (opened, next)) : sentinels.Intact count next.rest := by
  unfold continue? at h
  split at h
  · split at h
    · next hmarked =>
      cases h
      exact intact_of_quote reserved intact hmarked
    · exact nomatch h
  · split at h
    · split at h
      · exact nomatch h
      · cases h
        exact Cursor.intact_skip reserved intact _
    · split at h
      · cases h
        exact Cursor.intact_skip reserved intact _
      · exact nomatch h

theorem intact_of_afterMarker? (reserved : sentinels.Reserved) {start : Cursor}
    (intact : sentinels.Intact count cursor.rest)
    (h : afterMarker? interrupts line start cursor = some (opened, next)) :
    sentinels.Intact count next.rest := by
  unfold afterMarker? at h
  split at h
  · simp only at h
    split at h
    · exact nomatch h
    · cases h
      exact intact
  · simp only at h
    split at h
    · exact nomatch h
    · cases h
      exact Cursor.intact_skip reserved intact _

/-- What follows the label of a footnote is the end of what is read. -/
theorem suffix_of_readFootnoteLabel? {text label after : Text}
    (h : readFootnoteLabel? text = some (label, after)) : after <:+ text := by
  fun_induction readFootnoteLabel? text generalizing label after with
  | case1 => exact nomatch h
  | case2 rest =>
    cases h
    exact List.suffix_cons _ _
  | case3 next rest _ ih =>
    obtain ⟨⟨label, after⟩, hread, heq⟩ := Option.map_eq_some_iff.mp h
    cases heq
    exact ((ih hread).trans (List.suffix_cons _ _)).trans (List.suffix_cons _ _)
  | case4 next rest _ ih =>
    obtain ⟨⟨label, after⟩, hread, heq⟩ := Option.map_eq_some_iff.mp h
    cases heq
    exact (ih hread).trans (List.suffix_cons _ _)
  | case5 => exact nomatch h
  | case6 letter rest _ _ _ ih =>
    obtain ⟨⟨label, after⟩, hread, heq⟩ := Option.map_eq_some_iff.mp h
    cases heq
    exact (ih hread).trans (List.suffix_cons _ _)

/-- The marker of a footnote goes up to its colon. -/
theorem intact_of_footnote (reserved : sentinels.Reserved) {rest label after : Text}
    (intact : sentinels.Intact count cursor.rest)
    (marked : cursor.unindented? = some ('[' :: '^' :: rest))
    (h : readFootnoteLabel? rest = some (label, ':' :: after)) :
    sentinels.Intact count
      (cursor.skipAll.advance (rest.length - after.length + 2)).rest := by
  obtain ⟨lead, rfl⟩ := suffix_of_readFootnoteLabel? h
  have hadvance := Cursor.intact_advance reserved ('[' :: '^' :: lead)
    (Cursor.intact_skipAll reserved intact) (Cursor.rest_skipAll_of_unindented? marked) (by decide)
  have hlength : (lead ++ ':' :: after).length - after.length + 2 =
      ('[' :: '^' :: lead).length + 1 := by
    simp only [List.length_append, List.length_cons]
    omega
  rw [hlength]
  exact hadvance

/-- The marker of a numbered item goes up to its full stop or parenthesis. -/
theorem intact_of_number (reserved : sentinels.Reserved) {text : Text}
    (intact : sentinels.Intact count cursor.rest) (marked : cursor.unindented? = some text)
    (h : (Text.splitWhile Char.isDigit text).2.head? = some '.' ∨
      (Text.splitWhile Char.isDigit text).2.head? = some ')') :
    sentinels.Intact count
      (cursor.skipAll.advance ((Text.splitWhile Char.isDigit text).1.length + 1)).rest := by
  have hsplit := Text.append_splitWhile Char.isDigit text
  cases hafter : (Text.splitWhile Char.isDigit text).2 with
  | nil =>
    rw [hafter] at h
    exact h.elim nofun nofun
  | cons marker after =>
    rw [hafter] at h hsplit
    apply Cursor.intact_advance reserved _ (Cursor.intact_skipAll reserved intact)
    · exact (Cursor.rest_skipAll_of_unindented? marked).trans hsplit.symm
    · rw [List.head?_cons, Option.some.injEq, Option.some.injEq] at h
      rcases h with rfl | rfl <;> decide

/-- What opens a container ends with its marker and with blanks. -/
theorem intact_of_open? (reserved : sentinels.Reserved)
    (intact : sentinels.Intact count cursor.rest)
    (h : open? interrupts line cursor = some (opened, next)) : sentinels.Intact count next.rest := by
  unfold open? at h
  split at h
  · next hmarked =>
    cases h
    exact intact_of_quote reserved intact hmarked
  · next rest hmarked =>
    split at h
    · next label after hlabel =>
      split at h
      · exact nomatch h
      · cases h
        exact Cursor.intact_skipAll reserved (intact_of_footnote reserved intact hmarked hlabel)
    · exact nomatch h
  · next first rest _ _ hmarked =>
    simp only at h
    split at h
    · next hbullet =>
      apply intact_of_afterMarker? reserved _ h
      apply Cursor.intact_advance reserved [] (Cursor.intact_skipAll reserved intact)
        (Cursor.rest_skipAll_of_unindented? hmarked)
      simp only [Bool.or_eq_true, Bool.and_eq_true, beq_iff_eq] at hbullet
      rcases hbullet with rfl | ⟨rfl | rfl, _⟩ <;> decide
    · split at h
      · next hnumber =>
        simp only [Bool.and_eq_true, Bool.or_eq_true, beq_iff_eq] at hnumber
        exact intact_of_afterMarker? reserved
          (intact_of_number reserved intact hmarked hnumber.1.2) h
      · exact nomatch h
  · exact nomatch h

end OpenContainer
end Courseware.Markdown
