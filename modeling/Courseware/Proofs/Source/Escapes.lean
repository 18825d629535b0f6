import Courseware.Proofs.Source.InlineMath

/-!
# Dollar signs behind backslashes

A dollar sign behind a backslash is meant to be text and no delimiter. Of several backslashes each second one
is itself behind a backslash, so a dollar sign is escaped where the number of backslashes before it is odd.

The scan keeps to this where a literal begins, since it passes over the letter behind a backslash
(`Piece.Scanned.visible`), and so does the search for the end of inline math. Display math ends with the
first two dollar signs whatever stands before them. So of the dollar signs that open and close math, only the
first of the two that close display math may be escaped (`Extraction.ofSource_escapes_math_iff`).
-/

namespace Courseware

namespace Text

/-- The number of backslashes at the end of a text. -/
def backslashes (text : Text) : Nat := (text.reverse.takeWhile (· == '\\')).length

/-- Whether the letter at a byte offset is escaped: the number of backslashes right before it is odd. -/
def IsEscaped (text : Text) (offset : Nat) : Prop := backslashes (takeBytes text offset) % 2 = 1

theorem backslashes_concat (text : Text) (last : Char) :
    backslashes (text ++ [last]) = if last = '\\' then backslashes text + 1 else 0 := by
  rw [backslashes, List.reverse_concat, List.takeWhile_cons]
  by_cases hlast : last = '\\'
  · rw [if_pos hlast, if_pos (beq_iff_eq.mpr hlast), List.length_cons]
    rfl
  · rw [if_neg hlast, if_neg fun heq => hlast (beq_iff_eq.mp heq), List.length_nil]

/-- A text hides what stands behind it when the number of backslashes at its end is odd. -/
theorem endsHiding_iff_odd (text : Text) : endsHiding text = true ↔ backslashes text % 2 = 1 := by
  induction text using List.reverseRecOn with
  | nil => decide
  | append_singleton earlier last ih =>
    rw [endsHiding_concat, backslashes_concat]
    by_cases hlast : last = '\\'
    · rw [if_pos hlast, hides, beq_iff_eq.mpr hlast, Bool.true_and, Bool.not_eq_true',
        ← Bool.not_eq_true, ih]
      omega
    · rw [if_neg hlast, hides_of_ne hlast]
      decide

theorem isEscaped_width (before after : Text) :
    IsEscaped (before ++ after) (width before) ↔ endsHiding before = true := by
  rw [IsEscaped, takeBytes_append, endsHiding_iff_odd]

/-- A text without backslashes hides nothing behind it. It may be empty where nothing was hidden anyway. -/
theorem endsHiding_append {before text : Text} (visible : '\\' ∉ text)
    (h : text = [] → endsHiding before = false) : endsHiding (before ++ text) = false := by
  rcases List.eq_nil_or_concat' text with rfl | ⟨earlier, last, rfl⟩
  · rw [List.append_nil]
    exact h rfl
  · rw [← List.append_assoc, endsHiding_concat]
    apply hides_of_ne
    rintro rfl
    exact visible (List.mem_append_right _ List.mem_cons_self)

/-- Behind a letter that is no backslash it does not matter what stands before it. -/
theorem endsHiding_append_cons {first : Char} (h : first ≠ '\\') (before text : Text) :
    endsHiding (before ++ first :: text) = endsHiding text := by
  rw [endsHiding, List.foldl_append, List.foldl_cons, hides_of_ne h]
  rfl

theorem width_dollar (text : Text) : width ('$' :: text) = 1 + width text := rfl

end Text

/-! ## Where literals begin -/

namespace Literal

theorem ClosesFence.visible {marker : Char} {run : Nat} {line : Text}
    (known : marker = '\x60' ∨ marker = '~') (closes : ClosesFence marker run line) : '\\' ∉ line := by
  obtain ⟨indent, count, tail, rfl, hindent, _, htail⟩ := closes
  intro hmem
  rw [List.mem_append, List.mem_append] at hmem
  rcases hmem with hmem | hmem | hmem
  · exact absurd (hindent _ hmem) (by decide)
  · obtain rfl := List.eq_of_mem_replicate hmem
    exact absurd known (by decide)
  · exact absurd (htail _ hmem) (by decide)

/-- A literal ends with letters of which none is a backslash. -/
theorem Stands.exists_ending {before after : Text} {l : Literal} (stands : l.Stands before after) :
    ∃ start ending, l.text = start ++ ending ∧ ending ≠ [] ∧ '\\' ∉ ending := by
  cases stands with
  | @fence marker run lead indent words closing after lines _ _ _ known long _ _ _ closes =>
    refine ⟨_, closing, rfl, ?_, closes.visible known⟩
    rintro rfl
    obtain ⟨indent, count, tail, heq, _, hcount, _⟩ := closes
    have hlengths := congrArg List.length heq
    simp only [List.length_append, List.length_replicate, List.length_nil] at hlengths
    omega
  | @inlineCode count body _ full =>
    refine ⟨List.replicate count '\x60' ++ body, List.replicate count '\x60', ?_, ?_, ?_⟩
    · exact (List.append_assoc ..).symm
    · rw [ne_eq, List.replicate_eq_nil_iff]
      omega
    · exact fun hmem => absurd (List.eq_of_mem_replicate hmem) (by decide)
  | @displayMath body =>
    exact ⟨['$', '$'] ++ body, ['$', '$'], (List.append_assoc ..).symm, by decide, by decide⟩
  | @inlineMath body => exact ⟨['$'] ++ body, ['$'], (List.append_assoc ..).symm, by decide, by decide⟩
  | @verbatim body =>
    exact ⟨verbatimOpening ++ body, verbatimClosing, (List.append_assoc ..).symm, by decide, by decide⟩

/-- A literal hides nothing behind it. -/
theorem Stands.endsHiding {before after : Text} {l : Literal} (stands : l.Stands before after)
    (lead : Text) : Text.endsHiding (lead ++ l.text) = false := by
  obtain ⟨start, ending, htext, hfull, hvisible⟩ := stands.exists_ending
  rw [htext, ← List.append_assoc]
  exact Text.endsHiding_append hvisible fun hempty => absurd hempty hfull

end Literal

namespace Piece

/-- A literal behind some letters is the one that stands right behind them, or it comes after that. -/
theorem split_letters {indent : Text} {block l : Literal} {first rest others : List Piece}
    (h : indent.map letter ++ literal block :: others = first ++ literal l :: rest) :
    first = indent.map letter ∨
      ∃ more, first = indent.map letter ++ literal block :: more ∧
        others = more ++ literal l :: rest := by
  rcases List.append_eq_append_iff.mp h with ⟨part, hfirst, hpart⟩ | ⟨part, hletters, hpart⟩
  · cases part with
    | nil => exact .inl (hfirst.trans (List.append_nil _))
    | cons piece more =>
      obtain ⟨rfl, hothers⟩ := List.cons.inj hpart
      exact .inr ⟨more, hfirst, hothers⟩
  · cases part with
    | nil => exact .inl (hletters.trans (List.append_nil _)).symm
    | cons piece more =>
      obtain ⟨rfl, _⟩ := List.cons.inj hpart
      have hmem : literal l ∈ indent.map letter := by
        rw [hletters]
        exact List.mem_append_right _ List.mem_cons_self
      obtain ⟨_, _, hletter⟩ := List.mem_map.mp hmem
      exact nomatch hletter

/-- No literal begins behind a backslash that hides it. The induction is on the scan; `lead` stands for what
it has read. -/
theorem Scanned.visible {lineStart : Bool} {pieces first rest : List Piece} {l : Literal} {lead : Text}
    (scanned : Scanned lineStart pieces)
    (ends : ∀ block ∈ literals pieces, ∀ before, Text.endsHiding (before ++ block.text) = false)
    (hlead : Text.endsHiding lead = false) (hpieces : pieces = first ++ literal l :: rest) :
    Text.endsHiding (lead ++ sources first) = false := by
  induction scanned generalizing first lead with
  | nil => simp at hpieces
  | @visited lineStart c others _ _ visible _ ih =>
    cases first with
    | nil => simp at hpieces
    | cons piece more =>
      obtain ⟨rfl, rfl⟩ := List.cons.inj hpieces
      rw [sources_cons, ← List.append_assoc]
      refine ih ends ?_ rfl
      rw [source, Text.endsHiding_concat, Text.hides_of_ne visible]
  | @hidden lineStart c others _ ih =>
    cases first with
    | nil => simp at hpieces
    | cons piece more =>
      obtain ⟨rfl, hmore⟩ := List.cons.inj hpieces
      cases more with
      | nil => simp at hmore
      | cons second more =>
        obtain ⟨rfl, rfl⟩ := List.cons.inj hmore
        rw [sources_cons, sources_cons, ← List.append_assoc, ← List.append_assoc]
        refine ih ends ?_ rfl
        rw [source, source, Text.endsHiding_concat, Text.endsHiding_concat, hlead]
        exact Text.hides_of_hidden c
  | trailing =>
    cases first <;> simp at hpieces
  | @taken lineStart indent block others blank _ _ ih =>
    have hindent : Text.endsHiding (lead ++ indent) = false :=
      Text.endsHiding_append (fun hmem => absurd (blank _ hmem) (by decide)) fun _ => hlead
    rcases split_letters hpieces with rfl | ⟨more, rfl, hothers⟩
    · rwa [sources_map_letter]
    · rw [literals_append, literals_map_letter, List.nil_append] at ends
      obtain ⟨hblock, hrest⟩ := List.forall_mem_cons.mp ends
      rw [sources_append, sources_map_letter, sources_cons, ← List.append_assoc, ← List.append_assoc]
      exact ih hrest (hblock _) hothers

end Piece

/-! ## The dollar signs of math -/

/-- The byte offsets of the dollar signs that open and close math. -/
def LiteralBlock.dollars (block : LiteralBlock) : List Nat :=
  match block.literal with
  | .inlineMath _ => [block.span.start, block.span.stop - 1]
  | .displayMath _ =>
    [block.span.start, block.span.start + 1, block.span.stop - 2, block.span.stop - 1]
  | _ => []

namespace Literal

variable {before body : Text} (visible : Text.endsHiding before = false) {offset : Nat}

include visible

/-- Nothing hides the dollar signs of inline math, since the search for the second one goes past those that
are hidden. -/
theorem exists_dollar_of_inlineMath (after : Text) (ends : Text.endsHiding body = false)
    (hoffset : offset ∈ [Text.width before,
      Text.width before + Text.width (['$'] ++ (body ++ ['$'])) - 1]) :
    ∃ lead behind, before ++ ((['$'] ++ (body ++ ['$'])) ++ after) = lead ++ '$' :: behind ∧
      offset = Text.width lead ∧ Text.endsHiding lead = false := by
  rw [List.mem_pair] at hoffset
  rcases hoffset with rfl | rfl
  case inl =>
    refine ⟨before, body ++ ['$'] ++ after, rfl, rfl, visible⟩
  case inr =>
    refine ⟨before ++ '$' :: body, after, by simp, ?_, ?_⟩
    · simp only [Text.width_append, Text.width_dollar, Text.width_nil]
      omega
    · rwa [Text.endsHiding_append_cons (by decide)]

/-- Of the dollar signs of display math the third is hidden if the text between the delimiters hides what is
behind it, and no other is. -/
theorem exists_dollar_of_displayMath (after : Text)
    (hoffset : offset ∈ [Text.width before, Text.width before + 1,
      Text.width before + Text.width (['$', '$'] ++ (body ++ ['$', '$'])) - 2,
      Text.width before + Text.width (['$', '$'] ++ (body ++ ['$', '$'])) - 1]) :
    ∃ lead behind, before ++ ((['$', '$'] ++ (body ++ ['$', '$'])) ++ after) = lead ++ '$' :: behind ∧
      offset = Text.width lead ∧ (Text.endsHiding lead = true ↔
        offset + 2 = Text.width before + Text.width (['$', '$'] ++ (body ++ ['$', '$'])) ∧
          Text.endsHiding body = true) := by
  have hwidth : Text.width (['$', '$'] ++ (body ++ ['$', '$'])) = Text.width body + 4 := by
    simp only [Text.width_append, Text.width_dollar, Text.width_nil]
    omega
  have hbehind (text : Text) : Text.endsHiding (before ++ '$' :: text) = Text.endsHiding text :=
    Text.endsHiding_append_cons (by decide) before text
  have hlast : Text.endsHiding (before ++ '$' :: '$' :: (body ++ ['$'])) = false := by
    rw [hbehind, ← List.cons_append, Text.endsHiding_append_cons (by decide)]
    rfl
  rw [hwidth] at hoffset ⊢
  simp only [List.mem_cons, List.not_mem_nil, or_false] at hoffset
  rcases hoffset with hfirst | hsecond | hthird | hfourth
  case inl =>
    refine ⟨before, '$' :: (body ++ ['$', '$'] ++ after), by simp, hfirst, ?_⟩
    exact iff_of_false (Bool.eq_false_iff.mp visible) fun h => by omega
  case inr.inl =>
    refine ⟨before ++ ['$'], body ++ ['$', '$'] ++ after, by simp, ?_, ?_⟩
    · rwa [Text.width_append]
    · exact iff_of_false (Bool.eq_false_iff.mp (hbehind [])) fun h => by omega
  case inr.inr.inl =>
    refine ⟨before ++ '$' :: '$' :: body, '$' :: after, by simp, ?_, ?_⟩
    · rw [Text.width_append, Text.width_dollar, Text.width_dollar]
      omega
    · have hbody : Text.endsHiding ('$' :: body) = Text.endsHiding body :=
        Text.endsHiding_append_cons (by decide) [] body
      rw [hbehind, hbody, and_iff_right (by omega)]
  case inr.inr.inr =>
    refine ⟨before ++ '$' :: '$' :: (body ++ ['$']), after, by simp, ?_, ?_⟩
    · simp only [Text.width_append, Text.width_dollar, Text.width_nil]
      omega
    · exact iff_of_false (Bool.eq_false_iff.mp hlast) fun h => by omega

end Literal

namespace Extraction

/-- Where a literal of a document begins, nothing is hidden. -/
theorem visible_of_ofSource {source : Text} {extraction : Extraction}
    (extracted : ofSource source = .ok extraction) {first rest : List Piece} {l : Literal}
    (hpieces : extraction.pieces = first ++ .literal l :: rest) :
    Text.endsHiding (Piece.sources first) = false := by
  obtain ⟨pieces, hscan, _, scanned⟩ := Piece.scanned_of_scan (ofSource_eq_ok_iff.mp extracted).2
  rw [List.reverse_nil, List.nil_append] at hscan
  rw [← hscan] at scanned
  have ends : ∀ block ∈ Piece.literals extraction.pieces, ∀ before,
      Text.endsHiding (before ++ block.text) = false := by
    intro block hblock
    obtain ⟨index, hindex⟩ := List.getElem?_of_mem hblock
    obtain ⟨earlier, later, hsplit, _⟩ := Piece.exists_of_getElem?_literals hindex
    exact (stands_of_ofSource extracted hsplit).endsHiding
  have hstart : Text.endsHiding [] = false := rfl
  exact scanned.visible ends hstart hpieces

/-- Of the dollar signs that open and close math one may be escaped: the first of the two that close display
math. It is escaped when the number of backslashes before it is odd. -/
theorem ofSource_escapes_math_iff {source : Text} {extraction : Extraction}
    (extracted : ofSource source = .ok extraction) {block : LiteralBlock}
    (hblock : block ∈ extraction.blocks) {offset : Nat} (hoffset : offset ∈ block.dollars) :
    Text.slice source offset (offset + 1) = ['$'] ∧
      (Text.IsEscaped source offset ↔
        ∃ body, block.literal = .displayMath (['$', '$'] ++ (body ++ ['$', '$'])) ∧
          offset + 2 = block.span.stop ∧ Text.backslashes body % 2 = 1) := by
  obtain ⟨index, hindex⟩ := List.getElem?_of_mem hblock
  obtain ⟨first, rest, hpieces, _, hbehind⟩ := Piece.exists_of_getElem?_blocks hindex
  have hstands := stands_of_ofSource extracted hpieces
  have visible := visible_of_ofSource extracted hpieces
  have hsource := source_eq_of_pieces extracted hpieces
  have hspan : block.span = ⟨Text.width (Piece.sources first),
      Text.width (Piece.sources first) + Text.width block.literal.text⟩ :=
    congrArg LiteralBlock.span hbehind
  have hdollar (lead behind : Text) (hsplit : source = lead ++ '$' :: behind)
      (hlead : offset = Text.width lead) : Text.slice source offset (offset + 1) = ['$'] ∧
        (Text.IsEscaped source offset ↔ Text.endsHiding lead = true) := by
    rw [hsplit, hlead]
    exact ⟨Text.slice_part lead ['$'] behind, Text.isEscaped_width lead _⟩
  rw [LiteralBlock.dollars, hspan] at hoffset
  generalize block.literal = l at hstands hsource hoffset hspan ⊢
  cases hstands with
  | fence => exact absurd hoffset List.not_mem_nil
  | inlineCode => exact absurd hoffset List.not_mem_nil
  | verbatim => exact absurd hoffset List.not_mem_nil
  | inlineMath ends =>
    obtain ⟨lead, behind, hsplit, hlead, hhidden⟩ :=
      Literal.exists_dollar_of_inlineMath visible (Piece.sources rest) ends hoffset
    obtain ⟨hslice, hescaped⟩ := hdollar lead behind (hsource.trans hsplit) hlead
    refine ⟨hslice, hescaped.trans (iff_of_false (Bool.eq_false_iff.mp hhidden) ?_)⟩
    rintro ⟨body, hmath, _⟩
    exact nomatch hmath
  | @displayMath body =>
    obtain ⟨lead, behind, hsplit, hlead, hhidden⟩ :=
      Literal.exists_dollar_of_displayMath visible (Piece.sources rest) hoffset
    obtain ⟨hslice, hescaped⟩ := hdollar lead behind (hsource.trans hsplit) hlead
    refine ⟨hslice, hescaped.trans (hhidden.trans ?_)⟩
    rw [Text.endsHiding_iff_odd, hspan]
    constructor
    · rintro ⟨hstop, hodd⟩
      exact ⟨body, rfl, hstop, hodd⟩
    · rintro ⟨other, hmath, hstop, hodd⟩
      have hbody : body = other :=
        List.append_cancel_right (List.append_cancel_left (Literal.displayMath.inj hmath))
      exact ⟨hstop, by rwa [hbody]⟩

/-- A dollar sign behind a backslash closes display math together with the one behind it. -/
theorem ofSource_escapedDollar : ofSource ['$', '$', 'a', '\\', '$', '$'] =
    .ok ⟨.pair 0xE000, [.literal (.displayMath ['$', '$', 'a', '\\', '$', '$'])]⟩ := by
  refine ofSource_eq_ok_iff.mpr ⟨Sentinels.choose?_eq_first (by decide) (by decide), ?_⟩
  have hfence : Literal.readFence? ['$', '$', 'a', '\\', '$', '$'] = ([], .absent) := by cbv
  have hmath : Literal.readLiteral? ['$', '$', 'a', '\\', '$', '$'] =
      .found (.displayMath ['$', '$', 'a', '\\', '$', '$']) [] := by cbv
  rw [Piece.scan_literal [] ((if_pos rfl).trans hfence) hmath, Piece.scan]
  rfl

/-- The dollar sign at offset 4 is escaped. -/
theorem ofSource_escapes_math_iff_closing :
    ∃ extraction block, ofSource ['$', '$', 'a', '\\', '$', '$'] = .ok extraction ∧
      block ∈ extraction.blocks ∧ 4 ∈ block.dollars ∧
      Text.IsEscaped ['$', '$', 'a', '\\', '$', '$'] 4 := by
  have hdollar : 4 ∈ LiteralBlock.dollars
      ⟨0, .displayMath ['$', '$', 'a', '\\', '$', '$'], ⟨0, 6⟩, ⟨0, 7⟩⟩ := by decide
  have hescaped := (ofSource_escapes_math_iff ofSource_escapedDollar List.mem_cons_self hdollar).2
  exact ⟨_, _, ofSource_escapedDollar, List.mem_cons_self, hdollar,
    hescaped.mpr ⟨['a', '\\'], rfl, rfl, rfl⟩⟩

/-- So an escaped dollar sign may delimit math. -/
theorem ofSource_closes_at_escaped :
    ¬∀ source extraction, ofSource source = .ok extraction →
      ∀ block ∈ extraction.blocks, ∀ offset ∈ block.dollars, ¬Text.IsEscaped source offset := by
  intro h
  have hdollar : 4 ∈ LiteralBlock.dollars
      ⟨0, .displayMath ['$', '$', 'a', '\\', '$', '$'], ⟨0, 6⟩, ⟨0, 7⟩⟩ := by decide
  have hvisible := h _ _ ofSource_escapedDollar _ List.mem_cons_self 4 hdollar
  exact hvisible ((Text.isEscaped_width ['$', '$', 'a', '\\'] ['$', '$']).mpr rfl)

end Extraction

end Courseware
