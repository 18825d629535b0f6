import Courseware.Proofs.Source.Blocks

/-!
# Inline math and line feeds

Inline math is meant to end on the line on which it begins. The search for its closing dollar sign gives up
at a line feed, but it looks at no letter behind a backslash, and so it goes past a line feed there. Inline
math that is found therefore holds a line feed exactly where a backslash stands before one that nothing
hides (`Extraction.ofSource_breaks_math_iff`), and what is written on the next line up to the next dollar
sign belongs to it.
-/

namespace Courseware

namespace Text

theorem endsHiding_concat (text : Text) (letter : Char) :
    endsHiding (text ++ [letter]) = hides (endsHiding text) letter := by
  rw [endsHiding, List.foldl_append]
  rfl

/-- What hides the letter behind it is a backslash that is not hidden. -/
theorem endsHiding_iff {text : Text} :
    endsHiding text = true ↔ ∃ earlier, text = earlier ++ ['\\'] ∧ endsHiding earlier = false := by
  constructor
  · intro hends
    rcases List.eq_nil_or_concat' text with rfl | ⟨earlier, last, rfl⟩
    · exact absurd hends Bool.false_ne_true
    · rw [endsHiding_concat, hides, Bool.and_eq_true, Bool.not_eq_true', beq_iff_eq] at hends
      exact ⟨earlier, by rw [hends.1], hends.2⟩
  · rintro ⟨earlier, rfl, hvisible⟩
    rw [endsHiding_concat, hvisible]
    rfl

end Text

namespace Literal

/-- The line feeds of inline math stand behind backslashes that hide them. -/
theorem Stands.endsHiding_of_feed {before text after earlier later : Text}
    (stands : (Literal.inlineMath text).Stands before after) (hsplit : text = earlier ++ '\n' :: later) :
    Text.endsHiding earlier = true := by
  cases stands with
  | @inlineMath body _ _ inside =>
    cases earlier with
    | nil => exact absurd (List.cons.inj hsplit).1 (by decide)
    | cons dollar others =>
      obtain ⟨rfl, htail⟩ := List.cons.inj hsplit
      have hothers : body ++ ['$'] = others ++ '\n' :: later := htail
      -- The dollar sign that opens the math hides nothing.
      show Text.endsHiding others = true
      rcases List.eq_nil_or_concat' later with rfl | ⟨inner, last, rfl⟩
      · have hlast : ['$'] = ['\n'] := (List.append_inj' hothers rfl).2
        exact absurd (List.cons.inj hlast).1 (by decide)
      · rw [← List.cons_append, ← List.append_assoc] at hothers
        have hbody : body = others ++ '\n' :: inner := (List.append_inj' hothers rfl).1
        exact inside others '\n' inner hbody (.inr rfl)

end Literal

namespace Extraction

/-- Inline math ends on the line on which it begins exactly when no line feed in it stands behind a
backslash that nothing hides, and each of its line feeds does stand behind such a backslash. -/
theorem ofSource_breaks_math_iff {source : Text} {extraction : Extraction}
    (extracted : ofSource source = .ok extraction) {block : LiteralBlock}
    (hblock : block ∈ extraction.blocks) {text : Text} (hmath : block.literal = .inlineMath text) :
    (Text.lineAt source block.span.stop = Text.lineAt source block.span.start ↔
      ¬∃ earlier later, text = earlier ++ '\\' :: '\n' :: later ∧
        Text.endsHiding earlier = false) ∧
    ∀ earlier later, text = earlier ++ '\n' :: later → Text.endsHiding earlier = true := by
  obtain ⟨index, hindex⟩ := List.getElem?_of_mem hblock
  obtain ⟨before, after, hsource, hspan, hstands⟩ :=
    (describes_of_ofSource extracted hindex).2.shaped
  rw [hmath] at hsource hspan hstands
  have hidden : ∀ earlier later, text = earlier ++ '\n' :: later → Text.endsHiding earlier = true :=
    fun earlier later hsplit => hstands.endsHiding_of_feed hsplit
  have hline : Text.lineAt source block.span.stop = Text.lineAt source block.span.start ↔
      '\n' ∉ text := by
    rw [hspan, hsource]
    exact Text.lineAt_part_iff before text after
  have hfeed : '\n' ∈ text ↔ ∃ earlier later, text = earlier ++ '\\' :: '\n' :: later ∧
      Text.endsHiding earlier = false := by
    constructor
    · intro hmem
      obtain ⟨earlier, later, hsplit⟩ := List.append_of_mem hmem
      obtain ⟨lead, rfl, hvisible⟩ := Text.endsHiding_iff.mp (hidden earlier later hsplit)
      refine ⟨lead, later, ?_, hvisible⟩
      rw [hsplit, List.append_assoc, List.singleton_append]
    · rintro ⟨earlier, later, rfl, _⟩
      exact List.mem_append_right _ (List.mem_cons_of_mem _ List.mem_cons_self)
  exact ⟨hline.trans (not_congr hfeed), hidden⟩

/-- A backslash before a line feed keeps inline math open. -/
theorem ofSource_hiddenFeed : ofSource ['$', 'a', '\\', '\n', 'b', '$'] =
    .ok ⟨.pair 0xE000, [.literal (.inlineMath ['$', 'a', '\\', '\n', 'b', '$'])]⟩ := by
  refine ofSource_eq_ok_iff.mpr ⟨Sentinels.choose?_eq_first (by decide) (by decide), ?_⟩
  have hfence : Literal.readFence? ['$', 'a', '\\', '\n', 'b', '$'] = ([], .absent) := by cbv
  have hmath : Literal.readLiteral? ['$', 'a', '\\', '\n', 'b', '$'] =
      .found (.inlineMath ['$', 'a', '\\', '\n', 'b', '$']) [] := by cbv
  rw [Piece.scan_literal [] ((if_pos rfl).trans hfence) hmath, Piece.scan]
  rfl

/-- Its two dollar signs are on different lines. -/
theorem ofSource_breaks_math_iff_hiddenFeed :
    ∃ extraction block, ofSource ['$', 'a', '\\', '\n', 'b', '$'] = .ok extraction ∧
      block ∈ extraction.blocks ∧
      block.literal = .inlineMath ['$', 'a', '\\', '\n', 'b', '$'] ∧
      Text.lineAt ['$', 'a', '\\', '\n', 'b', '$'] block.span.stop ≠
        Text.lineAt ['$', 'a', '\\', '\n', 'b', '$'] block.span.start := by
  refine ⟨_, _, ofSource_hiddenFeed, List.mem_cons_self, rfl, fun hline => ?_⟩
  have hbroken := (ofSource_breaks_math_iff ofSource_hiddenFeed List.mem_cons_self rfl).1
  exact hbroken.mp hline ⟨['$', 'a'], ['b', '$'], rfl, rfl⟩

/-- So inline math does not stay on one line whatever backslashes stand in it. -/
theorem ofSource_carries_math :
    ¬∀ source extraction, ofSource source = .ok extraction →
      ∀ block ∈ extraction.blocks, ∀ text, block.literal = .inlineMath text → '\n' ∉ text := by
  intro h
  have hfeed := h _ _ ofSource_hiddenFeed _ List.mem_cons_self _ rfl
  exact hfeed (by decide)

end Extraction
end Courseware
