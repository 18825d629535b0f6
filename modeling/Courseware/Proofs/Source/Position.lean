import Courseware.Proofs.Source.Placeholder

/-!
# Marks are found again in the document

A mark is a part of the scrubbed text that begins with a character which stands in no placeholder, and
that holds no sentinel. No placeholder overlaps it, so it was copied from the document character by
character, and the position to which its offset is translated is where it stands there.
-/

namespace Courseware

namespace Piece

/-- A scrubbed text that is cut before a character which stands in no placeholder is cut between two
pieces. -/
theorem exists_split_of_scrub {sentinels : Sentinels} (reserved : sentinels.Reserved) {next : Nat}
    {pieces : List Piece} {before after : Text} {letter : Char}
    (h : scrub sentinels next pieces = before ++ letter :: after)
    (houtside : Sentinels.isOutside letter = true) :
    ∃ first rest, pieces = first ++ rest ∧ scrub sentinels next first = before := by
  induction pieces generalizing next before with
  | nil => exact absurd h (by simp [scrub])
  | cons piece rest ih =>
    cases piece with
    | letter c =>
      cases before with
      | nil => exact ⟨[], .letter c :: rest, rfl, rfl⟩
      | cons head tail =>
        obtain ⟨rfl, htail⟩ := List.cons.inj h
        obtain ⟨first, others, rfl, hfirst⟩ := ih htail
        exact ⟨.letter c :: first, others, rfl, congrArg (c :: ·) hfirst⟩
    | literal l =>
      rw [scrub] at h
      rcases List.append_eq_append_iff.mp h with ⟨tail, rfl, hrest⟩ | ⟨tail, hnumber, hrest⟩
      · obtain ⟨first, others, rfl, hfirst⟩ := ih hrest
        refine ⟨.literal l :: first, others, rfl, ?_⟩
        rw [scrub, hfirst]
      · cases tail with
        | nil =>
          obtain ⟨first, others, rfl, hfirst⟩ := @ih _ [] hrest.symm
          refine ⟨.literal l :: first, others, rfl, ?_⟩
          rw [scrub, hfirst, hnumber, List.append_nil, List.append_nil]
        | cons head tail =>
          obtain ⟨rfl, _⟩ := List.cons.inj hrest
          refine absurd ?_ (reserved.notMem_placeholder houtside next)
          rw [hnumber]
          exact List.mem_append_right _ List.mem_cons_self

/-- Scrubbed text without sentinels was copied. -/
theorem exists_letters_of_scrub {sentinels : Sentinels} {next : Nat} {pieces : List Piece}
    {mark after : Text} (h : scrub sentinels next pieces = mark ++ after)
    (hopening : sentinels.opening ∉ mark) : ∃ rest, pieces = mark.map letter ++ rest := by
  induction mark generalizing pieces with
  | nil => exact ⟨pieces, rfl⟩
  | cons first others ih =>
    obtain ⟨hfirst, hothers⟩ := List.ne_and_not_mem_of_not_mem_cons hopening
    cases pieces with
    | nil => exact nomatch h
    | cons piece rest =>
      cases piece with
      | letter c =>
        obtain ⟨rfl, hrest⟩ := List.cons.inj h
        obtain ⟨tail, rfl⟩ := ih hrest hothers
        exact ⟨tail, rfl⟩
      | literal l => exact absurd (List.cons.inj h).1 hfirst

end Piece

namespace Extraction

/-- A mark of the scrubbed text stands in the document at the position to which its offset is translated.
The line of a position is one more than the line feeds before it. -/
theorem exists_position_of_mark {extraction : Extraction}
    (reserved : extraction.sentinels.Reserved) {before mark after : Text} {first : Char}
    (h : extraction.scrubbed = before ++ (first :: mark ++ after))
    (houtside : Sentinels.isOutside first = true)
    (hopening : extraction.sentinels.opening ∉ first :: mark) :
    ∃ written rest, extraction.source = written ++ (first :: mark ++ rest) ∧
      extraction.locate (Text.width before) =
        ⟨Text.width written, written.count '\n' + 1⟩ := by
  obtain ⟨pieces, others, hpieces, hbefore⟩ := Piece.exists_split_of_scrub reserved h houtside
  have hothers : Piece.scrub extraction.sentinels (0 + (Piece.literals pieces).length) others =
      first :: mark ++ after := by
    rw [scrubbed, hpieces, Piece.scrub_append, hbefore] at h
    exact List.append_cancel_left h
  obtain ⟨rest, rfl⟩ := Piece.exists_letters_of_scrub hothers hopening
  have hsource : extraction.source = Piece.sources pieces ++ (first :: mark ++ Piece.sources rest) := by
    rw [source, hpieces, Piece.sources_append, Piece.sources_append, Piece.sources_map_letter]
  have hoffset : extraction.sourceOffset (Text.width before) = Text.width (Piece.sources pieces) := by
    rw [sourceOffset, hpieces, ← hbefore]
    exact Piece.sourceOffset_width_scrub extraction.sentinels 0 pieces _
  refine ⟨Piece.sources pieces, Piece.sources rest, hsource, ?_⟩
  rw [locate, hoffset, hsource, Text.lineAt_append]

end Extraction
end Courseware
