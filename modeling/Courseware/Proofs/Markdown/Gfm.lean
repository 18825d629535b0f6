import Courseware.Proofs.Markdown.Dialect
import Courseware.Proofs.Markdown.Order

/-!
# The dialect in use is orderly

The dialect in use does all that is asked of a dialect. Where headings and breaks lie in a text has been found line
by line (`inOrder_ofText`), and so has what is cut where they start and end (`Block.whole_of_mem_ofText`). What is
left are the places of titles: a title is what is left of the passage of its heading without blanks and a backslash
at its start, so it stands in the heading behind characters that are in no placeholder.
-/

namespace Courseware.Markdown

variable {text : Text} {sentinels : Sentinels} {count : Nat}

/-- What is dropped from the start of a title stands in no placeholder. -/
theorem exists_titleOf (text : Text) : ∃ dropped, text = dropped ++ titleOf text ∧
    ∀ letter ∈ dropped, Sentinels.isOutside letter = true := by
  have hsplit : text.takeWhile isSpace ++ text.dropWhile isSpace = text := List.takeWhile_append_dropWhile
  have hblank : ∀ letter ∈ text.takeWhile isSpace, Sentinels.isOutside letter = true :=
    fun letter hletter => isOutside_of_isSpace (List.mem_takeWhile_imp hletter)
  have whole : ∃ dropped, text = dropped ++ text.dropWhile isSpace ∧
      ∀ letter ∈ dropped, Sentinels.isOutside letter = true := ⟨_, hsplit.symm, hblank⟩
  unfold titleOf
  split
  · next next rest hescape =>
    rw [hescape] at hsplit whole
    split
    · refine ⟨text.takeWhile isSpace ++ ['\\'], ?_, ?_⟩
      · rw [List.append_assoc]
        exact hsplit.symm
      · exact List.forall_mem_append.mpr ⟨hblank, List.forall_mem_singleton.mpr (by decide)⟩
    · exact whole
  · exact whole

/-- The title of a heading stands in the heading, behind characters that stand in no placeholder. -/
theorem exists_isPart_titlePlace {depth : Nat} {passage : Passage} {span : Span}
    (h : .heading depth passage span ∈ Block.ofText text) :
    ∃ lead after, text.IsPart span.start (lead ++ (titleOf passage.text ++ after)) span.stop ∧
      titlePlace span.start passage = ⟨span.start + Text.width lead,
        span.start + Text.width lead + Text.width (titleOf passage.text)⟩ ∧
      ∀ letter ∈ lead, Sentinels.isOutside letter = true := by
  have hmark : ⟨span, some passage⟩ ∈ (Block.ofText text).filterMap Mark.ofBlock? :=
    List.mem_filterMap.mpr ⟨_, h, rfl⟩
  obtain ⟨hle, hstart, hstop⟩ := (inOrder_ofText text).within _ hmark
  obtain ⟨lead, after, hslice, hwidth, hlead⟩ := (inOrder_ofText text).passages _ hmark passage rfl
  obtain ⟨dropped, hdropped, houtside⟩ := exists_titleOf passage.text
  obtain ⟨before, part, rest, hpart⟩ := Text.exists_part_of_isBoundary hstart hstop hle
  have isPart : text.IsPart span.start part span.stop := ⟨before, rest, hpart⟩
  have hwhole : part = lead ++ dropped ++ (titleOf passage.text ++ after) := by
    rw [← isPart.slice_eq, hslice]
    conv_lhs => rw [hdropped]
    simp only [List.append_assoc]
  have hnarrow : Text.width passage.text = Text.width dropped + Text.width (titleOf passage.text) := by
    conv_lhs => rw [hdropped]
    exact Text.width_append _ _
  refine ⟨lead ++ dropped, after, hwhole ▸ isPart, ?_, List.forall_mem_append.mpr ⟨?_, houtside⟩⟩
  · rw [titlePlace, hnarrow, Nat.add_sub_cancel, Text.width_append, hwidth, Nat.add_assoc]
  · intro letter hletter
    have hsign := hlead letter hletter
    rw [Bool.or_eq_true, beq_iff_eq] at hsign
    rcases hsign with hspace | rfl
    · exact isOutside_of_isSpace hspace
    · decide

namespace Dialect

theorem gfm_spares (reserved : sentinels.Reserved) : gfm.Spares sentinels count := by
  intro text nodes intact hnodes node hnode
  obtain rfl := Except.ok.inj hnodes
  obtain ⟨block, hblock, rfl⟩ := List.mem_map.mp hnode
  have whole := Block.whole_of_mem_ofText reserved intact block hblock
  cases block with
  | heading depth passage span =>
    obtain ⟨hpassage, hstart, hstop⟩ := whole
    obtain ⟨lead, after, isPart, hplace, hlead⟩ := exists_isPart_titlePlace hblock
    have title : ∀ place ∈ (if (titleOf passage.text).isEmpty then [] else
        [some (titlePlace span.start passage)]).reduceOption,
        sentinels.Uncut count text place.start ∧ sentinels.Uncut count text place.stop := by
      split
      · exact fun _ h => absurd h List.not_mem_nil
      · refine List.forall_mem_singleton.mpr ?_
        obtain ⟨dropped, hdropped, houtside⟩ := exists_titleOf passage.text
        rw [hdropped] at hpassage
        have first := hstart.advance reserved isPart.left (.of_isOutside reserved hlead)
        rw [hplace]
        exact ⟨first, first.advance reserved isPart.right.left (hpassage.right_of_isOutside reserved houtside)⟩
    exact List.forall_mem_cons.mpr ⟨⟨hstart, hstop⟩, title⟩
  | thematicBreak span => exact List.forall_mem_singleton.mpr whole
  | _ => exact fun _ h => absurd h List.not_mem_nil

end Dialect
end Courseware.Markdown
