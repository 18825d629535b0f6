import Courseware.Proofs.Markup.Tiling
import Courseware.Proofs.Task.WellFormed

/-!
# Directives of a document are well formed

A directive is written only when a builder has accepted it, and builders make directives that are well
formed. Segments are made of what is written. So this also holds of a directive that was nested in
another, whether it became a segment or, as a note does, text in the one around it, which was built later
with this text in it.
-/

namespace Courseware

namespace Reader

variable {scope : ReaderScope} {reader : Reader} {lexeme : Lexeme} {lexemes : List Lexeme}
  {item : Written}

theorem exists_build_of_mem_written? (h : item ∈ written? scope reader lexeme) :
    ∃ (frame : OpenDirective) (seed : String),
      frame.build scope.extraction seed = .ok item.directive := by
  unfold written? at h
  split at h
  · exact nomatch h
  · next closing _ =>
    split at h
    · exact nomatch h
    · next directive built =>
      obtain rfl := Option.some.inj h
      exact ⟨closing.frame, _, built⟩

/-- Whatever is written has been built, whichever reader it is written by. -/
theorem exists_build_of_mem_written (h : item ∈ written scope reader lexemes) :
    ∃ (frame : OpenDirective) (seed : String),
      frame.build scope.extraction seed = .ok item.directive := by
  induction lexemes generalizing reader with
  | nil => exact absurd h List.not_mem_nil
  | cons lexeme rest ih =>
    unfold written at h
    split at h
    · exact absurd h List.not_mem_nil
    · rcases List.mem_append.mp h with hlexeme | hrest
      · exact exists_build_of_mem_written? (Option.mem_toList.mp hlexeme)
      · exact ih hrest

theorem wellFormed_of_mem_written (h : item ∈ written scope reader lexemes) :
    item.directive.WellFormed := by
  obtain ⟨frame, seed, built⟩ := exists_build_of_mem_written h
  exact DirectiveNode.wellFormed_of_build (OpenDirective.node_build_of_build built)

end Reader

namespace ParsedDocument

variable {document : String} {context : Context} {registry : Registry} {source : Text}
  {parsed : ParsedDocument}

/-- All directives of a document that is read are well formed, whatever the registry: those that are
segments, among them the ones that follow the directive they were nested in, and the notes whose text was
left in another directive. -/
theorem ofSource_makes_wellFormed
    (read : ofSource document context source registry = .ok parsed) :
    (∀ span content, Segment.directive span content ∈ parsed.segments → content.WellFormed) ∧
    ∀ item ∈ Reader.written ⟨document, context, registry, parsed.extraction⟩ .initial
        (Lexeme.tokenize parsed.extraction.scrubbed), item.directive.WellFormed := by
  obtain ⟨_, placed, arrangement⟩ :=
    exists_arrangement_of_ofSource (extracted_of_ofSource read) read
  refine ⟨?_, fun item hitem => Reader.wellFormed_of_mem_written hitem⟩
  intro span content hsegment
  have hplaced : (span, content) ∈ placed.map fun item => (item.1, item.2.directive) := by
    rw [← arrangement.segments]
    exact List.mem_filterMap.mpr ⟨_, hsegment, rfl⟩
  obtain ⟨item, hitem, hsame⟩ := List.mem_map.mp hplaced
  have hcontent : item.2.directive = content := congrArg Prod.snd hsame
  rw [← hcontent]
  exact Reader.wellFormed_of_mem_written (arrangement.mem_written hitem)

/-- A gap text in a question, beside a note. -/
def gapInQuestion : Text :=
  "#mcq[\n#note[ n ]\n- [ ] a\n#gap[ b [[ c | | d ]][[e]] ]\n- [x] f\n- [X] g\n]".toList

/-- The question with the note as its text and two correct choices, and the gap text. -/
def gapInQuestionDirectives : List Directive :=
  [.task (.choice ['n'] [⟨['f'], true⟩, ⟨['g'], true⟩, ⟨['a'], false⟩] true),
    .task (.gap [⟨[['c'], ['d']]⟩, ⟨[['e']]⟩] [['b', ' '], [], []])]

/-- The gap text follows the question that it was nested in, and both are well formed. -/
theorem ofSource_makes_wellFormed_gapInQuestion :
    ∃ parsed, ofSource "d" .page gapInQuestion .standard = .ok parsed ∧
      parsed.segments = gapInQuestionDirectives.map (Segment.directive ⟨0, 71⟩) ∧
      ∀ content ∈ gapInQuestionDirectives, content.WellFormed := by
  have extracted : Extraction.ofSource gapInQuestion =
      .ok ⟨.pair 0xE000, gapInQuestion.map .letter⟩ :=
    Extraction.ofSource_of_isDelimiter (by decide) (by decide) (by decide)
  have read : ofSource "d" .page gapInQuestion .standard =
      .ok ⟨"d", .page, ⟨.pair 0xE000, gapInQuestion.map .letter⟩,
        gapInQuestionDirectives.map (Segment.directive ⟨0, 71⟩)⟩ := by
    have hsegments : segmentsOf ⟨"d", .page, .standard, ⟨.pair 0xE000, gapInQuestion.map .letter⟩⟩
        (Lexeme.tokenize (Extraction.scrubbed ⟨.pair 0xE000, gapInQuestion.map .letter⟩)) =
          .ok (gapInQuestionDirectives.map (Segment.directive ⟨0, 71⟩)) := by
      decide +kernel
    rw [ofSource_of_extraction extracted, hsegments]
  refine ⟨_, read, rfl, ?_⟩
  intro content hcontent
  exact (ofSource_makes_wellFormed read).1 ⟨0, 71⟩ content (List.mem_map_of_mem hcontent)

end ParsedDocument
end Courseware
