import Mathlib
import Courseware.Proofs.Markup.Alike
import Courseware.Proofs.Markup.Recognition

/-!
# What literals can change

Two documents whose scrubbed texts are the same are read in step, so they have the same segments: the
spans and the kinds of directives do not depend on literals. In questions and gap texts, however,
structure is found in the content after nested notes have been pasted into it, and these have had their
literals restored. There a literal can be read as a choice or as a field.

`ParsedDocument.ofSource_shields_iff` says exactly when it is not: the marks of two documents are the
same if and only if the contents of all their directives have the same marks, when they are closed.
This is so whenever no note inside a question or a gap text holds a literal.
-/

namespace Courseware

/-- The marks of a segment. -/
def Segment.marks : Segment → List Bool
  | .prose .. => []
  | .directive _ content => content.marks

namespace Reader

/-- Readers of two documents have found the same marks so far. -/
structure SameMarks (first second : Reader) : Prop where
  segments : first.segments.map Segment.marks = second.segments.map Segment.marks
  hoisted : first.hoisted.map Directive.marks = second.hoisted.map Directive.marks

variable {exact : Prop} {document : String} {context : Context} {registry : Registry}
  {extraction extraction' : Extraction} {first second next next' : Reader} {lexeme : Lexeme}
  {lexemes : List Lexeme}

/-! ## Marks of a step -/

/-- A lexeme closes a directive in both documents, where these correspond, or in neither. -/
theorem Alike.closing?_cases (alike : Alike exact first second) (lexeme : Lexeme) :
    (first.closing? lexeme = none ∧ second.closing? lexeme = none) ∨
    ∃ frame frame' outer outer', first.closing? lexeme = some ⟨frame, outer⟩ ∧
      second.closing? lexeme = some ⟨frame', outer'⟩ ∧
      frame.Alike (exact ∧ (frame :: outer).any OpenDirective.isScanned = true) frame' ∧
      FramesAlike exact outer outer' := by
  have hframes := alike.frames
  unfold closing?
  generalize first.frames = frames at hframes ⊢
  generalize second.frames = frames' at hframes ⊢
  cases hframes with
  | nil => exact .inl ⟨rfl, rfl⟩
  | @cons frame frame' outer outer' head tail =>
    have hslot : ∀ frame : OpenDirective, frame.slot = none ↔ frame.outline.slot = none :=
      fun frame => Option.map_eq_none_iff.symm
    simp only [head.groups, hslot, head.outline]
    by_cases hcloses : lexeme.token.closes? = some .bracket ∧ frame'.groups = [] ∧
        frame'.outline.slot = none
    · rw [if_pos hcloses, if_pos hcloses]
      exact .inr ⟨frame, frame', outer, outer', rfl, rfl, head, tail⟩
    · rw [if_neg hcloses, if_neg hcloses]
      exact .inl ⟨rfl, rfl⟩

/-- Directives that are placed alike add the same marks when they have the same. -/
theorem Alike.sameMarks_place_iff {outer outer' : List OpenDirective}
    (alike : Alike exact first second) (frames : FramesAlike exact outer outer') (span : Span)
    {directive directive' : Directive} (kind : directive.kind = directive'.kind) :
    SameMarks (first.place span directive outer) (second.place span directive' outer') ↔
      SameMarks first second ∧ directive.marks = directive'.marks := by
  cases frames with
  | nil =>
    have hlength := congrArg List.length alike.hoisted
    rw [List.length_map, List.length_map] at hlength
    constructor
    · intro same
      have hsegments := same.segments
      rw [map_segments_place, map_segments_place, alike.prose] at hsegments
      obtain ⟨hhoisted, hrest⟩ := List.append_inj hsegments (by simpa using hlength)
      obtain ⟨hmarks, hothers⟩ := List.cons.inj hrest
      exact ⟨⟨List.append_cancel_left hothers, hhoisted⟩, hmarks⟩
    · rintro ⟨same, hmarks⟩
      refine ⟨?_, rfl⟩
      rw [map_segments_place, map_segments_place, alike.prose, same.segments]
      simp only [Segment.marks, hmarks, same.hoisted]
  | cons head tail =>
    by_cases hnote : directive.kind = .note
    · obtain ⟨content, rfl⟩ := Directive.exists_of_kind_eq_note hnote
      obtain ⟨content', rfl⟩ := Directive.exists_of_kind_eq_note (kind.symm.trans hnote)
      rw [place_of_note, place_of_note]
      exact ⟨fun same => ⟨⟨same.segments, same.hoisted⟩, rfl⟩,
        fun same => ⟨same.1.segments, same.1.hoisted⟩⟩
    · rw [place_of_kind first span hnote, place_of_kind second span (kind ▸ hnote)]
      constructor
      · intro same
        obtain ⟨hmarks, hhoisted⟩ := List.cons.inj same.hoisted
        exact ⟨⟨same.segments, hhoisted⟩, hmarks⟩
      · rintro ⟨same, hmarks⟩
        refine ⟨same.segments, ?_⟩
        rw [List.map_cons, List.map_cons, hmarks, same.hoisted]

/-- After a step the marks are the same exactly when they were so before and what is closed has the same
marks in its content. -/
theorem Alike.sameMarks_step_iff (alike : Alike exact first second)
    (step : Step ⟨document, context, registry, extraction⟩ first lexeme next)
    (step' : Step ⟨document, context, registry, extraction'⟩ second lexeme next') :
    SameMarks next next' ↔ SameMarks first second ∧
      (first.closing? lexeme).map Closing.marks = (second.closing? lexeme).map Closing.marks := by
  rcases alike.closing?_cases lexeme with
    ⟨hnone, hnone'⟩ | ⟨frame, frame', outer, outer', hclosing, hclosing', head, tail⟩
  · obtain ⟨hsegments, hhoisted⟩ := step.rests hnone
    obtain ⟨hsegments', hhoisted'⟩ := step'.rests hnone'
    rw [hnone, hnone', and_iff_left rfl]
    constructor
    · rintro ⟨segments, hoisted⟩
      rw [hsegments, hsegments'] at segments
      rw [hhoisted, hhoisted'] at hoisted
      exact ⟨segments, hoisted⟩
    · rintro ⟨segments, hoisted⟩
      rw [← hsegments, ← hsegments'] at segments
      rw [← hhoisted, ← hhoisted'] at hoisted
      exact ⟨segments, hoisted⟩
  · obtain ⟨directive, built, rfl⟩ := step.closes hclosing
    obtain ⟨directive', built', rfl⟩ := step'.closes hclosing'
    have node := OpenDirective.node_build_of_build built
    have node' := OpenDirective.node_build_of_build built'
    have hsame : frame.node.kind = frame'.node.kind := congrArg Descriptor.kind head.descriptor
    have hmarks : directive.marks = directive'.marks ↔ frame.node.marks = frame'.node.marks := by
      rw [← alike.built] at node'
      exact DirectiveNode.marks_eq_iff_of_build hsame node node'
    rw [hclosing, hclosing', Option.map_some, Option.map_some, Option.some_inj, ← head.start,
      alike.sameMarks_place_iff tail _ (head.kind_of_build built built'), hmarks]
    rfl

/-- Documents that are read in step close directives at the same lexemes, so what is closed can be
compared lexeme by lexeme. -/
theorem Alike.map_closings_cons_iff {closings closings' : List Closing}
    (alike : Alike exact first second) :
    ((first.closing? lexeme).toList ++ closings).map Closing.marks =
        ((second.closing? lexeme).toList ++ closings').map Closing.marks ↔
      (first.closing? lexeme).map Closing.marks = (second.closing? lexeme).map Closing.marks ∧
        closings.map Closing.marks = closings'.map Closing.marks := by
  rcases alike.closing?_cases lexeme with
    ⟨hnone, hnone'⟩ | ⟨frame, frame', outer, outer', hclosing, hclosing', _, _⟩
  · rw [hnone, hnone']
    exact (and_iff_right rfl).symm
  · rw [hclosing, hclosing', Option.toList_some, Option.toList_some, List.singleton_append,
      List.singleton_append, List.map_cons, List.map_cons, List.cons.injEq, Option.map_some,
      Option.map_some, Option.some_inj]

/-- Where contents are followed, what is closed has the same marks. -/
theorem Alike.map_closing?_marks (alike : Alike exact first second) (h : exact) :
    (first.closing? lexeme).map Closing.marks = (second.closing? lexeme).map Closing.marks := by
  rcases alike.closing?_cases lexeme with
    ⟨hnone, hnone'⟩ | ⟨frame, frame', outer, outer', hclosing, hclosing', head, _⟩
  · rw [hnone, hnone']
  · have hmarks : frame.node.marks = frame'.node.marks := by
      apply DirectiveNode.marks_congr (congrArg Descriptor.kind head.descriptor)
      intro hkind
      have hscanned : (frame :: outer).any OpenDirective.isScanned = true := by
        rw [List.any_cons, Bool.or_eq_true, OpenDirective.isScanned, Bool.or_eq_true, beq_iff_eq,
          beq_iff_eq]
        exact .inl hkind
      exact congrArg Fragment.join (head.content ⟨h, hscanned⟩)
    rw [hclosing, hclosing']
    exact congrArg some hmarks

/-! ## Walks in step -/

/-- Nested directives that were moved out of their parent are placed when the outermost one is closed, so
none of them waits outside all directives. -/
theorem Walk.hoisted_eq_nil {scope : ReaderScope} (walk : Walk scope .initial lexemes next)
    (outside : next.frames = []) : next.hoisted = [] := by
  have settled : next.frames = [] → next.hoisted = [] := by
    refine walk.invariant (fun _ reader => reader.frames = [] → reader.hoisted = [])
      (fun _ => rfl) ?_
    intro before middle lexeme after _ ih step
    cases step with
    | prose outside unnamed => exact fun _ => ih outside
    | @closeDirective frame outer directive inside closing ungrouped unfilling built =>
      cases outer with
      | nil => exact fun _ => rfl
      | cons parent outer =>
        intro outside
        cases directive <;> exact nomatch outside
    | _ =>
      intro outside
      exact nomatch outside
  exact settled outside

/-- Two documents are read in step: the readers correspond before every lexeme, and at the end. -/
inductive InStep (exact : Prop) (scope scope' : ReaderScope) :
    Reader → Reader → List Lexeme → Reader → Reader → Prop
  | done {first second : Reader} (alike : Alike exact first second) :
      InStep exact scope scope' first second [] first second
  | step {first second middle middle' next next' : Reader} {lexeme : Lexeme} {rest : List Lexeme}
      (alike : Alike exact first second) (step : Step scope first lexeme middle)
      (step' : Step scope' second lexeme middle')
      (others : InStep exact scope scope' middle middle' rest next next') :
      InStep exact scope scope' first second (lexeme :: rest) next next'

/-- Documents with the same lexemes are read in step. Where contents are followed, everything that is
closed has to be shielded. -/
theorem Alike.inStep (alike : Alike exact first second)
    (walk : Walk ⟨document, context, registry, extraction⟩ first lexemes next)
    (walk' : Walk ⟨document, context, registry, extraction'⟩ second lexemes next')
    (shielded : exact → ∀ closing ∈ closings ⟨document, context, registry, extraction⟩ first lexemes,
      closing.Shielded extraction)
    (shielded' : exact →
      ∀ closing ∈ closings ⟨document, context, registry, extraction'⟩ second lexemes,
        closing.Shielded extraction') :
    InStep exact ⟨document, context, registry, extraction⟩
      ⟨document, context, registry, extraction'⟩ first second lexemes next next' := by
  induction lexemes generalizing first second with
  | nil =>
    cases walk
    cases walk'
    exact .done alike
  | cons lexeme rest ih =>
    cases walk with
    | step step others =>
      cases walk' with
      | step step' others' =>
        rw [closings_cons step] at shielded
        rw [closings_cons step'] at shielded'
        have halike := alike.step step step'
          (fun h closing hclosing => shielded h closing
            (List.mem_append_left _ (Option.mem_toList.mpr hclosing)))
          (fun h closing hclosing => shielded' h closing
            (List.mem_append_left _ (Option.mem_toList.mpr hclosing)))
        exact .step alike step step' (ih halike others others'
          (fun h closing hclosing => shielded h closing (List.mem_append_right _ hclosing))
          (fun h closing hclosing => shielded' h closing (List.mem_append_right _ hclosing)))

namespace InStep

variable {scope scope' : ReaderScope}

theorem alike_stop (inStep : InStep exact scope scope' first second lexemes next next') :
    Alike exact next next' := by
  induction inStep with
  | done alike => exact alike
  | step _ _ _ _ ih => exact ih

/-- Documents that are read in step have the same marks in the end exactly when they had the same at the
start and everything that is closed on the way has the same marks in its content. -/
theorem sameMarks_iff (inStep : InStep exact ⟨document, context, registry, extraction⟩
      ⟨document, context, registry, extraction'⟩ first second lexemes next next') :
    SameMarks next next' ↔ SameMarks first second ∧
      (closings ⟨document, context, registry, extraction⟩ first lexemes).map Closing.marks =
        (closings ⟨document, context, registry, extraction'⟩ second lexemes).map Closing.marks := by
  induction inStep with
  | done alike => exact (and_iff_left rfl).symm
  | @step first second middle middle' next next' lexeme rest alike step step' others ih =>
    rw [ih, alike.sameMarks_step_iff step step', closings_cons step, closings_cons step',
      alike.map_closings_cons_iff, and_assoc]

/-- Where contents are followed, everything that is closed has the same marks. -/
theorem map_closings_marks (inStep : InStep exact ⟨document, context, registry, extraction⟩
      ⟨document, context, registry, extraction'⟩ first second lexemes next next') (h : exact) :
    (closings ⟨document, context, registry, extraction⟩ first lexemes).map Closing.marks =
      (closings ⟨document, context, registry, extraction'⟩ second lexemes).map Closing.marks := by
  induction inStep with
  | done alike => rfl
  | step alike step step' others ih =>
    rw [closings_cons step, closings_cons step', alike.map_closings_cons_iff]
    exact ⟨alike.map_closing?_marks h, ih⟩

end InStep
end Reader

namespace ParsedDocument

/-- What literals can change in a document. Documents with the same scrubbed text have the same layout:
their segments have the same spans and the same kinds. Their questions have the same flags and their
gap texts the same fields exactly when everything that is closed has the same marks in its content; and
this is so if no note inside a question or a gap text holds a literal. -/
theorem ofSource_shields_iff {document : String} {context : Context} {registry : Registry}
    {source source' : Text} {extraction extraction' : Extraction}
    (extracted : Extraction.ofSource source = .ok extraction)
    (extracted' : Extraction.ofSource source' = .ok extraction')
    (scrubbed : extraction.scrubbed = extraction'.scrubbed) {parsed parsed' : ParsedDocument}
    (read : ofSource document context source registry = .ok parsed)
    (read' : ofSource document context source' registry = .ok parsed') :
    parsed.segments.map Segment.layout = parsed'.segments.map Segment.layout ∧
    (parsed.segments.map Segment.marks = parsed'.segments.map Segment.marks ↔
      (Reader.closings ⟨document, context, registry, extraction⟩ .initial
          (Lexeme.tokenize extraction.scrubbed)).map Closing.marks =
        (Reader.closings ⟨document, context, registry, extraction'⟩ .initial
          (Lexeme.tokenize extraction'.scrubbed)).map Closing.marks) ∧
    ((∀ closing ∈ Reader.closings ⟨document, context, registry, extraction⟩ .initial
        (Lexeme.tokenize extraction.scrubbed), closing.Shielded extraction) →
      (∀ closing ∈ Reader.closings ⟨document, context, registry, extraction'⟩ .initial
        (Lexeme.tokenize extraction'.scrubbed), closing.Shielded extraction') →
      parsed.segments.map Segment.marks = parsed'.segments.map Segment.marks) := by
  obtain ⟨reader, walk, outside, hsegments⟩ := exists_walk_of_ofSource extracted read
  obtain ⟨reader', walk', outside', hsegments'⟩ := exists_walk_of_ofSource extracted' read'
  have start : ∀ exact, Reader.Alike exact .initial .initial := fun _ => .initial
  have inStep := (start False).inStep walk (scrubbed ▸ walk') False.elim False.elim
  have alike := inStep.alike_stop
  have hmarks : parsed.segments.map Segment.marks = parsed'.segments.map Segment.marks ↔
      Reader.SameMarks reader reader' := by
    rw [hsegments, hsegments', alike.prose, List.map_reverse, List.map_reverse, List.map_append,
      List.map_append, List.reverse_inj, List.append_right_inj]
    constructor
    · intro same
      exact ⟨same, by rw [walk.hoisted_eq_nil outside, walk'.hoisted_eq_nil outside']⟩
    · exact Reader.SameMarks.segments
  refine ⟨?_, ?_, ?_⟩
  · rw [hsegments, hsegments', alike.prose, List.map_reverse, List.map_reverse, List.map_append,
      List.map_append, alike.segments]
  · rw [hmarks, inStep.sameMarks_iff, ← scrubbed]
    exact and_iff_right ⟨rfl, rfl⟩
  · intro shielded shielded'
    rw [← scrubbed] at shielded'
    have followed := (start True).inStep walk (scrubbed ▸ walk') (fun _ => shielded)
      (fun _ => shielded')
    rw [hmarks, followed.sameMarks_iff]
    exact ⟨⟨rfl, rfl⟩, followed.map_closings_marks trivial⟩

/-- A document that begins with a number sign and holds inline code. -/
def codeDocument (before code after : Text) : Text := '#' :: (before ++ (code ++ after))

/-- What is extracted from such a document. -/
def codeExtraction (before code after : Text) : Extraction :=
  ⟨.pair 0xE000, .letter '#' :: (before.map .letter ++
    .literal (.inlineCode code) :: after.map .letter)⟩

/-- How such a document is read, by the segments of its lexemes. -/
theorem ofSource_codeDocument {before code after : Text} {segments : List Segment}
    (hopening : Char.ofNat 0xE000 ∉ codeDocument before code after)
    (hclosing : Char.ofNat 0xE001 ∉ codeDocument before code after)
    (hfence : Literal.readFence? (codeDocument before code after) = ([], .absent))
    (hbefore : ('#' :: before).any
      (fun letter => Literal.isDelimiter letter || letter == '\n') = false)
    (hread : Literal.readLiteral? (code ++ after) = .found (.inlineCode code) after)
    (hafter : after.any Literal.isDelimiter = false)
    (hsegments : segmentsOf ⟨"d", .page, .standard, codeExtraction before code after⟩
      (Lexeme.tokenize (codeExtraction before code after).scrubbed) = .ok segments) :
    Extraction.ofSource (codeDocument before code after) = .ok (codeExtraction before code after) ∧
      ofSource "d" .page (codeDocument before code after) .standard =
        .ok ⟨"d", .page, codeExtraction before code after, segments⟩ := by
  have extracted : Extraction.ofSource (codeDocument before code after) =
      .ok (codeExtraction before code after) :=
    @Extraction.ofSource_of_readLiteral? '#' before after [] (.inlineCode code) hopening hclosing
      hfence hbefore hread hafter
  refine ⟨extracted, ?_⟩
  rw [ofSource_of_extraction extracted, hsegments]

/-- In the content of a gap text itself, a literal is no field. -/
theorem ofSource_shields_iff_code :
    ∃ parsed parsed',
      ofSource "d" .page (codeDocument "gap[[[x]]".toList "`[[y]]`".toList [']']) .standard =
        .ok parsed ∧
      ofSource "d" .page (codeDocument "gap[[[x]]".toList "`z`".toList [']']) .standard =
        .ok parsed' ∧
      parsed.segments.map Segment.marks = parsed'.segments.map Segment.marks := by
  obtain ⟨extracted, read⟩ := @ofSource_codeDocument "gap[[[x]]".toList "`[[y]]`".toList [']']
    [.directive ⟨0, 18⟩ (.task (.gap [⟨[['x']]⟩] [[], "`[[y]]`".toList]))]
    (by decide) (by decide) (by cbv) (by decide) (by cbv) (by decide) (by cbv)
  obtain ⟨extracted', read'⟩ := @ofSource_codeDocument "gap[[[x]]".toList "`z`".toList [']']
    [.directive ⟨0, 18⟩ (.task (.gap [⟨[['x']]⟩] [[], "`z`".toList]))]
    (by decide) (by decide) (by cbv) (by decide) (by cbv) (by decide) (by cbv)
  have shields := ofSource_shields_iff extracted extracted' (by cbv) read read'
  exact ⟨_, _, read, read', shields.2.1.mpr (by cbv)⟩

/-- Text inside a literal can be read as structure: the inline code in a note inside a gap text is read
as a field of the gap text. -/
theorem ofSource_reads_literal :
    ¬∀ (document : String) (context : Context) (registry : Registry) (source source' : Text)
      (extraction extraction' : Extraction) (parsed parsed' : ParsedDocument),
      Extraction.ofSource source = .ok extraction → Extraction.ofSource source' = .ok extraction' →
      extraction.scrubbed = extraction'.scrubbed →
      extraction.literals.map Literal.kind = extraction'.literals.map Literal.kind →
      ofSource document context source registry = .ok parsed →
      ofSource document context source' registry = .ok parsed' →
      parsed.segments.map (fun segment => (segment.layout, segment.marks)) =
        parsed'.segments.map fun segment => (segment.layout, segment.marks) := by
  intro shielded
  obtain ⟨extracted, read⟩ := @ofSource_codeDocument "gap[[[x]]#note[".toList
    "`[[y]]`".toList "]]".toList
    [.directive ⟨0, 25⟩ (.task (.gap [⟨[['x']]⟩, ⟨[['y']]⟩] [[], "`".toList, "`".toList]))]
    (by decide) (by decide) (by cbv) (by decide) (by cbv) (by decide) (by cbv)
  obtain ⟨extracted', read'⟩ := @ofSource_codeDocument "gap[[[x]]#note[".toList
    "`z`".toList "]]".toList
    [.directive ⟨0, 25⟩ (.task (.gap [⟨[['x']]⟩] [[], "`z`".toList]))]
    (by decide) (by decide) (by cbv) (by decide) (by cbv) (by decide) (by cbv)
  have same := shielded "d" .page .standard _ _ _ _ _ _ extracted extracted' (by cbv) (by decide)
    read read'
  exact absurd same (by decide)

end ParsedDocument
end Courseware
