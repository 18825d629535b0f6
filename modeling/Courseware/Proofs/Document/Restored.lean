import Courseware.Proofs.Document.Admission
import Courseware.Proofs.Document.Texts
import Courseware.Proofs.Markdown.Gfm
import Courseware.Proofs.Markup.Shielding

/-!
# No sentinel is left

A document is compiled in three steps, and no step cuts a placeholder. Reading leaves prose that is intact
and directives without sentinels. Prose is then cut at its landmarks, and the parts are restored. This holds in
any dialect of Markdown of which no more is known than that its nodes neither start nor end inside a
placeholder, as `Markdown.Dialect.Spares` says. From the events that result the tree is built. So no
sentinel is in a text that a document is compiled to.
-/

namespace Courseware

/-! ## Landmarks -/

namespace Markdown

variable {sentinels : Sentinels} {count : Nat} {text : Text}

/-- A landmark that can be cut out of a text without cutting a placeholder. -/
structure Landmark.Whole (sentinels : Sentinels) (count : Nat) (text : Text) (landmark : Landmark) :
    Prop where
  start : sentinels.Uncut count text landmark.span.start
  stop : sentinels.Uncut count text landmark.span.stop
  title : ∀ depth title, landmark.kind = .heading depth title → sentinels.Intact count title

/-- The title of a heading goes from the start of a child to the end of one. -/
theorem intact_titleIn (reserved : sentinels.Reserved) {children : List (Option Span)}
    (uncut : ∀ place ∈ children.reduceOption,
      sentinels.Uncut count text place.start ∧ sentinels.Uncut count text place.stop) :
    sentinels.Intact count (titleIn text children) := by
  have known : ∀ place, some place ∈ children → place ∈ children.reduceOption :=
    fun place h => List.reduceOption_mem_iff.mpr h
  unfold titleIn
  split
  · next first last hfirst hlast =>
    have hstart := (uncut first (known first (List.mem_of_mem_head? hfirst))).1
    have hstop := (uncut last (known last (List.mem_of_mem_getLast? hlast))).2
    exact hstart.intact_slice reserved hstop
  · exact .nil

/-- The landmarks that a dialect finds can be cut out if it spares placeholders. -/
theorem Dialect.Spares.whole {dialect : Dialect} (spares : dialect.Spares sentinels count)
    (reserved : sentinels.Reserved) (intact : sentinels.Intact count text) {landmarks : List Landmark}
    (h : dialect.landmarks text = .ok landmarks) :
    ∀ landmark ∈ landmarks, landmark.Whole sentinels count text := by
  obtain ⟨nodes, hnodes, rfl⟩ := exists_of_map_eq_ok h
  intro landmark hlandmark
  obtain ⟨⟨kind, span?⟩, hnode, hmark⟩ := List.mem_filterMap.mp hlandmark
  obtain ⟨span, rfl, hkind⟩ := Option.bind_eq_some_iff.mp hmark
  have uncut := spares text nodes intact hnodes _ hnode
  cases kind with
  | heading depth children =>
    obtain rfl := Option.some.inj hkind
    obtain ⟨⟨hstart, hstop⟩, hchildren⟩ := List.forall_mem_cons.mp uncut
    refine ⟨hstart, hstop, ?_⟩
    rintro _ _ ⟨⟩
    exact intact_titleIn reserved hchildren
  | thematicBreak =>
    obtain rfl := Option.some.inj hkind
    obtain ⟨hstart, hstop⟩ := uncut span (List.mem_singleton_self _)
    refine ⟨hstart, hstop, ?_⟩
    rintro _ _ ⟨⟩
  | other => exact absurd hkind (Option.some_ne_none _).symm

end Markdown

namespace Event

variable {extraction : Extraction} {text : Text}

/-! ## Events -/

section
variable (hwell : extraction.WellFormed) (reserved : extraction.sentinels.Reserved)
include hwell reserved

theorem absent_ofProse (intact : extraction.sentinels.Intact extraction.literals.length text) :
    ∀ event ∈ ofProse extraction text, extraction.sentinels.Absent event.texts := by
  have hrestored := (hwell.intact_restore intact).trim reserved
  unfold ofProse
  split
  · exact fun event hevent => absurd hevent List.not_mem_nil
  · exact List.forall_mem_singleton.mpr (List.forall_mem_singleton.mpr hrestored)

theorem absent_ofLandmark {landmark : Markdown.Landmark}
    (whole : landmark.Whole extraction.sentinels extraction.literals.length text) :
    extraction.sentinels.Absent (ofLandmark extraction landmark.kind).texts := by
  cases hkind : landmark.kind with
  | heading depth title =>
    have hrestored := hwell.intact_restore (whole.title depth title hkind)
    exact List.forall_mem_singleton.mpr (hrestored.trim reserved)
  | thematicBreak => exact Sentinels.absent_nil

/-- A text that is cut at landmarks, whatever landmarks these are, as long as none of them starts or stops
inside a placeholder. -/
theorem absent_divide {start : Nat} {landmarks : List Markdown.Landmark}
    (uncut : extraction.sentinels.Uncut extraction.literals.length text start)
    (whole : ∀ landmark ∈ landmarks,
      landmark.Whole extraction.sentinels extraction.literals.length text) :
    ∀ event ∈ divide extraction text start landmarks, extraction.sentinels.Absent event.texts := by
  induction landmarks generalizing start with
  | nil => exact absent_ofProse hwell reserved uncut.intact_dropBytes
  | cons landmark rest ih =>
    obtain ⟨hlandmark, hrest⟩ := List.forall_mem_cons.mp whole
    rw [divide, List.forall_mem_append, List.forall_mem_cons]
    refine ⟨?_, ?_, ih hlandmark.stop hrest⟩
    · exact absent_ofProse hwell reserved (uncut.intact_slice reserved hlandmark.start)
    · exact absent_ofLandmark hwell reserved hlandmark

omit hwell in
/-- The first line is cut off after its line feed. -/
theorem intact_splitFirstLine
    (intact : extraction.sentinels.Intact extraction.literals.length text) :
    extraction.sentinels.Intact extraction.literals.length (splitFirstLine text).1 ∧
      extraction.sentinels.Intact extraction.literals.length (splitFirstLine text).2 := by
  have hends : ∀ letter : Char, (letter != '\n') = false → Sentinels.isOutside letter = true := by
    intro letter hletter
    obtain rfl := bne_eq_false_iff_eq.mp hletter
    decide
  obtain ⟨hline, hafter⟩ := intact.splitWhile reserved hends
  unfold splitFirstLine
  split
  · next line feed rest hsplit =>
    obtain ⟨rfl, hrest⟩ := Prod.mk.inj hsplit
    have hhead := List.head?_dropWhile_not (· != '\n') text
    rw [hrest] at hafter hhead
    have hfeed := hends feed hhead
    exact ⟨hline.append (reserved.intact_singleton hfeed), hafter.tail reserved hfeed⟩
  · next line hsplit =>
    obtain ⟨rfl, _⟩ := Prod.mk.inj hsplit
    exact ⟨hline, .nil⟩

/-- A segment that cuts no placeholder has events without sentinels. -/
theorem absent_ofSegment {dialect : Markdown.Dialect}
    (spares : dialect.Spares extraction.sentinels extraction.literals.length) {segment : Segment}
    (intact : segment.Intact extraction) {events : List Event}
    (told : ofSegment dialect extraction segment = .ok events) :
    ∀ event ∈ events, extraction.sentinels.Absent event.texts := by
  cases segment with
  | directive span content =>
    obtain rfl := Except.ok.inj told
    exact List.forall_mem_singleton.mpr intact
  | prose start text =>
    have hcut : extraction.sentinels.Intact extraction.literals.length (partsOf start text).1 ∧
        extraction.sentinels.Intact extraction.literals.length (partsOf start text).2 := by
      unfold partsOf
      split
      · exact ⟨.nil, intact⟩
      · exact intact_splitFirstLine reserved intact
    obtain ⟨landmarks, hlandmarks, rfl⟩ := exists_landmarks_of_ofSegment told
    rw [ofParts, List.forall_mem_append]
    constructor
    · exact absent_ofProse hwell reserved hcut.1
    · exact absent_divide hwell reserved (.zero hcut.2) (spares.whole reserved hcut.2 hlandmarks)

end
end Event

/-! ## Documents -/

namespace ParsedDocument

variable {document : String} {context : Context} {registry : Registry} {source : Text}
  {extraction : Extraction} {parsed : ParsedDocument}

theorem extraction_of_ofSource (extracted : Extraction.ofSource source = .ok extraction)
    (read : ofSource document context source registry = .ok parsed) :
    parsed.extraction = extraction := by
  have hparsed := extracted_of_ofSource read
  rw [extracted] at hparsed
  exact (Except.ok.inj hparsed).symm

/-- Of a document that is read, neither sentinel is in restored prose or in any text of a directive,
among them the notes that are pasted into other directives. And in any dialect of Markdown whose nodes
neither start nor end inside a placeholder, neither sentinel is in a text of the tree that is built of the
document. -/
theorem ofSource_leaves_no_sentinel (extracted : Extraction.ofSource source = .ok extraction)
    (read : ofSource document context source registry = .ok parsed) :
    (∀ start text, Segment.prose start text ∈ parsed.segments →
      extraction.sentinels.opening ∉ extraction.restore text ∧
        extraction.sentinels.closing ∉ extraction.restore text) ∧
    (∀ span directive, Segment.directive span directive ∈ parsed.segments →
      ∀ text ∈ directive.texts,
        extraction.sentinels.opening ∉ text ∧ extraction.sentinels.closing ∉ text) ∧
    (∀ item ∈ Reader.written ⟨document, context, registry, extraction⟩ .initial
        (Lexeme.tokenize extraction.scrubbed), ∀ text ∈ item.directive.texts,
      extraction.sentinels.opening ∉ text ∧ extraction.sentinels.closing ∉ text) ∧
    ∀ dialect : Markdown.Dialect, dialect.Spares extraction.sentinels extraction.literals.length →
      ∀ kind tree, DocumentTree.ofParsed dialect parsed kind = .ok tree → ∀ text ∈ tree.texts,
        extraction.sentinels.opening ∉ text ∧ extraction.sentinels.closing ∉ text := by
  have hwell := Extraction.wellFormed_of_ofSource extracted
  have reserved := Extraction.reserved_of_ofSource extracted
  have hsegments := intact_of_ofSource extracted read
  refine ⟨?_, ?_, ?_, ?_⟩
  · intro start text hprose
    exact Sentinels.intact_zero_iff.mp (hwell.intact_restore (hsegments _ hprose))
  · intro span directive hdirective text htext
    exact Sentinels.intact_zero_iff.mp (hsegments _ hdirective text htext)
  · intro item hitem text htext
    exact Sentinels.intact_zero_iff.mp
      (absent_written_of_ofSource extracted read item hitem text htext)
  · intro dialect spares kind tree made text htext
    obtain ⟨events, told, made⟩ := exists_of_bind_eq_ok made
    have hevents : ∀ event ∈ events, extraction.sentinels.Absent event.texts := by
      intro event hevent
      obtain ⟨segment, hsegment, part, hpart, hmem⟩ := Event.exists_ofSegment_of_mem told hevent
      rw [extraction_of_ofSource extracted read] at hpart
      exact Event.absent_ofSegment hwell reserved spares (hsegments segment hsegment) hpart event hmem
    exact Sentinels.intact_zero_iff.mp
      (DocumentTree.absent_of_ofEvents reserved hevents made text htext)

/-- Inline code in a title is restored, and in the dialect in use, which spares placeholders, neither U+E000
nor U+E001 is left in the tree of the page. -/
theorem ofSource_leaves_no_sentinel_title :
    ∃ parsed tree,
      ofSource "d" .page "# A `b`\n#textTask[c]".toList .standard = .ok parsed ∧
      Markdown.Dialect.gfm.Spares parsed.extraction.sentinels parsed.extraction.literals.length ∧
      DocumentTree.ofParsed .gfm parsed .page = .ok tree ∧
      tree.texts = ["A `b`".toList, [], ['c']] ∧
      ∀ text ∈ tree.texts, Char.ofNat 0xE000 ∉ text ∧ Char.ofNat 0xE001 ∉ text := by
  obtain ⟨extracted, read⟩ := @ofSource_codeDocument " A ".toList "`b`".toList "\n#textTask[c]".toList
    [.prose 0 ("# A ".toList ++ (Sentinels.pair 0xE000).placeholder 0 ++ ['\n']),
      .directive ⟨12, 24⟩ (.task (.text ['c'] none none))]
    (by decide) (by decide) (by cbv) (by decide) (by cbv) (by decide) (by cbv)
  have made : DocumentTree.ofParsed .gfm ⟨"d", .page, codeExtraction " A ".toList "`b`".toList
      "\n#textTask[c]".toList, [.prose 0 ("# A ".toList ++ (Sentinels.pair 0xE000).placeholder 0 ++
        ['\n']), .directive ⟨12, 24⟩ (.task (.text ['c'] none none))]⟩ .page =
      .ok (.page ⟨some "A `b`".toList, none, [.tasks .core []
        [.taskSet ⟨none, none, [.text ['c'] none none]⟩]]⟩) := by
    cbv
  have spares := @Markdown.Dialect.gfm_spares (codeExtraction " A ".toList "`b`".toList
    "\n#textTask[c]".toList).sentinels (codeExtraction " A ".toList "`b`".toList
    "\n#textTask[c]".toList).literals.length (Extraction.reserved_of_ofSource extracted)
  exact ⟨_, _, read, spares, made, rfl,
    (ofSource_leaves_no_sentinel extracted read).2.2.2 .gfm spares .page _ made⟩

end ParsedDocument
end Courseware
