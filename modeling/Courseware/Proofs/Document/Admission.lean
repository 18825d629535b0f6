import Courseware.Document.Compile
import Courseware.Markdown.Gfm
import Courseware.Proofs.Markup.Tiling

/-!
# What a context admits

Whether a directive may stand in a document is decided in one place, where it is opened. From there it
goes to the tree in one of several ways: as a segment of its own, behind the directive that it was nested
in, or as text that a note has left in the content around it. None of them avoids the decision. What has
been opened is what has been written (`Reader.Walk.openings_perm`), and segments are made of what has been
written, so both come down to what one step does with an opening.

Trees of pages and worksheets refuse notes for the presenter once more. With the standard registry there
is nothing left for them to refuse, so a document that is read has a tree unless its prose cannot be read as
Markdown.
-/

namespace Courseware

namespace Reader

variable {scope : ReaderScope} {reader next : Reader} {lexeme : Lexeme} {lexemes : List Lexeme}
  {registered : List Descriptor}

/-- The opening of a directive that the registry has is read only where the directive may stand. It is not
mistaken for a slot, since no slot has the name of a directive. -/
theorem Step.allows (built : Registry.ofDescriptors registered = .ok scope.registry)
    (known : ∀ site ∈ reader.sites, site.1 ∈ scope.registry.descriptors)
    (step : Step scope reader lexeme next) (block : lexeme.token = .blockOpen)
    {descriptor : Descriptor} (found : scope.registry.get? lexeme.name = some descriptor) :
    descriptor.allows scope.context = true := by
  have named : lexeme.token.names? = some .bracket := by rw [block, Token.names?]
  have hnamed : lexeme.token.names? ≠ none := by
    rw [named]
    exact Option.some_ne_none _
  cases step.effect with
  | prose outside unnamed => exact absurd unnamed hnamed
  | opens _ hfound allowed =>
    rw [found] at hfound
    rwa [Option.some.inj hfound]
  | @rests frames frame outer inside same slot open_ =>
    have hknown : frame.descriptor ∈ scope.registry.descriptors := by
      apply known frame.site
      rw [sites, inside]
      exact List.mem_cons_self
    have hnone := opening?_of_hasSlot built hknown (slot hnamed)
    rw [opening?_of_get? named found] at hnone
    exact absurd hnone (Option.some_ne_none _)
  | closes inside closing closed built =>
    exact absurd (Token.names?_of_closes? closing) hnamed

/-- Of the directives that the registry has, only those are opened that may stand here. -/
theorem Walk.allows (built : Registry.ofDescriptors registered = .ok scope.registry)
    (walk : Walk scope .initial lexemes next) :
    ∀ lexeme ∈ lexemes, lexeme.token = .blockOpen → ∀ descriptor,
      scope.registry.get? lexeme.name = some descriptor →
        descriptor.allows scope.context = true := by
  apply walk.invariant (fun done _ => ∀ lexeme ∈ done, lexeme.token = .blockOpen → ∀ descriptor,
    scope.registry.get? lexeme.name = some descriptor → descriptor.allows scope.context = true)
  · exact fun lexeme h => absurd h List.not_mem_nil
  · intro before middle last after hwalk ih step lexeme hlexeme block descriptor found
    rcases List.mem_append.mp hlexeme with hbefore | hlast
    · exact ih lexeme hbefore block descriptor found
    · obtain rfl := List.mem_singleton.mp hlast
      exact step.allows built hwalk.registered block found

/-- What has been written may stand here, also what leaves no segment. -/
theorem Walk.written_allows (built : Registry.ofDescriptors registered = .ok scope.registry)
    (walk : Walk scope .initial lexemes next) :
    ∀ item ∈ written scope .initial lexemes, ∃ descriptor,
      scope.registry.get? item.directive.kind.tag = some descriptor ∧
        descriptor.allows scope.context = true := by
  intro item hitem
  have hopening : item.opening ∈ lexemes.filterMap (Lexeme.opening? scope.registry) :=
    (walk.openings_perm built).mem_iff.mpr
      (List.mem_append_left _ (List.mem_map_of_mem hitem))
  obtain ⟨lexeme, hlexeme, hopens⟩ := List.mem_filterMap.mp hopening
  rw [Lexeme.opening?] at hopens
  split at hopens
  · next block =>
    obtain ⟨descriptor, found, hsite⟩ := Option.map_eq_some_iff.mp hopens
    have hkind : descriptor.kind = item.directive.kind := congrArg Prod.snd hsite
    have htag : item.directive.kind.tag = lexeme.name := by
      rw [← hkind]
      exact (Registry.spec_of_get? found).2
    rw [htag]
    exact ⟨descriptor, found, walk.allows built lexeme hlexeme block descriptor found⟩
  · exact absurd hopens.symm (Option.some_ne_none _)

end Reader

/-! ## From segments to trees -/

namespace Event

theorem directive_notMem_ofProse (extraction : Extraction) (text : Text) (offset : Nat)
    (content : Directive) : directive offset content ∉ ofProse extraction text := by
  unfold ofProse
  split
  · exact List.not_mem_nil
  · simp

theorem directive_notMem_divide (extraction : Extraction) (text : Text) (start offset : Nat)
    (landmarks : List Markdown.Landmark) (content : Directive) :
    directive offset content ∉ divide extraction text start landmarks := by
  induction landmarks generalizing start with
  | nil => exact directive_notMem_ofProse _ _ _ _
  | cons landmark rest ih =>
    have hlandmark : directive offset content ≠ ofLandmark extraction landmark.kind := by
      cases landmark.kind <;> simp [ofLandmark]
    simp [divide, directive_notMem_ofProse, ih, hlandmark]

theorem directive_notMem_ofParts (extraction : Extraction) (opening rest : Text) (offset : Nat)
    (landmarks : List Markdown.Landmark) (content : Directive) :
    directive offset content ∉ ofParts extraction opening rest landmarks := by
  rw [ofParts, List.mem_append]
  exact not_or.mpr ⟨directive_notMem_ofProse _ _ _ _, directive_notMem_divide _ _ _ _ _ _⟩

variable {dialect : Markdown.Dialect} {extraction : Extraction} {parsed : ParsedDocument}
  {events : List Event}

theorem ofSegment_prose (dialect : Markdown.Dialect) (extraction : Extraction) (start : Nat) (text : Text) :
    ofSegment dialect extraction (.prose start text) =
      ((dialect.landmarks (partsOf start text).2).mapError DocumentProblem.markdown).map
        (ofParts extraction (partsOf start text).1 (partsOf start text).2) := rfl

/-- The events of prose are made of its landmarks, if a dialect finds them. -/
theorem exists_landmarks_of_ofSegment {start : Nat} {text : Text}
    (h : ofSegment dialect extraction (.prose start text) = .ok events) :
    ∃ landmarks, dialect.landmarks (partsOf start text).2 = .ok landmarks ∧
      events = ofParts extraction (partsOf start text).1 (partsOf start text).2 landmarks := by
  rw [ofSegment_prose] at h
  obtain ⟨landmarks, hread, rfl⟩ := exists_of_map_eq_ok h
  exact ⟨landmarks, ok_of_mapError_eq_ok hread, rfl⟩

/-- Each segment has a part of the events. -/
theorem exists_parts_of_ofDocument (h : ofDocument dialect parsed = .ok events) :
    ∃ parts, events = parts.flatten ∧ List.Forall₂
      (fun segment part => ofSegment dialect parsed.extraction segment = .ok part) parsed.segments parts := by
  obtain ⟨parts, hparts, rfl⟩ := exists_of_map_eq_ok h
  exact ⟨parts, rfl, forall₂_of_mapM_eq_ok hparts⟩

theorem exists_ofSegment_of_mem (h : ofDocument dialect parsed = .ok events) {event : Event}
    (hevent : event ∈ events) : ∃ segment ∈ parsed.segments, ∃ part,
      ofSegment dialect parsed.extraction segment = .ok part ∧ event ∈ part := by
  obtain ⟨parts, rfl, hall⟩ := exists_parts_of_ofDocument h
  obtain ⟨part, hpart, hmem⟩ := List.mem_flatten.mp hevent
  obtain ⟨segment, hsegment, hread⟩ := exists_of_mem_of_forall₂ hall hpart
  exact ⟨segment, hsegment, part, hread, hmem⟩

/-- The events that are directives are the segments that are. -/
theorem exists_segment_of_mem (h : ofDocument dialect parsed = .ok events) {offset : Nat}
    {content : Directive} (hevent : directive offset content ∈ events) :
    ∃ span, Segment.directive span content ∈ parsed.segments := by
  obtain ⟨segment, hsegment, part, hread, hmem⟩ := exists_ofSegment_of_mem h hevent
  cases segment with
  | prose start text =>
    obtain ⟨landmarks, _, rfl⟩ := exists_landmarks_of_ofSegment hread
    exact absurd hmem (directive_notMem_ofParts _ _ _ _ _ _)
  | directive span other =>
    obtain rfl := Except.ok.inj hread
    obtain ⟨_, rfl⟩ := Event.directive.inj (List.mem_singleton.mp hmem)
    exact ⟨span, hsegment⟩

/-- A document has no events for one reason only: its dialect cannot read a part of its prose. -/
theorem exists_reason_of_ofDocument {problem : DocumentProblem}
    (h : ofDocument dialect parsed = .error problem) :
    ∃ reason text, problem = .markdown reason ∧ dialect.nodes text = .error reason := by
  obtain ⟨segment, _, hsegment⟩ := exists_of_mapM_eq_error (error_of_map_eq_error h)
  cases segment with
  | directive span content => exact nomatch hsegment
  | prose start text =>
    rw [ofSegment_prose] at hsegment
    obtain ⟨reason, hfailed, rfl⟩ := exists_of_mapError_eq_error (error_of_map_eq_error hsegment)
    exact ⟨reason, _, rfl, error_of_map_eq_error hfailed⟩

end Event

/-- Events without a note for the presenter make a document in sections. -/
theorem SectionedDocument.exists_ofEvents_eq_ok {events : List Event}
    (clear : ∀ offset content, Event.directive offset (.presenterNote content) ∉ events) :
    ∃ document, ofEvents events = .ok document := by
  cases h : ofEvents events with
  | ok document => exact ⟨document, rfl⟩
  | error fault =>
    exfalso
    rcases error_or_of_bind_eq_error h with hread | ⟨reader, _, hfinish⟩
    · obtain ⟨before, event, after, middle, rfl, _, hevent⟩ := exists_of_foldlM_eq_error hread
      cases event with
      | directive offset content =>
        cases content with
        | presenterNote content =>
          exact clear offset content (List.mem_append_right _ List.mem_cons_self)
        | note content => cases hevent
        | task task => cases hevent
      | heading depth title => cases hevent
      | thematicBreak => cases hevent
      | prose text => cases hevent
    · cases hfinish

/-- Events make a tree when it is one for slides, or no note for the presenter is among them. -/
theorem DocumentTree.exists_ofEvents_eq_ok (parsed : ParsedDocument) {context : Context}
    {events : List Event} (clear : context ≠ .slides → ∀ offset content,
      Event.directive offset (.presenterNote content) ∉ events) :
    ∃ tree, ofEvents parsed context events = .ok tree := by
  cases context with
  | slides => exact ⟨_, rfl⟩
  | page =>
    obtain ⟨document, hdocument⟩ := SectionedDocument.exists_ofEvents_eq_ok (clear (by decide))
    exact ⟨page document, by simp only [ofEvents, hdocument]⟩
  | worksheet =>
    obtain ⟨document, hdocument⟩ := SectionedDocument.exists_ofEvents_eq_ok (clear (by decide))
    exact ⟨worksheet document, by simp only [ofEvents, hdocument]⟩

namespace ParsedDocument

variable {registered : List Descriptor} {registry : Registry} {document : String}
  {context : Context} {source : Text} {extraction : Extraction} {parsed : ParsedDocument}
  {dialect : Markdown.Dialect} {events : List Event}

/-- The directives among the events of a document may stand in its context. -/
theorem event_allows (built : Registry.ofDescriptors registered = .ok registry)
    (extracted : Extraction.ofSource source = .ok extraction)
    (read : ofSource document context source registry = .ok parsed)
    (told : Event.ofDocument dialect parsed = .ok events) {offset : Nat} {content : Directive}
    (h : Event.directive offset content ∈ events) : ∃ descriptor, registry.get? content.kind.tag = some descriptor ∧
      descriptor.allows context = true := by
  obtain ⟨span, hsegment⟩ := Event.exists_segment_of_mem told h
  obtain ⟨_, placed, arrangement⟩ := exists_arrangement_of_ofSource extracted read
  obtain ⟨reader, walk, _⟩ := exists_walk_of_ofSource extracted read
  have hplaced : (span, content) ∈ placed.map fun item => (item.1, item.2.directive) := by
    rw [← arrangement.segments]
    exact List.mem_filterMap.mpr ⟨_, hsegment, rfl⟩
  obtain ⟨item, hitem, hsame⟩ := List.mem_map.mp hplaced
  have hcontent : item.2.directive = content := congrArg Prod.snd hsame
  rw [← hcontent]
  exact walk.written_allows built item.2 (arrangement.mem_written hitem)

/-- A document that is read holds only what its context admits. Every opening of a block that is named
like a directive of the registry, wherever it stands in the scrubbed text, names one that may stand in the
context, and so do all directives that are written, those included that leave no segment. With the
standard registry, and in any dialect of Markdown, the document has a tree in its context unless its prose
cannot be read as Markdown; and when the context is not that of slides, no note for the presenter is among
the events that the tree is made of. -/
theorem ofSource_admits (built : Registry.ofDescriptors registered = .ok registry)
    (extracted : Extraction.ofSource source = .ok extraction)
    (read : ofSource document context source registry = .ok parsed) :
    (∀ lexeme ∈ Lexeme.tokenize extraction.scrubbed, lexeme.token = .blockOpen →
      ∀ descriptor, registry.get? lexeme.name = some descriptor →
        descriptor.allows context = true) ∧
    (∀ item ∈ Reader.written ⟨document, context, registry, extraction⟩ .initial
        (Lexeme.tokenize extraction.scrubbed),
      ∃ descriptor, registry.get? item.directive.kind.tag = some descriptor ∧
        descriptor.allows context = true) ∧
    (registry = .standard → ∀ dialect,
      (∀ problem, DocumentTree.ofParsed dialect parsed context = .error problem →
        ∃ reason text, problem = .markdown reason ∧ dialect.nodes text = .error reason) ∧
      ∀ events, Event.ofDocument dialect parsed = .ok events →
        (∃ tree, DocumentTree.ofParsed dialect parsed context = .ok tree) ∧
        (context ≠ .slides → ∀ offset content,
          Event.directive offset (.presenterNote content) ∉ events)) := by
  obtain ⟨reader, walk, _⟩ := exists_walk_of_ofSource extracted read
  refine ⟨walk.allows built, walk.written_allows built, ?_⟩
  rintro rfl dialect
  have hevents : ∀ events, Event.ofDocument dialect parsed = .ok events → context ≠ .slides →
      ∀ offset content, Event.directive offset (.presenterNote content) ∉ events := by
    intro events told hcontext offset content hmem
    obtain ⟨descriptor, found, allowed⟩ := event_allows built extracted read told hmem
    have hstandard : Registry.standard.get? "pn" = some DirectiveKind.presenterNote.descriptor := by
      decide
    obtain rfl := Option.some.inj (hstandard.symm.trans found)
    apply hcontext
    simpa [DirectiveKind.descriptor, Descriptor.allows] using allowed
  have htree : ∀ events, Event.ofDocument dialect parsed = .ok events →
      ∃ tree, DocumentTree.ofParsed dialect parsed context = .ok tree := by
    intro events told
    obtain ⟨tree, made⟩ := DocumentTree.exists_ofEvents_eq_ok parsed (hevents events told)
    refine ⟨tree, ?_⟩
    rw [DocumentTree.ofParsed, told]
    exact made
  refine ⟨fun problem failed => ?_, fun events told => ⟨htree events told, hevents events told⟩⟩
  cases told : Event.ofDocument dialect parsed with
  | error other =>
    rw [DocumentTree.ofParsed, told] at failed
    obtain rfl := Except.error.inj failed
    exact Event.exists_reason_of_ofDocument told
  | ok events =>
    obtain ⟨tree, made⟩ := htree events told
    cases made.symm.trans failed

/-- A note for the presenter in a slot of a task, and one in a note. -/
def presenterNotes : Text := "#note[a #pn[b]] #textTask[c #solution[d #pn[e]]]".toList

/-- The nested notes for the presenter may stand in slides, and the document has a tree there in the dialect
in use. -/
theorem ofSource_admits_presenterNotes :
    ∃ parsed tree, ofSource "d" .slides presenterNotes .standard = .ok parsed ∧
      DocumentTree.ofParsed .gfm parsed .slides = .ok tree ∧
      ∀ lexeme ∈ Lexeme.tokenize presenterNotes, lexeme.token = .blockOpen →
        ∀ descriptor, Registry.standard.get? lexeme.name = some descriptor →
          descriptor.allows .slides = true := by
  have built : Registry.ofDescriptors (DirectiveKind.all.map DirectiveKind.descriptor) =
      .ok .standard := rfl
  have extracted : Extraction.ofSource presenterNotes =
      .ok ⟨.pair 0xE000, presenterNotes.map .letter⟩ :=
    Extraction.ofSource_of_isDelimiter (by decide) (by decide) (by decide)
  have read : ofSource "d" .slides presenterNotes .standard =
      .ok ⟨"d", .slides, ⟨.pair 0xE000, presenterNotes.map .letter⟩,
        [.directive ⟨0, 15⟩ (.note ['a']),
          .directive ⟨0, 15⟩ (.presenterNote ['b']), .prose 15 " ".toList,
          .directive ⟨16, 48⟩ (.task (.text ['c'] none (some ['d']))),
          .directive ⟨16, 48⟩ (.presenterNote ['e'])]⟩ := by
    rw [ofSource_of_extraction extracted]
    cbv
  obtain ⟨admits, _, trees⟩ := ofSource_admits built extracted read
  obtain ⟨tree, htree⟩ := ((trees rfl .gfm).2 _ rfl).1
  exact ⟨_, tree, read, htree, admits⟩

end ParsedDocument
end Courseware
