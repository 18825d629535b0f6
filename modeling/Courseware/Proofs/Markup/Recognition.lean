import Mathlib
import Courseware.Proofs.Markup.Grammar
import Courseware.Proofs.Source.Pieces

/-!
# Documents are read according to the grammar

A derivation tells a reader what to do: reading the lexemes of a phrase leaves the open directives as
they were, and what was opened by the phrase is closed by it. Only the builder of a directive can
stop the reader on the way, and then the directive has been read to its end. `Completes` says so, and
it is proved of every phrase by induction on its derivation. Together with the converse, that what is
read derives, this gives `ofSource_accepts_grammar`.
-/

namespace Courseware

namespace Reader

variable {scope : ReaderScope} {reader next : Reader} {outlines : List Outline}

/-- The builder of a directive refuses what the directive holds. The directive has been read to its
closing bracket, and its required slots are filled. -/
def Refused (scope : ReaderScope) (reader : Reader) (lexemes : List Lexeme) (report : FaultAt) :
    Prop :=
  ∃ before closing after middle frame outer,
    lexemes = before ++ closing :: after ∧ Walk scope reader before middle ∧
      middle.frames = frame :: outer ∧ closing.token.closes? = some .bracket ∧
      frame.groups = [] ∧ frame.slot = none ∧ frame.missingSlot? = none ∧
      frame.node.build scope.extraction s!"{scope.document}#{middle.built}" =
        .error report.fault ∧
      report.offset = frame.start

/-- What a builder refuses is not read. -/
theorem Refused.foldlM_eq {lexemes : List Lexeme} {report : FaultAt}
    (refused : Refused scope reader lexemes report) :
    lexemes.foldlM (read scope) reader = .error report := by
  obtain ⟨before, closing, after, middle, frame, outer, rfl, walk, inside, closes, ungrouped,
    unfilling, complete, refuses, place⟩ := refused
  have hbuild : frame.build scope.extraction s!"{scope.document}#{middle.built}" =
      .error report.fault := by
    rw [OpenDirective.build, complete]
    exact refuses
  have hread : read scope middle closing = .error report := by
    rw [read_of_closes inside closes]
    simp only [closed, ungrouped, unfilling, if_true, hbuild, ← place]
  have hrest : (closing :: after).foldlM (read scope) middle = .error report := by
    rw [List.foldlM_cons, hread]
    rfl
  rw [List.foldlM_append, foldlM_eq_ok_iff.mpr walk]
  exact hrest

/-- A refusal stays one when lexemes follow. -/
theorem Refused.append_right {before after : List Lexeme} {report : FaultAt}
    (refused : Refused scope reader before report) :
    Refused scope reader (before ++ after) report := by
  obtain ⟨first, closing, rest, middle, frame, outer, rfl, refused⟩ := refused
  refine ⟨first, closing, rest ++ after, middle, frame, outer, ?_, refused⟩
  rw [List.append_assoc, List.cons_append]

/-- A refusal stays one when lexemes are read before it. -/
theorem Refused.append_left {before after : List Lexeme} {report : FaultAt}
    (walk : Walk scope reader before next) (refused : Refused scope next after report) :
    Refused scope reader (before ++ after) report := by
  obtain ⟨first, closing, rest, middle, frame, outer, rfl, others, refused⟩ := refused
  refine ⟨before ++ first, closing, rest, middle, frame, outer, ?_, walk.append others, refused⟩
  rw [List.append_assoc]

/-- Reading lexemes leads to directives with the given outlines being open, unless a builder refuses
a directive on the way. -/
def Completes (scope : ReaderScope) (reader : Reader) (lexemes : List Lexeme)
    (outlines : List Outline) : Prop :=
  (∃ next, Walk scope reader lexemes next ∧ next.outlines = outlines) ∨
    ∃ report, Refused scope reader lexemes report

theorem Completes.nil : Completes scope reader [] reader.outlines :=
  .inl ⟨reader, .done reader, rfl⟩

/-- A single step completes. -/
theorem Completes.single {lexeme : Lexeme} (step : Step scope reader lexeme next)
    (h : next.outlines = outlines) : Completes scope reader [lexeme] outlines :=
  .inl ⟨next, .step step (.done next), h⟩

/-- Parts that complete one after the other complete together. -/
theorem Completes.append {before after : List Lexeme} {middle : List Outline}
    (first : Completes scope reader before middle)
    (second : ∀ reached : Reader, reached.outlines = middle →
      Completes scope reached after outlines) :
    Completes scope reader (before ++ after) outlines := by
  rcases first with ⟨reached, walk, hreached⟩ | ⟨report, refused⟩
  · rcases second reached hreached with ⟨next, others, hnext⟩ | ⟨report, refused⟩
    · exact .inl ⟨next, walk.append others, hnext⟩
    · exact .inr ⟨report, refused.append_left walk⟩
  · exact .inr ⟨report, refused.append_right⟩

/-- A part that is opened by a lexeme, read, and closed by a lexeme. -/
theorem Completes.enclosed {opening closing : Lexeme} {inner : List Lexeme}
    {opened : List Outline} (filled : List Outline) (first : Completes scope reader [opening] opened)
    (second : ∀ reached : Reader, reached.outlines = opened →
      Completes scope reached inner filled)
    (third : ∀ reached : Reader, reached.outlines = filled →
      Completes scope reached [closing] outlines) :
    Completes scope reader (opening :: (inner ++ [closing])) outlines :=
  first.append fun reached hreached => (second reached hreached).append third

/-! ## The steps that a derivation asks for -/

theorem frames_of_outlines {outline : Outline} {outer : List Outline}
    (h : reader.outlines = outline :: outer) :
    ∃ frame frames, reader.frames = frame :: frames ∧ frame.outline = outline ∧
      frames.map OpenDirective.outline = outer := by
  rw [outlines, List.map_eq_cons_iff] at h
  exact h

theorem completes_prose {lexeme : Lexeme} (outside : reader.outlines = [])
    (unnamed : lexeme.token.names? = none) : Completes scope reader [lexeme] [] :=
  .single (.prose (outlines_eq_nil_iff.mp outside) unnamed) outside

theorem completes_plain {lexeme : Lexeme} {outline : Outline} {outer : List Outline}
    (inside : reader.outlines = outline :: outer) (plain : lexeme.token.isPlain = true) :
    Completes scope reader [lexeme] (outline :: outer) := by
  obtain ⟨frame, frames, hframes, rfl, rfl⟩ := frames_of_outlines inside
  refine .single (.plain hframes plain) ?_
  rw [outlines, List.map_cons, OpenDirective.outline_add]

theorem completes_group {lexeme : Lexeme} {outline : Outline} {outer : List Outline}
    {enclosure : Enclosure} (inside : reader.outlines = outline :: outer)
    (grouped : lexeme.token.groups? = some enclosure) :
    Completes scope reader [lexeme]
      ({ outline with groups := enclosure :: outline.groups } :: outer) := by
  obtain ⟨frame, frames, hframes, rfl, rfl⟩ := frames_of_outlines inside
  refine .single (.group hframes grouped) ?_
  have hslot := congrArg Outline.slot (frame.outline_add (.source lexeme.start lexeme.text))
  simp only [OpenDirective.outline] at hslot
  simp only [outlines, List.map_cons, OpenDirective.outline, OpenDirective.add_descriptor,
    OpenDirective.add_filled, hslot]

theorem completes_closeGroup {lexeme : Lexeme} {outline : Outline} {outer : List Outline}
    {enclosure : Enclosure}
    (inside : reader.outlines = { outline with groups := enclosure :: outline.groups } :: outer)
    (closing : lexeme.token.closes? = some enclosure) :
    Completes scope reader [lexeme] (outline :: outer) := by
  obtain ⟨frame, frames, hframes, houtline, rfl⟩ := frames_of_outlines inside
  have hgroups : frame.groups = enclosure :: outline.groups := congrArg Outline.groups houtline
  have hrest : ({ frame with groups := outline.groups } : OpenDirective).outline = outline :=
    congrArg (fun changed : Outline => { changed with groups := outline.groups }) houtline
  refine .single (.closeGroup hframes closing hgroups) ?_
  rw [outlines, List.map_cons, OpenDirective.outline_add, hrest]

theorem completes_slot {lexeme : Lexeme} {descriptor : Descriptor} {filled : List String}
    {outer : List Outline} {enclosure : Enclosure}
    (inside : reader.outlines = ⟨descriptor, filled, none, []⟩ :: outer)
    (named : lexeme.token.names? = some enclosure)
    (declared : descriptor.hasSlot lexeme.name = true) (unfilled : lexeme.name ∉ filled) :
    Completes scope reader [lexeme]
      (⟨descriptor, filled, some (lexeme.name, enclosure), []⟩ :: outer) := by
  obtain ⟨frame, frames, hframes, houtline, rfl⟩ := frames_of_outlines inside
  have opens : frame.opensSlot lexeme.name = true := by
    rw [OpenDirective.opensSlot_eq, houtline]
    exact declared
  have free : frame.filled.lookup lexeme.name = none := by
    rw [OpenDirective.lookup_filled_eq_none_iff, houtline]
    exact unfilled
  refine .single (.slot hframes named opens free) ?_
  exact congrArg (fun changed : Outline =>
    { changed with slot := some (lexeme.name, enclosure) } ::
      frames.map OpenDirective.outline) houtline

theorem completes_closeSlot {lexeme : Lexeme} {descriptor : Descriptor} {filled : List String}
    {outer : List Outline} {name : String} {enclosure : Enclosure}
    (inside : reader.outlines = ⟨descriptor, filled, some (name, enclosure), []⟩ :: outer)
    (closing : lexeme.token.closes? = some enclosure) :
    Completes scope reader [lexeme] (⟨descriptor, name :: filled, none, []⟩ :: outer) := by
  obtain ⟨frame, frames, hframes, houtline, rfl⟩ := frames_of_outlines inside
  have ungrouped : frame.groups = [] := congrArg Outline.groups houtline
  have hslot : frame.slot.map (fun slot => (slot.name, slot.enclosure)) =
      some (name, enclosure) := congrArg Outline.slot houtline
  obtain ⟨slot, filling, hname⟩ := Option.map_eq_some_iff.mp hslot
  obtain ⟨rfl, rfl⟩ := Prod.mk.inj hname
  refine .single (.closeSlot hframes closing ungrouped filling) ?_
  exact congrArg (fun changed : Outline =>
    { changed with slot := none, filled := slot.name :: changed.filled } ::
      frames.map OpenDirective.outline) houtline

/-- The tag of a directive opens it wherever it stands, because no directive has a slot of that
name. -/
theorem completes_directive {registered : List Descriptor}
    (built : Registry.ofDescriptors registered = .ok scope.registry)
    (known : ∀ outline ∈ reader.outlines, outline.descriptor ∈ scope.registry.descriptors)
    {lexeme : Lexeme} {descriptor : Descriptor} (named : lexeme.token.names? = some .bracket)
    (found : scope.registry.get? lexeme.name = some descriptor)
    (allowed : descriptor.allows scope.context = true) :
    Completes scope reader [lexeme] (⟨descriptor, [], none, []⟩ :: reader.outlines) := by
  have noSlot : ∀ frame ∈ reader.frames.head?, frame.opensSlot lexeme.name = false := by
    intro frame hframe
    have hknown := known frame.outline (List.mem_map_of_mem (List.mem_of_head? hframe))
    rw [OpenDirective.opensSlot_eq, Registry.hasSlot_eq_false_of_get? built hknown found,
      Bool.and_false]
  exact .single (.directive named found allowed noSlot) rfl

/-- A directive that has been read to its end is closed, unless its builder refuses it. -/
theorem completes_closeDirective {lexeme : Lexeme} {descriptor : Descriptor}
    {filled : List String} {outer : List Outline}
    (inside : reader.outlines = ⟨descriptor, filled, none, []⟩ :: outer)
    (required : ∀ slot ∈ descriptor.requiredSlots, slot.name ∈ filled)
    (closing : lexeme.token.closes? = some .bracket) :
    Completes scope reader [lexeme] outer := by
  obtain ⟨frame, frames, hframes, houtline, rfl⟩ := frames_of_outlines inside
  have ungrouped : frame.groups = [] := congrArg Outline.groups houtline
  have unfilling : frame.slot = none :=
    Option.map_eq_none_iff.mp (congrArg Outline.slot houtline)
  have complete : frame.missingSlot? = none := by
    rw [OpenDirective.missingSlot?_eq_none_iff, houtline]
    exact required
  cases hbuild : frame.node.build scope.extraction s!"{scope.document}#{reader.built}" with
  | error fault =>
    exact .inr ⟨⟨frame.start, fault⟩, [], lexeme, [], reader, frame, frames, rfl, .done reader,
      hframes, closing, ungrouped, unfilling, complete, hbuild, rfl⟩
  | ok directive =>
    have built : frame.build scope.extraction s!"{scope.document}#{reader.built}" =
        .ok directive := by
      rw [OpenDirective.build, complete]
      exact hbuild
    exact .single (.closeDirective hframes closing ungrouped unfilling built)
      (reader.outlines_place _ directive frames)

/-! ## Phrases are read to their end -/

/-- What it is to read the lexemes of a phrase: a document outside all directives, a directive
anywhere, content inside a directive, and a body where its directive has just been opened. -/
def Reads (scope : ReaderScope) : Phrase → List Lexeme → Prop
  | .document, lexemes =>
    ∀ reader : Reader, reader.outlines = [] → Completes scope reader lexemes []
  | .directive, lexemes =>
    ∀ reader : Reader,
      (∀ outline ∈ reader.outlines, outline.descriptor ∈ scope.registry.descriptors) →
        Completes scope reader lexemes reader.outlines
  | .content, lexemes =>
    ∀ (reader : Reader) (outline : Outline) (outer : List Outline),
      reader.outlines = outline :: outer →
        (∀ outline ∈ reader.outlines, outline.descriptor ∈ scope.registry.descriptors) →
          Completes scope reader lexemes (outline :: outer)
  | .body descriptor filled, lexemes =>
    ∀ (reader : Reader) (outer : List Outline),
      reader.outlines = ⟨descriptor, [], none, []⟩ :: outer →
        (∀ outline ∈ reader.outlines, outline.descriptor ∈ scope.registry.descriptors) →
          Completes scope reader lexemes (⟨descriptor, filled, none, []⟩ :: outer)

/-- The open directives stay those of the registry when only the outline of the innermost one changes. -/
theorem known_of_outlines {reached : Reader} {outline changed : Outline} {outer : List Outline}
    (known : ∀ outline ∈ reader.outlines, outline.descriptor ∈ scope.registry.descriptors)
    (inside : reader.outlines = outline :: outer) (hreached : reached.outlines = changed :: outer)
    (same : changed.descriptor = outline.descriptor) :
    ∀ outline ∈ reached.outlines, outline.descriptor ∈ scope.registry.descriptors := by
  rw [inside, List.forall_mem_cons] at known
  rw [hreached, List.forall_mem_cons, same]
  exact known

/-- Whatever derives as a phrase is read as that phrase. The induction is on the derivation; which
descriptors are open stays the same while a phrase is read, so they stay those of the registry. -/
theorem reads_of_derives {registered : List Descriptor}
    (built : Registry.ofDescriptors registered = .ok scope.registry) {phrase : Phrase}
    {lexemes : List Lexeme} (derives : Derives scope.registry scope.context phrase lexemes) :
    Reads scope phrase lexemes := by
  induction derives with
  | emptyDocument =>
    intro reader outside
    exact outside ▸ Completes.nil
  | documentText _ unnamed ih =>
    intro reader outside
    exact (ih reader outside).append fun reached hreached => completes_prose hreached unnamed
  | documentDirective _ _ ihDocument ihDirective =>
    intro reader outside
    refine (ihDocument reader outside).append fun reached hreached => ?_
    have hcompletes := ihDirective reached (by simp [hreached])
    rwa [hreached] at hcompletes
  | @directive opening closing body descriptor filled named found allowed _ required closed ih =>
    intro reader known
    refine .enclosed (⟨descriptor, filled, none, []⟩ :: reader.outlines)
      (completes_directive built known named found allowed) ?_ ?_
    · intro reached hreached
      refine ih reached reader.outlines hreached ?_
      rw [hreached, List.forall_mem_cons]
      exact ⟨(Registry.spec_of_get? found).1, known⟩
    · intro reached hreached
      exact completes_closeDirective hreached required closed
  | emptyContent =>
    intro reader outline outer inside _
    exact inside ▸ Completes.nil
  | contentText _ plain ih =>
    intro reader outline outer inside known
    exact (ih reader outline outer inside known).append fun reached hreached =>
      completes_plain hreached plain
  | @contentGroup _ _ _ _ enclosure _ opened _ closed ihContent ihInner =>
    intro reader outline outer inside known
    refine (ihContent reader outline outer inside known).append fun reached hreached => ?_
    refine .enclosed ({ outline with groups := enclosure :: outline.groups } :: outer)
      (completes_group hreached opened) ?_ ?_
    · intro inner hinner
      exact ihInner inner _ outer hinner (known_of_outlines known inside hinner rfl)
    · intro inner hinner
      exact completes_closeGroup hinner closed
  | contentDirective _ _ ihContent ihDirective =>
    intro reader outline outer inside known
    refine (ihContent reader outline outer inside known).append fun reached hreached => ?_
    have hcompletes := ihDirective reached (by rw [hreached, ← inside]; exact known)
    rwa [hreached] at hcompletes
  | emptyBody =>
    intro reader outer inside _
    exact inside ▸ Completes.nil
  | bodyContent _ _ ihBody ihContent =>
    intro reader outer inside known
    refine (ihBody reader outer inside known).append fun reached hreached => ?_
    exact ihContent reached _ outer hreached (known_of_outlines known inside hreached rfl)
  | @bodySlot descriptor filled _ _ opening _ enclosure _ named declared unfilled _ closed ihBody
      ihContent =>
    intro reader outer inside known
    refine (ihBody reader outer inside known).append fun reached hreached => ?_
    refine .enclosed (⟨descriptor, filled, some (opening.name, enclosure), []⟩ :: outer)
      (completes_slot hreached named declared unfilled) ?_ ?_
    · intro inner hinner
      exact ihContent inner _ outer hinner (known_of_outlines known inside hinner rfl)
    · intro inner hinner
      exact completes_closeSlot hinner closed

end Reader

/-! ## Documents -/

namespace ParsedDocument

/-- How a document is read whose literals have been extracted: its lexemes are read one after the
other. -/
theorem ofSource_of_extraction {source : Text} {extraction : Extraction}
    (extracted : Extraction.ofSource source = .ok extraction) (document : String)
    (context : Context) (registry : Registry) :
    ofSource document context source registry =
      match segmentsOf ⟨document, context, registry, extraction⟩
          (Lexeme.tokenize extraction.scrubbed) with
      | .error report =>
        .error (.fault document (extraction.locate report.offset) report.fault)
      | .ok segments => .ok ⟨document, context, extraction, segments⟩ := by
  cases hsegments : segmentsOf ⟨document, context, registry, extraction⟩
      (Lexeme.tokenize extraction.scrubbed) with
  | error report =>
    unfold ofSource
    simp only [extracted, hsegments]
  | ok segments =>
    unfold ofSource
    simp only [extracted, hsegments]

/-- A document that is read keeps what was extracted from its source. -/
theorem extracted_of_ofSource {document : String} {context : Context} {registry : Registry}
    {source : Text} {parsed : ParsedDocument}
    (read : ofSource document context source registry = .ok parsed) :
    Extraction.ofSource source = .ok parsed.extraction := by
  cases extracted : Extraction.ofSource source with
  | error fault =>
    unfold ofSource at read
    rw [extracted] at read
    cases fault <;> exact nomatch read
  | ok extraction =>
    rw [ofSource_of_extraction extracted] at read
    split at read
    · exact nomatch read
    · obtain rfl := Except.ok.inj read
      rfl

/-- A document is read exactly when a walk over its lexemes ends outside all directives. -/
theorem segmentsOf_eq_ok_iff {scope : ReaderScope} {lexemes : List Lexeme}
    {segments : List Segment} :
    segmentsOf scope lexemes = .ok segments ↔
      ∃ reader : Reader, Reader.Walk scope .initial lexemes reader ∧ reader.frames = [] ∧
        segments = (Segment.ofProse reader.prose ++ reader.segments).reverse := by
  rw [segmentsOf]
  constructor
  · intro h
    obtain ⟨reader, hread, hfinish⟩ := exists_of_bind_eq_ok h
    rw [Reader.finish] at hfinish
    split at hfinish
    · next outside =>
      exact ⟨reader, Reader.foldlM_eq_ok_iff.mp hread, outside, (Except.ok.inj hfinish).symm⟩
    · exact nomatch hfinish
  · rintro ⟨reader, walk, outside, rfl⟩
    rw [Reader.foldlM_eq_ok_iff.mpr walk]
    show reader.finish = _
    rw [Reader.finish, outside]

/-- A document that is read has been walked through, and its segments are those of the last reader. -/
theorem exists_walk_of_ofSource {document : String} {context : Context} {registry : Registry}
    {source : Text} {extraction : Extraction} {parsed : ParsedDocument}
    (extracted : Extraction.ofSource source = .ok extraction)
    (read : ofSource document context source registry = .ok parsed) :
    ∃ reader : Reader, Reader.Walk ⟨document, context, registry, extraction⟩ .initial
        (Lexeme.tokenize extraction.scrubbed) reader ∧ reader.frames = [] ∧
      parsed.segments = (Segment.ofProse reader.prose ++ reader.segments).reverse := by
  rw [ofSource_of_extraction extracted] at read
  cases hsegments : segmentsOf ⟨document, context, registry, extraction⟩
      (Lexeme.tokenize extraction.scrubbed) with
  | error report =>
    rw [hsegments] at read
    exact nomatch read
  | ok segments =>
    rw [hsegments] at read
    obtain rfl := Except.ok.inj read
    exact segmentsOf_eq_ok_iff.mp hsegments

/-- Documents are read according to the grammar, and to nothing else. If the lexemes of a document do
not derive from the grammar, it is not read. If they do, it is read, unless the builder of a directive
that has been read to its end refuses it; then this refusal is what is reported. -/
theorem ofSource_accepts_grammar {registered : List Descriptor} {registry : Registry}
    (built : Registry.ofDescriptors registered = .ok registry) (document : String)
    (context : Context) {source : Text} {extraction : Extraction}
    (extracted : Extraction.ofSource source = .ok extraction) :
    (¬ Derives registry context .document (Lexeme.tokenize extraction.scrubbed) →
      ∃ problem, ofSource document context source registry = .error problem) ∧
    (Derives registry context .document (Lexeme.tokenize extraction.scrubbed) →
      (∃ parsed, ofSource document context source registry = .ok parsed) ∨
      ∃ report, Reader.Refused ⟨document, context, registry, extraction⟩ .initial
          (Lexeme.tokenize extraction.scrubbed) report ∧
        ofSource document context source registry =
          .error (.fault document (extraction.locate report.offset) report.fault)) := by
  rw [ofSource_of_extraction extracted]
  constructor
  · intro notDerived
    cases hsegments : segmentsOf ⟨document, context, registry, extraction⟩
        (Lexeme.tokenize extraction.scrubbed) with
    | error report => exact ⟨_, rfl⟩
    | ok segments =>
      obtain ⟨reader, walk, outside, _⟩ := segmentsOf_eq_ok_iff.mp hsegments
      have begun := walk.begun
      rw [Reader.outlines_eq_nil_iff.mpr outside] at begun
      cases begun with
      | outside derived => exact absurd derived notDerived
  · intro derived
    have reads : Reader.Reads ⟨document, context, registry, extraction⟩ .document
        (Lexeme.tokenize extraction.scrubbed) := Reader.reads_of_derives built derived
    rcases reads .initial rfl with ⟨reader, walk, outside⟩ | ⟨report, refused⟩
    · left
      rw [segmentsOf_eq_ok_iff.mpr ⟨reader, walk, Reader.outlines_eq_nil_iff.mp outside, rfl⟩]
      exact ⟨_, rfl⟩
    · right
      have hsegments : segmentsOf ⟨document, context, registry, extraction⟩
          (Lexeme.tokenize extraction.scrubbed) = .error report := by
        rw [segmentsOf, refused.foldlM_eq]
        rfl
      rw [hsegments]
      exact ⟨report, refused, rfl⟩

/-- A note derives from the grammar, so it is read unless its builder refuses it. -/
theorem ofSource_accepts_grammar_note :
    ∃ extraction,
      Extraction.ofSource ['#', 'n', 'o', 't', 'e', '[', 'x', ']'] = .ok extraction ∧
      ((∃ parsed, ofSource "d" .page ['#', 'n', 'o', 't', 'e', '[', 'x', ']'] .standard =
          .ok parsed) ∨
        ∃ report, Reader.Refused ⟨"d", .page, .standard, extraction⟩ .initial
            (Lexeme.tokenize extraction.scrubbed) report ∧
          ofSource "d" .page ['#', 'n', 'o', 't', 'e', '[', 'x', ']'] .standard =
            .error (.fault "d" (extraction.locate report.offset) report.fault)) := by
  have built : Registry.ofDescriptors (DirectiveKind.all.map DirectiveKind.descriptor) =
      .ok .standard := rfl
  have extracted : Extraction.ofSource ['#', 'n', 'o', 't', 'e', '[', 'x', ']'] =
      .ok ⟨.pair 0xE000, ['#', 'n', 'o', 't', 'e', '[', 'x', ']'].map .letter⟩ :=
    Extraction.ofSource_of_isDelimiter (by decide) (by decide) (by decide)
  have hlexemes : Lexeme.tokenize (Extraction.scrubbed ⟨.pair 0xE000,
      ['#', 'n', 'o', 't', 'e', '[', 'x', ']'].map .letter⟩) =
        [⟨.blockOpen, 0, ['#', 'n', 'o', 't', 'e', '[']⟩, ⟨.text, 6, ['x']⟩,
          ⟨.bracketClose, 7, [']']⟩] := by cbv
  refine ⟨_, extracted, (ofSource_accepts_grammar built "d" .page extracted).2 ?_⟩
  rw [hlexemes]
  have empty : Derives .standard .page (.body ⟨.note, [], []⟩ []) [] := .emptyBody
  have text : Derives .standard .page .content [⟨.text, 6, ['x']⟩] := .content_text rfl
  have note : Derives .standard .page .directive
      [⟨.blockOpen, 0, ['#', 'n', 'o', 't', 'e', '[']⟩, ⟨.text, 6, ['x']⟩,
        ⟨.bracketClose, 7, [']']⟩] :=
    .directive rfl rfl rfl (empty.bodyContent text) (by decide) rfl
  exact Derives.emptyDocument.documentDirective note

end ParsedDocument
end Courseware
