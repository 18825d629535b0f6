import Courseware.Proofs.Markup.Closing
import Courseware.Proofs.Markup.Outline
import Courseware.Proofs.Source.RoundTrip

/-!
# Documents that are read in step

Two documents with the same scrubbed text differ only in their literals. A reader decides by tokens and
by names alone, so it does the same in both: the same directives are open at every place, with the
same groups and slots. `Reader.Alike` says how the readers of the two documents correspond, and
`Reader.Alike.step` that every step keeps this.

The contents of the open directives correspond in what was read, but a nested note leaves text in which
literals have been restored. They are the same only as long as such a note holds no literal. The
relation therefore has a parameter that says whether contents are followed as well; they are, then,
for what stands in a question or in a gap text.
-/

namespace Courseware

/-! ## Segments -/

/-- The span of a segment and, for a directive, its kind. -/
def Segment.layout : Segment → Span × Option DirectiveKind
  | .prose start text => (⟨start, start + Text.width text⟩, none)
  | .directive span content => (span, some content.kind)

namespace Reader

/-- The segments after an outermost directive has been closed, seen through a function. -/
theorem map_segments_place {α : Type} (see : Segment → α) (reader : Reader) (span : Span)
    (directive : Directive) :
    (reader.place span directive []).segments.map see =
      reader.hoisted.map (fun hoisted => see (.directive span hoisted)) ++
        see (.directive span directive) ::
          ((Segment.ofProse reader.prose).map see ++ reader.segments.map see) := by
  simp [place]

theorem place_of_note (reader : Reader) (span : Span) (content : Text) (parent : OpenDirective)
    (outer : List OpenDirective) :
    reader.place span (.note content) (parent :: outer) =
      { reader with
        frames := parent.add (.nested content) :: outer
        built := reader.built + 1 } := rfl

theorem place_of_kind (reader : Reader) (span : Span) {directive : Directive}
    (h : directive.kind ≠ .note) (parent : OpenDirective) (outer : List OpenDirective) :
    reader.place span directive (parent :: outer) =
      { reader with
        frames := parent :: outer
        hoisted := directive :: reader.hoisted
        built := reader.built + 1 } := by
  cases directive with
  | note content => exact absurd rfl h
  | presenterNote content => rfl
  | task task => rfl

end Reader

/-! ## Open directives -/

namespace OpenDirective

/-- Whether the content of a directive is looked through for choices or fields. -/
def isScanned (frame : OpenDirective) : Bool :=
  frame.descriptor.kind == .choice || frame.descriptor.kind == .gap

/-- How open directives of two documents correspond. What they hold is the same as well where `exact`
asks for it. -/
structure Alike (exact : Prop) (first second : OpenDirective) : Prop where
  outline : first.outline = second.outline
  start : first.start = second.start
  content : exact → first.content = second.content
  slot : exact → first.slot = second.slot

namespace Alike

variable {exact : Prop} {first second : OpenDirective}

theorem groups (alike : Alike exact first second) : first.groups = second.groups :=
  congrArg Outline.groups alike.outline

theorem descriptor (alike : Alike exact first second) : first.descriptor = second.descriptor :=
  congrArg Outline.descriptor alike.outline

theorem openSlot (alike : Alike exact first second) :
    first.slot.map (fun slot => (slot.name, slot.enclosure)) =
      second.slot.map fun slot => (slot.name, slot.enclosure) :=
  congrArg Outline.slot alike.outline

/-- Directives that take up the same correspond afterwards. -/
theorem add (alike : Alike exact first second) {fragment other : Fragment}
    (same : exact → fragment = other) : Alike exact (first.add fragment) (second.add other) := by
  refine ⟨?_, ?_, ?_, ?_⟩
  · rw [outline_add, outline_add, alike.outline]
  · rw [add_start, add_start, alike.start]
  · intro h
    cases hslot : second.slot <;>
      simp only [OpenDirective.add, alike.slot h, hslot, same h, alike.content h]
  · intro h
    cases hslot : second.slot <;>
      simp only [OpenDirective.add, alike.slot h, hslot, same h]

/-- Directives correspond when the same groups are open in them. -/
theorem regroup (alike : Alike exact first second) (groups : List Enclosure) :
    Alike exact { first with groups := groups } { second with groups := groups } :=
  ⟨congrArg (fun outline : Outline => { outline with groups := groups }) alike.outline,
    alike.start, alike.content, alike.slot⟩

/-- Directives correspond when the same slot is opened in them. -/
theorem fill (alike : Alike exact first second) (slot : OpenSlot) :
    Alike exact { first with slot := some slot } { second with slot := some slot } :=
  ⟨congrArg (fun outline : Outline => { outline with slot := some (slot.name, slot.enclosure) })
      alike.outline,
    alike.start, alike.content, fun _ => rfl⟩

/-- Directives correspond when their open slots, which have one name, are closed. -/
theorem close (alike : Alike exact first second) {name : String} (text other : Text) :
    Alike exact { first with slot := none, filled := (name, text) :: first.filled }
      { second with slot := none, filled := (name, other) :: second.filled } :=
  ⟨congrArg (fun outline : Outline =>
      { outline with slot := none, filled := name :: outline.filled }) alike.outline,
    alike.start, alike.content, fun _ => rfl⟩

end Alike
end OpenDirective

namespace Reader

/-- How the open directives of two documents correspond, innermost first. Where `exact` holds, those
that are a question or a gap text or stand in one hold the same. -/
inductive FramesAlike (exact : Prop) : List OpenDirective → List OpenDirective → Prop
  | nil : FramesAlike exact [] []
  | cons {first second : OpenDirective} {outer outer' : List OpenDirective}
      (head : first.Alike (exact ∧ (first :: outer).any OpenDirective.isScanned = true) second)
      (tail : FramesAlike exact outer outer') :
      FramesAlike exact (first :: outer) (second :: outer')

namespace FramesAlike

variable {exact : Prop} {first second : OpenDirective} {outer outer' : List OpenDirective}

/-- What is done alike to the innermost directives keeps the correspondence. -/
theorem update {changed changed' : OpenDirective}
    (alike : FramesAlike exact (first :: outer) (second :: outer'))
    (descriptor : changed.descriptor = first.descriptor)
    (change : first.Alike (exact ∧ (first :: outer).any OpenDirective.isScanned = true) second →
      changed.Alike (exact ∧ (first :: outer).any OpenDirective.isScanned = true) changed') :
    FramesAlike exact (changed :: outer) (changed' :: outer') := by
  cases alike with
  | cons head tail =>
    have hscanned : (changed :: outer).any OpenDirective.isScanned =
        (first :: outer).any OpenDirective.isScanned := by
      simp only [List.any_cons, OpenDirective.isScanned, descriptor]
    refine .cons ?_ tail
    rw [hscanned]
    exact change head

/-- Directives in which choices or fields are looked for are at the same places in both documents. -/
theorem any_isScanned (alike : FramesAlike exact outer outer') :
    outer.any OpenDirective.isScanned = outer'.any OpenDirective.isScanned := by
  induction alike with
  | nil => rfl
  | cons head _ ih =>
    rw [List.any_cons, List.any_cons, ih, OpenDirective.isScanned, OpenDirective.isScanned,
      head.descriptor]

end FramesAlike

/-- How the readers of two documents correspond. -/
structure Alike (exact : Prop) (first second : Reader) : Prop where
  segments : first.segments.map Segment.layout = second.segments.map Segment.layout
  prose : first.prose = second.prose
  frames : FramesAlike exact first.frames second.frames
  hoisted : first.hoisted.map Directive.kind = second.hoisted.map Directive.kind
  built : first.built = second.built

namespace Alike

variable {exact : Prop} {first second : Reader} {frame : OpenDirective}
  {outer : List OpenDirective}

theorem initial : Alike exact Reader.initial Reader.initial := ⟨rfl, rfl, .nil, rfl, rfl⟩

/-- Outside all directives in one document is outside all in the other. -/
theorem outside (alike : Alike exact first second) (h : first.frames = []) :
    second.frames = [] := by
  have hframes := alike.frames
  rw [h] at hframes
  generalize second.frames = frames at hframes
  cases hframes
  rfl

/-- A directive that is open in one document corresponds to one that is open in the other. -/
theorem inside (alike : Alike exact first second) (h : first.frames = frame :: outer) :
    ∃ frame' outer', second.frames = frame' :: outer' ∧
      frame.Alike (exact ∧ (frame :: outer).any OpenDirective.isScanned = true) frame' ∧
      FramesAlike exact outer outer' := by
  have hframes := alike.frames
  rw [h] at hframes
  generalize second.frames = frames at hframes
  cases hframes with
  | cons head tail => exact ⟨_, _, rfl, head, tail⟩

theorem exists_head {frame' : OpenDirective} (alike : Alike exact first second)
    (h : frame' ∈ second.frames.head?) :
    ∃ frame ∈ first.frames.head?, frame.outline = frame'.outline := by
  have hframes := alike.frames
  generalize first.frames = frames at hframes ⊢
  generalize second.frames = frames' at hframes h
  cases hframes with
  | nil => exact nomatch h
  | cons head tail =>
    obtain rfl := Option.some.inj h
    exact ⟨_, rfl, head.outline⟩

/-- The open directives may be changed alike. -/
theorem reframe (alike : Alike exact first second) {frames frames' : List OpenDirective}
    (changed : FramesAlike exact frames frames') :
    Alike exact { first with frames := frames } { second with frames := frames' } :=
  ⟨alike.segments, alike.prose, changed, alike.hoisted, alike.built⟩

/-- Directives of one kind are placed alike. Where contents are followed, notes that are nested must
leave the same text. -/
theorem place {outer' : List OpenDirective} (alike : Alike exact first second)
    (frames : FramesAlike exact outer outer') (span : Span) {directive directive' : Directive}
    (kind : directive.kind = directive'.kind)
    (same : exact → outer.any OpenDirective.isScanned = true → directive.kind = .note →
      directive = directive') :
    Alike exact (first.place span directive outer) (second.place span directive' outer') := by
  cases frames with
  | nil =>
    refine ⟨?_, rfl, .nil, rfl, congrArg (· + 1) alike.built⟩
    have hhoisted : first.hoisted.map (fun hoisted => (span, some hoisted.kind)) =
        second.hoisted.map fun hoisted => (span, some hoisted.kind) := by
      have hpaired := congrArg (List.map fun kind => (span, some kind)) alike.hoisted
      rwa [List.map_map, List.map_map] at hpaired
    rw [map_segments_place, map_segments_place, alike.prose, alike.segments]
    simp only [Segment.layout, hhoisted, kind]
  | @cons parent parent' outer outer' head tail =>
    by_cases hnote : directive.kind = .note
    · obtain ⟨content, rfl⟩ := Directive.exists_of_kind_eq_note hnote
      obtain ⟨content', rfl⟩ := Directive.exists_of_kind_eq_note (kind.symm.trans hnote)
      have hparent := (FramesAlike.cons head tail).update (parent.add_descriptor (.nested content))
        fun head => head.add fun h => congrArg _ (Directive.note.inj (same h.1 h.2 hnote))
      exact ⟨alike.segments, alike.prose, hparent, alike.hoisted, congrArg (· + 1) alike.built⟩
    · rw [place_of_kind first span hnote, place_of_kind second span (kind ▸ hnote)]
      refine ⟨alike.segments, alike.prose, .cons head tail, ?_, congrArg (· + 1) alike.built⟩
      rw [List.map_cons, List.map_cons, kind, alike.hoisted]

end Alike
end Reader

/-! ## Steps -/

/-- Whether a directive leaves no literal where choices or fields are looked for: a note inside a
question or a gap text leaves its text there, so it must hold no literal itself. -/
def Closing.Shielded (extraction : Extraction) (closing : Closing) : Prop :=
  closing.frame.descriptor.kind = .note → closing.outer.any OpenDirective.isScanned = true →
    extraction.sentinels.opening ∉ Fragment.join closing.frame.content

theorem OpenDirective.node_build_of_build {frame : OpenDirective} {extraction : Extraction}
    {seed : String} {directive : Directive} (h : frame.build extraction seed = .ok directive) :
    frame.node.build extraction seed = .ok directive := by
  unfold build at h
  split at h
  · exact nomatch h
  · exact h

/-- Open directives that correspond become directives of one kind. -/
theorem OpenDirective.Alike.kind_of_build {exact : Prop} {frame frame' : OpenDirective}
    {extraction extraction' : Extraction} {seed seed' : String} {directive directive' : Directive}
    (alike : frame.Alike exact frame') (built : frame.build extraction seed = .ok directive)
    (built' : frame'.build extraction' seed' = .ok directive') :
    directive.kind = directive'.kind := by
  rw [(DirectiveNode.spec_of_build (node_build_of_build built)).1,
    (DirectiveNode.spec_of_build (node_build_of_build built')).1]
  exact congrArg Descriptor.kind alike.descriptor

/-- What a note without literals becomes is decided by its content. -/
theorem DirectiveNode.eq_of_build_note {node node' : DirectiveNode}
    {extraction extraction' : Extraction} {seed seed' : String} {directive directive' : Directive}
    (note : node.kind = .note) (note' : node'.kind = .note) (same : node.content = node'.content)
    (h : extraction.sentinels.opening ∉ node.content)
    (h' : extraction'.sentinels.opening ∉ node'.content)
    (built : node.build extraction seed = .ok directive)
    (built' : node'.build extraction' seed' = .ok directive') : directive = directive' := by
  rw [build, note] at built
  rw [build, note', required, markdown, Extraction.restore_of_notMem h', ← same] at built'
  rw [required, markdown, Extraction.restore_of_notMem h] at built
  cases htext : Text.trim (Text.dedent node.content) with
  | nil =>
    rw [htext] at built
    cases built
  | cons first rest =>
    rw [htext] at built built'
    exact Except.ok.inj (built.symm.trans built')

namespace Reader.Alike

variable {exact : Prop} {document : String} {context : Context} {registry : Registry}
  {extraction extraction' : Extraction} {first second next next' : Reader} {lexeme : Lexeme}

/-- Readers that correspond do so after a step, provided that, where contents are followed, what is
closed is shielded in both documents. -/
theorem step (alike : Alike exact first second)
    (step : Step ⟨document, context, registry, extraction⟩ first lexeme next)
    (step' : Step ⟨document, context, registry, extraction'⟩ second lexeme next')
    (shielded : exact → ∀ closing ∈ first.closing? lexeme, closing.Shielded extraction)
    (shielded' : exact → ∀ closing ∈ second.closing? lexeme, closing.Shielded extraction') :
    Alike exact next next' := by
  cases step with
  | prose outside unnamed =>
    obtain rfl := step'.unique (.prose (alike.outside outside) unnamed)
    have hprose := congrArg (Fragment.source lexeme.start lexeme.text :: ·) alike.prose
    exact ⟨alike.segments, hprose, alike.frames, alike.hoisted, alike.built⟩
  | @directive descriptor named registered allowed noSlot =>
    have noSlot' : ∀ frame ∈ second.frames.head?, frame.opensSlot lexeme.name = false := by
      intro frame' hframe'
      obtain ⟨frame, hframe, houtline⟩ := alike.exists_head hframe'
      rw [OpenDirective.opensSlot_eq, ← houtline, ← OpenDirective.opensSlot_eq]
      exact noSlot frame hframe
    obtain rfl := step'.unique (.directive named registered allowed noSlot')
    exact alike.reframe (.cons ⟨rfl, rfl, fun _ => rfl, fun _ => rfl⟩ alike.frames)
  | @slot frame outer enclosure inside named opens unfilled =>
    obtain ⟨frame', outer', inside', head, tail⟩ := alike.inside inside
    have opens' : frame'.opensSlot lexeme.name = true := by
      rw [OpenDirective.opensSlot_eq, ← head.outline, ← OpenDirective.opensSlot_eq]
      exact opens
    have unfilled' : frame'.filled.lookup lexeme.name = none := by
      rw [OpenDirective.lookup_filled_eq_none_iff, ← head.outline,
        ← OpenDirective.lookup_filled_eq_none_iff]
      exact unfilled
    obtain rfl := step'.unique (.slot inside' named opens' unfilled')
    exact alike.reframe ((FramesAlike.cons head tail).update rfl fun head => head.fill _)
  | plain inside plain =>
    obtain ⟨frame', outer', inside', head, tail⟩ := alike.inside inside
    obtain rfl := step'.unique (.plain inside' plain)
    exact alike.reframe ((FramesAlike.cons head tail).update (by simp)
      fun head => head.add fun _ => rfl)
  | group inside grouped =>
    obtain ⟨frame', outer', inside', head, tail⟩ := alike.inside inside
    obtain rfl := step'.unique (.group inside' grouped)
    rw [head.groups]
    exact alike.reframe ((FramesAlike.cons head tail).update (by simp)
      fun head => (head.add fun _ => rfl).regroup _)
  | closeGroup inside closing grouped =>
    obtain ⟨frame', outer', inside', head, tail⟩ := alike.inside inside
    obtain rfl := step'.unique (.closeGroup inside' closing (head.groups ▸ grouped))
    exact alike.reframe ((FramesAlike.cons head tail).update (by simp)
      fun head => (head.regroup _).add fun _ => rfl)
  | @closeSlot frame outer slot inside closing ungrouped filling =>
    obtain ⟨frame', outer', inside', head, tail⟩ := alike.inside inside
    have hslot := head.openSlot.symm
    rw [filling, Option.map_some] at hslot
    obtain ⟨slot', filling', hsame⟩ := Option.map_eq_some_iff.mp hslot
    obtain ⟨hname, henclosure⟩ := Prod.mk.inj hsame
    obtain rfl := step'.unique
      (.closeSlot inside' (henclosure ▸ closing) (head.groups ▸ ungrouped) filling')
    rw [hname]
    exact alike.reframe ((FramesAlike.cons head tail).update rfl fun head => head.close _ _)
  | @closeDirective frame outer directive inside closing ungrouped unfilling built =>
    obtain ⟨frame', outer', inside', head, tail⟩ := alike.inside inside
    have unfilling' : frame'.slot = none := by
      have hslot := head.openSlot.symm
      rw [unfilling, Option.map_none] at hslot
      exact Option.map_eq_none_iff.mp hslot
    have closes := closing?_of_closing inside closing ungrouped unfilling
    have closes' := closing?_of_closing inside' closing (head.groups ▸ ungrouped) unfilling'
    obtain ⟨directive', built', rfl⟩ := step'.closes closes'
    rw [← head.start]
    refine alike.place tail _ (head.kind_of_build built built') ?_
    intro h scanned hnote
    have node := OpenDirective.node_build_of_build built
    have node' := OpenDirective.node_build_of_build built'
    have note : frame.node.kind = .note := (DirectiveNode.spec_of_build node).1.symm.trans hnote
    have hsame : frame.node.kind = frame'.node.kind := congrArg Descriptor.kind head.descriptor
    have hall : (frame :: outer).any OpenDirective.isScanned = true := by
      rw [List.any_cons, scanned, Bool.or_true]
    have hcontent := congrArg Fragment.join (head.content ⟨h, hall⟩)
    have scanned' : outer'.any OpenDirective.isScanned = true := by
      rw [← tail.any_isScanned]
      exact scanned
    exact DirectiveNode.eq_of_build_note note (hsame.symm.trans note) hcontent
      (shielded h _ closes note scanned) (shielded' h _ closes' (hsame.symm.trans note) scanned')
      node node'

end Reader.Alike
end Courseware
