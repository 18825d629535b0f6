import Courseware.Document.Event
import Courseware.Proofs.Document.Admission
import Courseware.Proofs.Markdown.Gfm
import Courseware.Proofs.Markup.Tiling

/-!
# Events leave nothing out

Events are made of stretches of the scrubbed text: prose, landmarks, and directives. The stretches of a segment of
prose go through it without gap or overlap, and none of them is cut inside a character. So the prose between
landmarks, however it is measured (from the start of the segment, or of what follows its first line), is all that
the landmarks leave. This is so in any dialect of Markdown whose nodes stand in order (`Markdown.Dialect.Orderly`).
Titles are slices between children of headings, so for them the children have to be in order as well.

Prose that does not start the document goes on behind a directive, and its landmarks are looked for after its first
line only. Since no directive overlaps prose (`Segment.Clear`), there is a line feed between any directive and any
landmark behind it that covers some text.

Nothing is said about what becomes of a stretch of prose in which there are only blanks: it has no event.
-/

namespace Courseware

/-! ## The first line of a text -/

namespace Event

end Event

/-! ## Stretches -/

/-- A part of a document that has events of its own, by its span in the scrubbed text. -/
inductive Stretch
  | prose (span : Span)
  | landmark (kind : Markdown.LandmarkKind) (span : Span)
  | directive (span : Span) (content : Directive)
deriving DecidableEq, Repr

namespace Stretch

/-- The part of the scrubbed text that a stretch is. -/
def span : Stretch → Span
  | prose span | landmark _ span | directive span _ => span

/-- The events of a stretch. -/
def events (extraction : Extraction) : Stretch → List Event
  | prose span => Event.ofProse extraction (Text.slice extraction.scrubbed span.start span.stop)
  | landmark kind _ => [Event.ofLandmark extraction kind]
  | directive span content => [.directive span.start content]

/-- The stretches from an offset to another that landmarks divide. -/
def between (stop : Nat) : Nat → List Markdown.Landmark → List Stretch
  | start, [] => [prose ⟨start, stop⟩]
  | start, first :: rest =>
    prose ⟨start, first.span.start⟩ :: landmark first.kind first.span :: between stop first.span.stop rest

/-- The stretches of prose whose opening is no place for landmarks. -/
def ofParts (start : Nat) (opening rest : Text) (landmarks : List Markdown.Landmark) : List Stretch :=
  let behind := start + Text.width opening
  prose ⟨start, behind⟩ ::
    between (behind + Text.width rest) behind (landmarks.map (Markdown.Landmark.shift behind))

/-- The stretches of a segment, in a dialect of Markdown that can read its prose. -/
def ofSegment (dialect : Markdown.Dialect) : Segment → Except DocumentProblem (List Stretch)
  | .directive span content => .ok [directive span content]
  | .prose start text =>
    ((dialect.landmarks (Event.partsOf start text).2).mapError .markdown).map
      (ofParts start (Event.partsOf start text).1 (Event.partsOf start text).2)

/-- The stretches of a document. -/
def ofDocument (dialect : Markdown.Dialect) (parsed : ParsedDocument) :
    Except DocumentProblem (List Stretch) :=
  (parsed.segments.mapM (ofSegment dialect)).map List.flatten

/-- Stretches that leave nothing out of a part of a text: they go from its start to its end, each from where the
one before it ends, and none is cut inside a character. -/
structure Keeps (whole : Text) (start : Nat) (text : Text) (stretches : List Stretch) : Prop where
  through : Span.Through start (stretches.map span) (start + Text.width text)
  boundary : ∀ stretch ∈ stretches, Text.isBoundary whole stretch.span.start = true ∧
    Text.isBoundary whole stretch.span.stop = true
  joined : stretches.flatMap (fun stretch => Text.slice whole stretch.span.start stretch.span.stop) = text

variable {whole before after text opening rest : Text} {start stop : Nat}
  {landmarks : List Markdown.Landmark} {extraction : Extraction} {dialect : Markdown.Dialect}
  {stretches : List Stretch}

section
variable (hwhole : whole = before ++ (opening ++ (rest ++ after)))
  (lie : Span.LieIn rest ⟨0, Text.width rest⟩ (landmarks.map Markdown.Landmark.span))
include hwhole lie

end

/-- The stretches of prose are made of its landmarks, if a dialect finds them. -/
theorem exists_landmarks_of_ofSegment (h : ofSegment dialect (.prose start text) = .ok stretches) :
    ∃ landmarks, dialect.landmarks (Event.partsOf start text).2 = .ok landmarks ∧
      stretches = ofParts start (Event.partsOf start text).1 (Event.partsOf start text).2 landmarks := by
  obtain ⟨landmarks, hread, rfl⟩ := exists_of_map_eq_ok h
  exact ⟨landmarks, ok_of_mapError_eq_ok hread, rfl⟩

section
variable (orderly : dialect.Orderly)
include orderly

end

/-- A landmark of prose lies in the prose, from character to character. Unless the prose starts the document there
is a line feed before the landmark, if it covers any text. -/
structure Marks (whole : Text) (start : Nat) (text : Text) (place : Span) : Prop where
  start_le : start ≤ place.start
  le : place.start ≤ place.stop
  le_stop : place.stop ≤ start + Text.width text
  uncut : Text.isBoundary whole place.start = true
  feed : start ≠ 0 → place.start < place.stop → '\n' ∈ Text.slice whole start place.start

section
variable (orderly : dialect.Orderly) (hwhole : whole = before ++ (text ++ after))
  {kind : Markdown.LandmarkKind} {place : Span}
  (made : ofSegment dialect (.prose (Text.width before) text) = .ok stretches)
  (h : landmark kind place ∈ stretches)
include orderly hwhole made h

end

end Stretch

/-! ## Prose and directives -/

/-- Segments of lexemes, where no directive overlaps prose, and directives stop where a lexeme does. -/
structure Segment.Clear (lexemes : List Lexeme) (segments : List Segment) : Prop where
  apart : ∀ start text span content, .prose start text ∈ segments → .directive span content ∈ segments →
    span.stop ≤ start ∨ start + Text.width text ≤ span.start
  whole : ∀ span content, .directive span content ∈ segments → span.start < span.stop ∧
    ∃ before after, lexemes = before ++ after ∧ span.stop = Text.width (Lexeme.join before)

theorem Segment.directive_notMem_ofProse (fragments : List Fragment) (span : Span) (content : Directive) :
    directive span content ∉ ofProse fragments := by
  unfold ofProse
  split
  · exact List.not_mem_nil
  · split <;> simp

theorem Segment.Clear.concat {lexemes : List Lexeme} {segments : List Segment} (clear : Clear lexemes segments)
    (lexeme : Lexeme) : Clear (lexemes ++ [lexeme]) segments where
  apart := clear.apart
  whole := by
    intro span content h
    obtain ⟨hlt, before, after, rfl, hstop⟩ := clear.whole span content h
    exact ⟨hlt, before, after ++ [lexeme], List.append_assoc _ _ _, hstop⟩

namespace Reader

variable {scope : ReaderScope} {reader next : Reader} {done settled run open_ lexemes : List Lexeme}

/-- Segments stand before the prose that is being gathered. -/
theorem Laid.stop_le (laid : Laid done reader settled run open_) {segment : Segment}
    (h : segment ∈ reader.segments) : segment.span.stop ≤ Text.width (Lexeme.join settled) :=
  (laid.tile.mem (Segment.mem_spans (List.mem_reverse.mpr h))).2.2

/-- Prose that has been gathered stands behind the settled segments. -/
theorem Laid.spec_of_mem_ofProse (laid : Laid done reader settled run open_) (adjoin : Lexeme.Adjoin 0 done)
    {segment : Segment} (h : segment ∈ Segment.ofProse reader.prose) :
    Text.width (Lexeme.join settled) ≤ segment.span.start ∧
      segment.span.stop ≤ Text.width (Lexeme.join (settled ++ run)) := by
  obtain ⟨hstart, _, hstop⟩ := (laid.tile_ofProse adjoin).1.mem
    (Segment.mem_spans (List.mem_reverse.mpr h))
  exact ⟨hstart, hstop⟩

/-- Prose that has been gathered is clear of the directives before it. -/
theorem Laid.clear_ofProse (laid : Laid done reader settled run open_) (adjoin : Lexeme.Adjoin 0 done)
    (clear : Segment.Clear done reader.segments) :
    Segment.Clear done (Segment.ofProse reader.prose ++ reader.segments) where
  apart := by
    intro start text span content hprose hdirective
    rcases List.mem_append.mp hdirective with hnone | hold
    · exact absurd hnone (Segment.directive_notMem_ofProse _ _ _)
    · rcases List.mem_append.mp hprose with hnew | hprose
      · have hstop := laid.stop_le hold
        have hstart := (laid.spec_of_mem_ofProse adjoin hnew).1
        exact .inl (Nat.le_trans hstop hstart)
      · exact clear.apart start text span content hprose hold
  whole := by
    intro span content hdirective
    rcases List.mem_append.mp hdirective with hnone | hold
    · exact absurd hnone (Segment.directive_notMem_ofProse _ _ _)
    · exact clear.whole span content hold

/-- A directive that is closed outside of all others is clear of the prose before it. -/
theorem Laid.clear_place {lexeme : Lexeme} (laid : Laid done reader settled run open_)
    (adjoin : Lexeme.Adjoin 0 (done ++ [lexeme])) {frame : OpenDirective} (inside : reader.frames = [frame])
    (directive : Directive) (clear : Segment.Clear done reader.segments) :
    Segment.Clear (done ++ [lexeme]) (reader.place ⟨frame.start, lexeme.stop⟩ directive []).segments := by
  obtain ⟨hbefore, _, hstop, _⟩ := adjoin.spec
  have gathered := (laid.clear_ofProse hbefore clear).concat lexeme
  have placed := laid.places adjoin inside directive
  have hedge : frame.start = Text.width (Lexeme.join (settled ++ run)) := by
    apply laid.edge
    rw [starts_of_inside inside]
    rfl
  have hmem : ∀ segment ∈ (reader.place ⟨frame.start, lexeme.stop⟩ directive []).segments,
      segment ∈ Segment.ofProse reader.prose ++ reader.segments ∨
        segment.span = ⟨frame.start, lexeme.stop⟩ ∧ segment.directive?.isSome := by
    intro segment h
    rw [← List.mem_reverse, reverse_segments_place, List.mem_append, ← List.reverse_append,
      List.mem_reverse] at h
    refine h.imp_right fun hplaced => ?_
    obtain ⟨content, _, rfl⟩ := List.mem_map.mp hplaced
    exact ⟨rfl, rfl⟩
  constructor
  case apart =>
    intro start text span content hprose hdirective
    obtain hprose | ⟨_, hnone⟩ := hmem _ hprose
    · obtain hold | ⟨rfl, _⟩ := hmem _ hdirective
      · exact gathered.apart start text span content hprose hold
      · right
        show start + Text.width text ≤ frame.start
        rw [hedge]
        rcases List.mem_append.mp hprose with hnew | hsettled
        · exact (laid.spec_of_mem_ofProse hbefore hnew).2
        · refine Nat.le_trans (laid.stop_le hsettled) ?_
          rw [Lexeme.join_append, Text.width_append]
          exact Nat.le_add_right _ _
    · exact absurd hnone (by simp [Segment.directive?])
  case whole =>
    intro span content hdirective
    obtain hold | ⟨rfl, _⟩ := hmem _ hdirective
    · exact gathered.whole span content hold
    · have hspan := placed.tile.mem (Segment.mem_spans (List.mem_reverse.mpr hdirective))
      exact ⟨hspan.2.1, _, [], (List.append_nil _).symm, hstop⟩

/-- Reading keeps directives clear of prose. -/
theorem Walk.clear (walk : Walk scope .initial lexemes next) (adjoin : Lexeme.Adjoin 0 lexemes) :
    Segment.Clear lexemes next.segments := by
  refine walk.invariant_of_adjoin (fun done reader => Segment.Clear done reader.segments) adjoin ?_ ?_
  · exact ⟨fun _ _ _ _ h => absurd h List.not_mem_nil, fun _ _ h => absurd h List.not_mem_nil⟩
  · rintro before middle lexeme after hadjoin hwalk clear step
    obtain ⟨settled, run, open_, laid⟩ := hwalk.laid hadjoin.spec.1
    cases step.effect with
    | prose outside unnamed => exact clear.concat lexeme
    | opens named registered allowed => exact clear.concat lexeme
    | rests inside same slot open_ => exact clear.concat lexeme
    | @closes frame outer directive inside closing closed built =>
      cases outer with
      | nil => exact laid.clear_place hadjoin inside directive clear
      | cons parent outer =>
        rw [(place_inner middle ⟨frame.start, lexeme.stop⟩ directive parent outer).1]
        exact clear.concat lexeme

end Reader

/-! ## Documents -/

/-- A directive with its offset, if an event is one. -/
def Event.directive? : Event → Option (Nat × Directive)
  | directive offset content => some (offset, content)
  | _ => none

namespace ParsedDocument

variable {document : String} {context : Context} {registry : Registry} {source : Text} {parsed : ParsedDocument}

end ParsedDocument
end Courseware
