import Courseware.Markdown.Landmark
import Courseware.Markup.Segment

/-!
# Events

A parsed document is read as a sequence of events: headings and breaks, prose between them, and
directives. Which parts of the prose are headings and breaks is decided by its landmarks, for which a
dialect of Markdown is asked; text after a directive on the same line is prose whatever it looks like.
-/

namespace Courseware

/-- Something that a document holds. A directive comes with its offset in the scrubbed text. -/
inductive Event
  | heading (depth : Nat) (title : Text)
  | thematicBreak
  | prose (text : Text)
  | directive (offset : Nat) (directive : Directive)
deriving DecidableEq, Repr

namespace Event

/-- The event of a part of prose, which is none when only blanks are in it. -/
def ofProse (extraction : Extraction) (text : Text) : List Event :=
  match Text.trim (extraction.restore text) with
  | [] => []
  | written => [prose written]

/-- The event of a landmark. -/
def ofLandmark (extraction : Extraction) : Markdown.LandmarkKind → Event
  | .heading depth title => heading depth (Text.trim (extraction.restore title))
  | .thematicBreak => thematicBreak

/-- The events of a text from the byte offset `start` on, divided by landmarks. -/
def divide (extraction : Extraction) (text : Text) (start : Nat) :
    List Markdown.Landmark → List Event
  | [] => ofProse extraction (Text.dropBytes text start)
  | landmark :: rest =>
    ofProse extraction (Text.slice text start landmark.span.start) ++
      ofLandmark extraction landmark.kind :: divide extraction text landmark.span.stop rest

/-- The line at the start of a text with its line feed, and what follows. -/
def splitFirstLine (text : Text) : Text × Text :=
  match Text.splitWhile (· != '\n') text with
  | (line, feed :: rest) => (line ++ [feed], rest)
  | (line, []) => (line, [])

/-- The two parts of prose that starts at a byte offset of its document. There are no landmarks in the first,
which is what stands behind a directive on the same line. -/
def partsOf (start : Nat) (text : Text) : Text × Text :=
  if start = 0 then ([], text) else splitFirstLine text

/-- The events of prose from its two parts and the landmarks of the second. -/
def ofParts (extraction : Extraction) (opening rest : Text) (landmarks : List Markdown.Landmark) :
    List Event :=
  ofProse extraction opening ++ divide extraction rest 0 landmarks

/-- The events of a segment. -/
def ofSegment (dialect : Markdown.Dialect) (extraction : Extraction) :
    Segment → Except DocumentProblem (List Event)
  | .directive span content => .ok [directive span.start content]
  | .prose start text =>
    let (opening, rest) := partsOf start text
    ((dialect.landmarks rest).mapError .markdown).map (ofParts extraction opening rest)

/-- The events of a document. -/
def ofDocument (dialect : Markdown.Dialect) (parsed : ParsedDocument) :
    Except DocumentProblem (List Event) :=
  (parsed.segments.mapM (ofSegment dialect parsed.extraction)).map List.flatten

end Event
end Courseware
