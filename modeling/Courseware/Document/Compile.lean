import Courseware.Document.Sections
import Courseware.Document.Slides

/-!
# Compiling documents

A document is compiled by reading its directives, dividing its prose as a dialect of Markdown has it, and
gathering what it holds into the tree of its kind.
-/

namespace Courseware

namespace DocumentTree

/-- The tree of a document that has been parsed and of its events, of the kind that a context calls for. -/
def ofEvents (parsed : ParsedDocument) (context : Context) (events : List Event) :
    Except DocumentProblem DocumentTree :=
  let sectioned (make : SectionedDocument → DocumentTree) :=
    match SectionedDocument.ofEvents events with
    | .ok document => .ok (make document)
    | .error offset =>
      .error (.fault parsed.document (parsed.extraction.locate offset)
        (.notAllowed .presenterNote context))
  match context with
  | .page => sectioned page
  | .worksheet => sectioned worksheet
  | .slides => .ok (slideDeck (SlideDeck.ofEvents events))

/-- The tree of a document that has been parsed. -/
def ofParsed (dialect : Markdown.Dialect) (parsed : ParsedDocument) (context : Context) :
    Except DocumentProblem DocumentTree :=
  (Event.ofDocument dialect parsed).bind (ofEvents parsed context)

/-- Compile a document. -/
def compile (dialect : Markdown.Dialect) (document : String) (context : Context) (registry : Registry)
    (source : Text) : Except DocumentProblem DocumentTree := do
  let parsed ← ParsedDocument.ofSource document context source registry
  ofParsed dialect parsed context

end DocumentTree
end Courseware
