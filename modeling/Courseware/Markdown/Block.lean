import Courseware.Markdown.Passage
import Courseware.Text.Span

/-!
# Blocks

A Markdown document is a sequence of blocks: leaves such as paragraphs, headings and code, and containers
that hold blocks themselves. The text of a leaf is kept as it is written, without the markers of the
containers around it; what stands inside a text is read later, when all definitions are known.
-/

namespace Courseware.Markdown

/-- What encloses other blocks. -/
inductive Container
  | quote
  | item
  | footnote (label : Text)
deriving DecidableEq, Repr

/-- A block. A heading and a thematic break know their place in the document. Of HTML nothing is kept. -/
inductive Block
  | paragraph (standing : Standing) (passage : Passage)
  | heading (depth : Nat) (passage : Passage) (span : Span)
  | thematicBreak (span : Span)
  | code (text : Text)
  | html
  | table (rows : List (List Passage))
  | definitions (labels : List Text)
  | nested (container : Container) (children : List Block)
deriving Repr, Inhabited

end Courseware.Markdown
