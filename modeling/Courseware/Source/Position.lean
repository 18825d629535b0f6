import Courseware.Source.Extraction
import Courseware.Text.Span

/-!
# Positions

Reports name the place that the author wrote. `Extraction.sourceOffset` translates a byte offset in
the scrubbed text into a byte offset in the document: an offset inside a placeholder stands for the
start of its literal, and any other offset moves by the difference in width of the literals before
it and their placeholders.
-/

namespace Courseware

/-- A byte offset in a document and the line on which it lies. -/
structure Position where
  offset : Nat
  line : Nat
deriving DecidableEq, Repr

/-- A literal with its number and the ranges that it and its placeholder cover. -/
structure LiteralBlock where
  number : Nat
  literal : Literal
  span : Span
  placeholder : Span
deriving DecidableEq, Repr

namespace Piece

/-- Translate an offset into the scrubbed form of some pieces, the first of whose literals has the
number `next`, into an offset into their source. -/
def sourceOffset (sentinels : Sentinels) (next : Nat) : List Piece → Nat → Nat
  | [], offset => offset
  | letter c :: rest, offset =>
    if offset < c.utf8Size then offset
    else c.utf8Size + sourceOffset sentinels next rest (offset - c.utf8Size)
  | literal l :: rest, offset =>
    let width := Text.width (sentinels.placeholder next)
    if offset < width then 0
    else Text.width l.text + sourceOffset sentinels (next + 1) rest (offset - width)

/-- The blocks of some pieces, the first of whose literals has the number `next`, when the pieces
start at an offset in the document and at one in the scrubbed text. -/
def blocks (sentinels : Sentinels) (next inSource inScrubbed : Nat) :
    List Piece → List LiteralBlock
  | [] => []
  | letter c :: rest =>
    blocks sentinels next (inSource + c.utf8Size) (inScrubbed + c.utf8Size) rest
  | literal l :: rest =>
    let afterLiteral := inSource + Text.width l.text
    let afterPlaceholder := inScrubbed + Text.width (sentinels.placeholder next)
    ⟨next, l, ⟨inSource, afterLiteral⟩, ⟨inScrubbed, afterPlaceholder⟩⟩ ::
      blocks sentinels (next + 1) afterLiteral afterPlaceholder rest

end Piece

namespace Extraction

/-- Translate a byte offset in the scrubbed text into one in the document. -/
def sourceOffset (extraction : Extraction) (offset : Nat) : Nat :=
  Piece.sourceOffset extraction.sentinels 0 extraction.pieces offset

/-- The place in the document that an offset in the scrubbed text stands for. -/
def locate (extraction : Extraction) (offset : Nat) : Position :=
  let inSource := extraction.sourceOffset offset
  ⟨inSource, Text.lineAt extraction.source inSource⟩

/-- The literals of a document with their numbers and places. -/
def blocks (extraction : Extraction) : List LiteralBlock :=
  Piece.blocks extraction.sentinels 0 0 0 extraction.pieces

end Extraction
end Courseware
