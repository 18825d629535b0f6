import Courseware.Markdown.BlockReader
import Courseware.Markdown.Dialect
import Courseware.Text.Punctuation

/-!
# The dialect in use

Documents are written in the dialect of Markdown that `Block.ofText` reads. It reads every text. Of its
nodes only headings and thematic breaks have a place here, and what stands in a heading is one child.
-/

namespace Courseware.Markdown

/-- The title of a heading is its text as it is written. A backslash at its start that escapes is no
part of it. -/
def titleOf (text : Text) : Text :=
  match text.dropWhile isSpace with
  | '\\' :: next :: rest =>
    if Text.isAsciiPunctuation next then next :: rest else '\\' :: next :: rest
  | title => title

/-- The bytes that stand on a line before its text. A byte order mark is none of them. -/
def LineStart.width (start : LineStart) : Nat :=
  Text.width (start.lead.dropWhile (· == '\ufeff'))

/-- The place of the title of a heading that starts at a byte offset. -/
def titlePlace (start : Nat) (passage : Passage) : Span :=
  let title := titleOf passage.text
  let first := start + passage.start.width + (Text.width passage.text - Text.width title)
  ⟨first, first + Text.width title⟩

/-- The node that a block is. -/
def Node.ofBlock : Block → Node
  | .heading depth passage span =>
    let children := if (titleOf passage.text).isEmpty then [] else [some (titlePlace span.start passage)]
    ⟨.heading depth children, some span⟩
  | .thematicBreak span => ⟨.thematicBreak, some span⟩
  | _ => ⟨.other, none⟩

/-- The dialect in use. -/
def Dialect.gfm : Dialect where
  nodes text := .ok ((Block.ofText text).map Node.ofBlock)

end Courseware.Markdown
