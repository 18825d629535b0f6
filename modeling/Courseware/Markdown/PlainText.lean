import Courseware.Markdown.BlockReader
import Courseware.Markdown.InlineReader

/-!
# Plain text

The plain text of Markdown is what it says without what it looks like: the texts of its blocks, a line
or more each, without markers, HTML and definitions.
-/

namespace Courseware.Markdown

mutual

/-- The labels that a block defines. -/
def definedIn : Block → List Text
  | .definitions labels => labels
  | .nested _ children => definedInAll children
  | _ => []

/-- The labels that blocks define. -/
def definedInAll : List Block → List Text
  | [] => []
  | first :: rest => definedIn first ++ definedInAll rest

end

mutual

/-- The labels of the footnotes in a block. -/
def footnotesIn : Block → List Text
  | .nested (.footnote label) children => label :: footnotesInAll children
  | .nested _ children => footnotesInAll children
  | _ => []

/-- The labels of the footnotes in blocks. -/
def footnotesInAll : List Block → List Text
  | [] => []
  | first :: rest => footnotesIn first ++ footnotesInAll rest

end

mutual

/-- The plain text of a block. -/
def blockText (scope : InlineScope) : Block → Text
  | .paragraph standing passage => Inline.plainTextAll (Inline.ofParagraph scope standing passage)
  | .heading _ passage _ => Inline.plainTextAll (Inline.ofPassage scope none passage)
  | .code text => text
  | .table rows =>
    let cell := Inline.ofPassage { scope with inTable := true } none
    Text.joinLines (rows.map fun row =>
      Text.joinLines (row.map fun passage => Inline.plainTextAll (cell passage)))
  | .nested _ children => Text.joinLines (blockTexts scope children)
  | .thematicBreak _ | .html | .definitions _ => []

/-- The plain texts of blocks. -/
def blockTexts (scope : InlineScope) : List Block → List Text
  | [] => []
  | first :: rest => blockText scope first :: blockTexts scope rest

end

/-- The plain text of Markdown, without blanks at its ends. -/
def plainText (markdown : Text) : Text :=
  let blocks := Block.ofText markdown
  let scope := ⟨definedInAll blocks, footnotesInAll blocks, false⟩
  Text.trim (Text.joinLines (blockTexts scope blocks))

end Courseware.Markdown
