import Courseware.Markdown.Html
import Courseware.Markdown.Passage

/-!
# Leaves

While the lines of a document are read, one leaf is open: text, a fence, HTML, indented code or a table.
-/

namespace Courseware.Markdown

/-- A line of text: its start in the document, what stands before the text on it, whether it does not
continue all containers around it, and the number of its cells if it may be the head of a table. -/
structure ContentLine where
  start : Nat
  before : LineStart
  isLazy : Bool
  cells : Option Nat
  text : Text
  ending : Text
deriving DecidableEq, Repr, Inhabited

/-- Whether nothing of a container stands before the text of a line. -/
def ContentLine.isBare (line : ContentLine) : Bool := line.before.lead.isEmpty && !line.before.isCut

/-- The leaf that is open. Lines are kept latest first. -/
inductive Leaf
  | none
  /-- Lines of text, and before them an underline that had nothing to underline. Without either, the
  last line was an underline. -/
  | content (underline : Option ContentLine) (lines : List ContentLine)
  | fence (marker : Char) (size indent : Nat) (lines : List (Text × Text))
  | html (block : HtmlBlock)
  /-- Lines of code, and the blank lines after them, which belong to the code if more follows. -/
  | indented (lines blank : List (Text × Text))
  | table (rows : List (List Passage))
deriving Repr

namespace Leaf

/-- Whether no container can open inside the leaf. -/
def isConcrete : Leaf → Bool
  | fence .. | html _ => true
  | _ => false

/-- The last line, if the next one can make it the head of a table. -/
def head? : Leaf → Option ContentLine
  | content _ (line :: _) => if line.cells.isSome then some line else Option.none
  | _ => Option.none

/-- The text of lines that are kept latest first, without the end of the last. -/
def join (lines : List (Text × Text)) : Text :=
  match lines with
  | [] => []
  | (last, _) :: earlier =>
    (earlier.reverse.flatMap fun (text, ending) => text ++ ending) ++ last

/-- A text without the line end at its end. -/
def dropEnding (text : Text) : Text :=
  match text.reverse with
  | '\n' :: '\r' :: rest | '\n' :: rest | '\r' :: rest => rest.reverse
  | _ => text

/-- The passage of content lines that are kept latest first. -/
def passage (lines : List ContentLine) : Passage :=
  let starts := lines.reverse.map ContentLine.before
  ⟨starts.head?.getD ⟨[], false⟩, join (lines.map fun line => (line.text, line.ending)),
    starts.tail, Option.none⟩

/-- The byte offset at which the line starts that is the first of a passage, where the passage is what is
left of content lines. -/
def startOf (lines : List ContentLine) (rest : Passage) : Nat :=
  (lines[rest.later.length]?.map ContentLine.start).getD 0

end Leaf

end Courseware.Markdown
