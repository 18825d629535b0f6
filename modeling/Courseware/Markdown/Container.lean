import Courseware.Markdown.Block
import Courseware.Markdown.Opening
import Courseware.Markdown.Reference

/-!
# Containers

Quotes, list items and footnotes hold blocks. Each line that belongs to a container continues it at its
start: a quote by its marker, the others by their indent.
-/

namespace Courseware.Markdown

/-- A container that is open: the columns by which lines are indented in it, whether it is an item that
begins with a blank line, its blocks so far, latest first, and the start of the first line after its own
on which a quote around it is marked. -/
structure OpenContainer where
  container : Container
  width : Nat
  startsBlank : Bool
  done : List Block
  marked : Option Nat
deriving Repr

namespace OpenContainer

/-- A container that has just been opened. -/
def new (container : Container) (width : Nat) (startsBlank : Bool) : OpenContainer :=
  ⟨container, width, startsBlank, [], none⟩

/-- Where a paragraph stands that starts on the line at a byte offset. Definitions may be before it, and
lines on which no quote is marked. -/
def standing (frame : OpenContainer) (start : Nat) : Standing :=
  let isDefinition : Block → Bool
    | .definitions _ => true
    | _ => false
  if frame.container = .item && frame.done.all isDefinition && frame.marked.all (start < ·) then
    if frame.done.isEmpty then .first else .afterDefinitions
  else
    .elsewhere

/-- Read what continues an open container at the start of a line. -/
def continue? (frame : OpenContainer) (cursor : Cursor) : Option (OpenContainer × Cursor) :=
  match frame.container with
  | .quote =>
    match cursor.unindented? with
    | some ('>' :: _) => some (frame, (cursor.skipAll.advance 1).skip 1)
    | _ => none
  | _ =>
    if cursor.isBlank then
      if frame.startsBlank then none else some (frame, cursor.skip frame.width)
    else if frame.width ≤ cursor.indent then
      some ({ frame with startsBlank := false }, cursor.skip frame.width)
    else
      none

/-- Read what follows the marker of a list item, which starts with its indent at the place `start` and is
as wide as what it takes from there on. A blank item cannot interrupt; it is one wider, and takes the
first of two characters that end its line right after the marker. -/
def afterMarker? (interrupts : Bool) (line : Line) (start cursor : Cursor) :
    Option (OpenContainer × Cursor) :=
  if cursor.isBlank then
    let more := if cursor.rest.isEmpty then line.ending.length - 1 else 0
    if interrupts then none else some (new .item (start.lengthTo cursor + more + 1) true, cursor)
  else
    let indent := cursor.indent
    if indent = 0 then none
    else
      let cursor := cursor.skip (if indent ≤ 4 then indent else 1)
      some (new .item (start.lengthTo cursor) false, cursor)

/-- Read the label of a footnote after its opening bracket and caret: the label, and what follows its
closing bracket. -/
def readFootnoteLabel? : Text → Option (Text × Text)
  | [] => none
  | ']' :: rest => some ([], rest)
  | '\\' :: next :: rest =>
    if next == '[' || next == ']' || next == '\\' then
      (readFootnoteLabel? rest).map fun (label, after) => ('\\' :: next :: label, after)
    else
      (readFootnoteLabel? (next :: rest)).map fun (label, after) => ('\\' :: label, after)
  | letter :: rest =>
    if letter == '[' || isSpaceOrEnd letter then none
    else (readFootnoteLabel? rest).map fun (label, after) => (letter :: label, after)

/-- Read what opens a container. Where it would interrupt a paragraph, a numbered item must have the
number one. -/
def open? (interrupts : Bool) (line : Line) (cursor : Cursor) : Option (OpenContainer × Cursor) :=
  match cursor.unindented? with
  | some ('>' :: _) => some (new .quote 0 false, (cursor.skipAll.advance 1).skip 1)
  | some ('[' :: '^' :: rest) =>
    match readFootnoteLabel? rest with
    | some (label, ':' :: after) =>
      if label.isEmpty || 999 < Text.width label then none
      else
        let taken := rest.length - after.length + 2
        some (new (.footnote (Reference.normalize label)) 4 false,
          (cursor.skipAll.advance taken).skipAll)
    | _ => none
  | some (first :: rest) =>
    let start := cursor.skipAll
    if first == '+' || ((first == '*' || first == '-') && !cursor.isThematicBreak) then
      afterMarker? interrupts line cursor (start.advance 1)
    else
      let (digits, after) := Text.splitWhile Char.isDigit (first :: rest)
      let isMarked := after.head? == some '.' || after.head? == some ')'
      if !digits.isEmpty && digits.length < 10 && isMarked && (!interrupts || digits == ['1']) then
        afterMarker? interrupts line cursor (start.advance (digits.length + 1))
      else
        none
  | _ => none

end OpenContainer

end Courseware.Markdown
