import Courseware.Markdown.Html
import Courseware.Markdown.Passage

/-!
# Lines that are blocks or begin them

Thematic breaks, underlines, fences and headings are recognised by a single line, from the place on where
the markers of containers end. An indent of four columns or more hides them.
-/

namespace Courseware.Markdown

namespace Cursor

/-- The first character after an indent of less than four columns, and what follows it. -/
def unindented? (cursor : Cursor) : Option Text :=
  if cursor.indent < 4 then some cursor.skipAll.rest else none

/-- Whether a thematic break fills the line: three or more equal markers with blanks between. -/
def isThematicBreak (cursor : Cursor) : Bool :=
  match cursor.unindented? with
  | some (marker :: rest) =>
    (marker == '*' || marker == '-' || marker == '_') &&
      rest.all (fun letter => letter == marker || isSpace letter) &&
      2 ≤ rest.count marker
  | _ => false

/-- The marker of an underline that fills the line. -/
def underline? (cursor : Cursor) : Option Char :=
  match cursor.unindented? with
  | some (marker :: rest) =>
    if (marker == '=' || marker == '-') && (rest.dropWhile (· == marker)).all isSpace then
      some marker
    else
      none
  | _ => none

/-- The markers and the length of an opening fence. -/
def fence? (cursor : Cursor) : Option (Char × Nat) :=
  match cursor.unindented? with
  | some (marker :: rest) =>
    let (markers, info) := Text.splitWhile (· == marker) (marker :: rest)
    if (marker == '~' || (marker == '\x60' && !info.contains '\x60')) && 3 ≤ markers.length then
      some (marker, markers.length)
    else
      none
  | _ => none

/-- Whether a line closes a fence. -/
def closesFence (cursor : Cursor) (marker : Char) (size : Nat) : Bool :=
  match cursor.unindented? with
  | some text =>
    let (markers, rest) := Text.splitWhile (· == marker) text
    size ≤ markers.length && rest.all isSpace
  | none => false

/-- Whether the line begins with an HTML tag. -/
def isTag (cursor : Cursor) : Bool := cursor.unindented?.any HtmlBlock.isTag

/-- Whether a line that is text might begin another block if it went on. Where `closing` holds, tags are
taken for closing ones. -/
def isUnfinished (closing : Bool) (cursor : Cursor) : Bool :=
  match cursor.unindented? with
  | some (first :: rest) =>
    if first == '\x60' || first == '~' then rest.all (· == first)
    else if first == '*' || first == '-' || first == '_' then
      rest.all fun letter => letter == first || isSpace letter
    else HtmlBlock.isUnfinished closing (first :: rest)
  | _ => false

/-- Whether the first character of a line is one that begins blocks of its own. A line of text that
begins with it belongs to no table. -/
def isOutsideTables (cursor : Cursor) : Bool :=
  cursor.taken = 0 && cursor.rest.head?.any
    (['#', '$', '\x60', '~', '*', '_', 'e', 'i', '\x7b'].contains ·)

end Cursor

namespace Heading

/-- The end of a heading, reversed, without the words that are number signs only. -/
def dropClosing : Nat → Text → Text
  | 0, reversed => reversed
  | steps + 1, reversed =>
    let word := (reversed.dropWhile isSpace).takeWhile fun letter => !isSpace letter
    if !word.isEmpty && word.all (· == '#') then
      dropClosing steps ((reversed.dropWhile isSpace).drop word.length)
    else
      reversed.dropWhile isSpace

/-- The passage of a heading after its opening markers: from its first character that is neither blank
nor a number sign to the end of its last word that is not number signs only. -/
def passageOf (line : Line) (rest : Text) : Passage :=
  let text := rest.dropWhile fun letter => isSpace letter || letter == '#'
  let lead := line.content.take (line.content.length - text.length)
  ⟨⟨line.mark ++ lead, false⟩, (dropClosing text.length text.reverse).reverse, [], none⟩

/-- Read a heading that fills a line from a place on: its depth and its passage. -/
def read? (line : Line) (cursor : Cursor) : Option (Nat × Passage) := do
  let content ← cursor.unindented?
  let (markers, rest) := Text.splitWhile (· == '#') content
  let isSeparated := match rest with
    | [] => true
    | letter :: _ => isSpace letter
  if markers.isEmpty || 6 < markers.length || !isSeparated then none
  else some (markers.length, passageOf line rest)

end Heading

end Courseware.Markdown
