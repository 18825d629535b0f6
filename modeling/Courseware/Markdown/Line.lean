import Courseware.Text.Basic

/-!
# Lines of Markdown

A line ends at a line feed, at a carriage return, or at the two together, and its end is kept. While the
markers of containers are taken from the start of a line, a cursor counts columns: a tab reaches to the
next column divisible by four, and may be taken in part.
-/

namespace Courseware.Markdown

/-- A line, by the byte offset at which it starts, the byte order mark before it if there is one, its
content and its end. -/
structure Line where
  start : Nat
  mark : Text
  content : Text
  ending : Text
deriving DecidableEq, Repr, Inhabited

/-- Whether a character ends a line. -/
def isLineEnd (letter : Char) : Bool := letter == '\n' || letter == '\r'

/-- The line end at the start of a text, and what follows it. -/
def splitEnding : Text → Text × Text
  | '\r' :: '\n' :: rest => (['\r', '\n'], rest)
  | '\r' :: rest => (['\r'], rest)
  | '\n' :: rest => (['\n'], rest)
  | rest => ([], rest)

namespace Line

/-- The byte offset at which the content of a line stops. -/
def stop (line : Line) : Nat := line.start + Text.width line.content

/-- The lines of a text that starts at a byte offset. A text that ends with a line end has no further
empty line. There are no more lines than characters. -/
def scan : Nat → Nat → Text → List Line
  | _, _, [] => []
  | 0, _, _ => []
  | steps + 1, start, text =>
    let content := text.takeWhile fun letter => !isLineEnd letter
    let (ending, rest) := splitEnding (text.drop content.length)
    ⟨start, [], content, ending⟩ ::
      scan steps (start + Text.width content + ending.length) rest

/-- The lines of a text. A byte order mark at the start belongs to the content of no line. -/
def ofText (text : Text) : List Line :=
  match text with
  | '\ufeff' :: rest =>
    match scan rest.length 3 rest with
    | [] => []
    | first :: others => { first with mark := ['\ufeff'] } :: others
  | _ => scan text.length 0 text

end Line

/-- A place in a line: the column, the columns that are taken of the tab with which `rest` begins, and
the characters that are not wholly taken. -/
structure Cursor where
  column : Nat
  taken : Nat
  rest : Text
deriving DecidableEq, Repr, Inhabited

namespace Cursor

/-- The start of the content of a line. Every byte before it takes a column. -/
def ofLine (line : Line) : Cursor := ⟨Text.width line.mark, 0, line.content⟩

/-- The distance from a column to the next one that a tab reaches. -/
def tabWidth (column : Nat) : Nat := 4 - column % 4

/-- The number of columns that spaces and tabs take from a column on. -/
def indentFrom (column : Nat) : Text → Nat
  | ' ' :: rest => 1 + indentFrom (column + 1) rest
  | '\t' :: rest => tabWidth column + indentFrom (column + tabWidth column) rest
  | _ => 0

/-- The number of columns by which what follows is indented. -/
def indent (cursor : Cursor) : Nat := indentFrom cursor.column cursor.rest

/-- Take up to `columns` columns of spaces and tabs, after `taken` columns of a first tab. -/
def skipFrom (column taken : Nat) : Text → Nat → Cursor
  | text, 0 => ⟨column, taken, text⟩
  | ' ' :: rest, columns + 1 => skipFrom (column + 1) 0 rest columns
  | '\t' :: rest, columns + 1 =>
    if tabWidth column ≤ columns + 1 then
      skipFrom (column + tabWidth column) 0 rest (columns + 1 - tabWidth column)
    else
      ⟨column + columns + 1, taken + columns + 1, '\t' :: rest⟩
  | text, _ => ⟨column, taken, text⟩

/-- Take up to `columns` columns of spaces and tabs. -/
def skip (cursor : Cursor) (columns : Nat) : Cursor :=
  skipFrom cursor.column cursor.taken cursor.rest columns

/-- Take all spaces and tabs. -/
def skipAll (cursor : Cursor) : Cursor := cursor.skip cursor.indent

/-- Take characters that are not blank. Every byte of them takes a column. -/
def advance (cursor : Cursor) (letters : Nat) : Cursor :=
  ⟨cursor.column + Text.width (cursor.rest.take letters), 0, cursor.rest.drop letters⟩

/-- Whether only spaces and tabs follow. -/
def isBlank (cursor : Cursor) : Bool :=
  cursor.rest.all fun letter => letter == ' ' || letter == '\t'

/-- What follows, without a tab of which a part is taken. -/
def text (cursor : Cursor) : Text := if cursor.taken = 0 then cursor.rest else cursor.rest.drop 1

/-- The length of what stands between two places. A tab counts one, like every byte; of a tab that is
taken in part the columns count, those left of four at the first place and those taken at the second. -/
def lengthTo (first second : Cursor) : Nat :=
  Text.width first.rest - Text.width second.rest +
    (if first.taken = 0 then 0 else 3 - first.taken) + second.taken

end Cursor
end Courseware.Markdown
