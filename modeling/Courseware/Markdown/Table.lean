import Courseware.Markdown.Passage
import Courseware.Text.Blank

/-!
# Rows of tables

Bars divide a row into cells, and a row of hyphens divides the head of a table from its body. A cell is a
passage: what stands beside its text in the row is what its words have as neighbours.
-/

namespace Courseware.Markdown

namespace Table

/-- The parts of a row between its bars. A backslash hides a bar or a backslash. -/
def split : Text → List Text
  | [] => [[]]
  | '|' :: rest => [] :: split rest
  | '\\' :: next :: rest =>
    if next == '|' || next == '\\' then
      match split rest with
      | [] => [['\\', next]]
      | first :: others => ('\\' :: next :: first) :: others
    else
      match split (next :: rest) with
      | [] => [['\\']]
      | first :: others => ('\\' :: first) :: others
  | letter :: rest =>
    match split rest with
    | [] => [[letter]]
    | first :: others => (letter :: first) :: others

/-- The cell of a part of a row that stands between `lead` and the character `next`. -/
def cellOf (lead : Text) (next : Option Char) (part : Text) : Passage :=
  let indent := part.takeWhile isSpace
  let text := Text.dropTrailing isSpace (part.drop indent.length)
  let after := part.drop (indent.length + text.length)
  ⟨⟨lead ++ indent, false⟩, text, [], after.head?.or next⟩

/-- The cells of the parts of a row, of which the first stands after `lead`. -/
def cellsOf (lead : Text) : List Text → List Passage
  | [] => []
  | [part] => [cellOf lead none part]
  | part :: rest => cellOf lead (some '|') part :: cellsOf ['|'] rest

/-- The cells of a row that stands after `lead`. A blank part before the first bar or after the last one
is no cell. -/
def cells (lead row : Text) : List Passage :=
  let dropBlank (cells : List Passage) : List Passage :=
    match cells with
    | first :: second :: rest => if first.text.isEmpty then second :: rest else cells
    | _ => cells
  (dropBlank (dropBlank (cellsOf lead (split row))).reverse).reverse

/-- Whether a row begins with a bar. -/
def startsWithBar (row : Text) : Bool := (row.dropWhile isSpace).head? == some '|'

/-- Whether a row ends with a bar that no backslash hides. -/
def endsWithBar (row : Text) : Bool :=
  match (split row).reverse with
  | last :: _ :: _ => last.all isSpace
  | _ => false

/-- Whether a cell is one of a delimiter row: hyphens, with or without a colon at each end. -/
def isDelimiter (cell : Passage) : Bool :=
  let inner := if cell.text.head? == some ':' then cell.text.drop 1 else cell.text
  let inner := if inner.getLast? == some ':' then inner.dropLast else inner
  !inner.isEmpty && inner.all (· == '-')

/-- Whether a row delimits a head of so many cells from the body of a table: as many cells, each of
hyphens, and a bar or a colon somewhere. -/
def isDelimiterRow (size : Nat) (row : Text) : Bool :=
  let cells := cells [] row
  (row.contains '|' || row.contains ':') && cells.all isDelimiter && cells.length == size

end Table

end Courseware.Markdown
