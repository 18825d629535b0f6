import Courseware.Markdown.Line

/-!
# Passages

The text of a leaf may take several lines, and before each of them there may be markers and indents of
the containers around the leaf. These are no part of the text, but they are not without effect either:
the marker of a quote is what stands before a word at the start of its line, and the names that a text
refers to are compared as they stand in the document. A passage is a text together with what stands
before its lines.
-/

namespace Courseware.Markdown

/-- What stands on a line before its text, and whether the text starts in a tab of which the containers
take a part. -/
structure LineStart where
  lead : Text
  isCut : Bool
deriving DecidableEq, Repr, Inhabited

/-- The column that is reached from a column on by characters of which every byte takes one. -/
def columnAfter (column : Nat) : Text → Nat
  | [] => column
  | '\t' :: rest => columnAfter (column + Cursor.tabWidth column) rest
  | letter :: rest => columnAfter (column + letter.utf8Size) rest

/-- A text, what stands before its first line and before each line after that, and the character that
follows the text on its last line. -/
structure Passage where
  start : LineStart
  text : Text
  later : List LineStart
  next : Option Char
deriving DecidableEq, Repr, Inhabited

/-- Where a paragraph stands: at the start of a list item, there but for definitions, or elsewhere. -/
inductive Standing
  | first
  | afterDefinitions
  | elsewhere
deriving DecidableEq, Repr

/-- Spaces and tabs. -/
def isSpace (letter : Char) : Bool := letter == ' ' || letter == '\t'

/-- Spaces, tabs and line ends. -/
def isSpaceOrEnd (letter : Char) : Bool := isSpace letter || isLineEnd letter

/-- The lines of a text, with their ends. What follows the last end is a line even if it is empty. -/
def linesOf : Text → List Text
  | [] => [[]]
  | '\r' :: '\n' :: rest => ['\r', '\n'] :: linesOf rest
  | letter :: rest =>
    if isLineEnd letter then [letter] :: linesOf rest
    else
      match linesOf rest with
      | [] => [[letter]]
      | first :: others => (letter :: first) :: others

theorem linesOf_ne_nil (text : Text) : linesOf text ≠ [] := by
  fun_cases linesOf text <;> simp

@[simp] theorem flatten_linesOf (text : Text) : (linesOf text).flatten = text := by
  fun_induction linesOf text with
  | case1 => rfl
  | case2 rest ih => simp [ih]
  | case3 letter rest _ _ ih => simp [ih]
  | case4 letter rest _ _ none _ => exact absurd none (linesOf_ne_nil rest)
  | case5 letter rest _ _ first others lines ih => simpa [lines] using ih

/-- The number of line ends in a text. -/
def endingsIn (text : Text) : Nat := (linesOf text).length - 1

/-- A text whose lines after the first are changed, each by what stands before it. -/
def mapLater (change : LineStart → Text → Text) (later : List LineStart) (text : Text) : Text :=
  match linesOf text with
  | [] => []
  | first :: others => first ++ (List.zipWith change later others).flatten

/-- A text as it stands in the document. -/
def withLeads : List LineStart → Text → Text := mapLater fun start line => start.lead ++ line

/-- A text without the tabs of which containers take a part. -/
def withoutCut : List LineStart → Text → Text :=
  mapLater fun start line => if start.isCut then line.drop 1 else line

/-- A text without the indents of its later lines. -/
def withoutIndents : List LineStart → Text → Text := mapLater fun _ line => line.dropWhile isSpace

namespace Passage

/-- The end of a passage whose text is `rest`. -/
def dropTo (passage : Passage) (rest : Text) : Passage :=
  match endingsIn (passage.text.take (passage.text.length - rest.length)) with
  | 0 => { passage with text := rest }
  | passed + 1 =>
    { passage with
      start := passage.later[passed]?.getD passage.start
      text := rest
      later := passage.later.drop (passed + 1) }

end Passage
end Courseware.Markdown
