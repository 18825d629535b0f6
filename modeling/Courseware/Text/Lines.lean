import Courseware.Text.Blank

/-!
# Lines

The lines of a text and the removal of their common indent. A line ends at a line feed, which
takes a carriage return before it along; a text that ends with a line feed has no further empty
line.
-/

namespace Courseware.Text

/-- A line without the carriage return that ends it. -/
def dropReturn (line : Text) : Text :=
  match line.getLast? with
  | some '\r' => line.dropLast
  | _ => line

/-- The lines of a text, without their ends. -/
def lines (text : Text) : List Text :=
  match text with
  | [] => []
  | letter :: rest =>
    match _left : (letter :: rest).dropWhile (· != '\n') with
    | [] => [letter :: rest]
    | _ :: after => dropReturn ((letter :: rest).takeWhile (· != '\n')) :: lines after
termination_by text.length
decreasing_by
  have := (List.dropWhile_sublist (· != '\n') (l := letter :: rest)).length_le
  rw [_left] at this
  simp only [List.length_cons] at this ⊢
  omega

/-- The number of spaces and tabs at the start of a line. -/
def indentOf (line : Text) : Nat := (line.takeWhile isIndent).length

/-- A line without its first `bytes` bytes, when these are there and end between two characters. -/
def dropExactly? : Nat → Text → Option Text
  | 0, line => some line
  | _, [] => none
  | bytes, letter :: rest =>
    if letter.utf8Size ≤ bytes then dropExactly? (bytes - letter.utf8Size) rest else none

/-- A line without an indent of `bytes` bytes. A line too short for it loses all its leading
blanks instead. -/
def unindent (bytes : Nat) (line : Text) : Text :=
  (dropExactly? bytes line).getD (trimStart line)

/-- The smallest indent of the lines that are not blank, 0 when there is none. -/
def commonIndent (lines : List Text) : Nat :=
  ((lines.filter fun line => !isAllBlank line).map indentOf).min?.getD 0

/-- The text without its leading blank lines and without the common indent of the others. -/
def dedent (text : Text) : Text :=
  let kept := (lines text).dropWhile isAllBlank
  join ['\n'] (kept.map (unindent (commonIndent kept)))

end Courseware.Text
