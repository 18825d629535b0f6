import Courseware.Markdown.Passage
import Courseware.Text.Blank
import Courseware.Text.Casing

/-!
# References

A link names its target in parentheses behind it, or by a label that a definition somewhere in the
document gives to a target. Targets themselves do not matter here: definitions are read for their
labels, and resources for where they end.
-/

namespace Courseware.Markdown

/-- What follows the spaces and tabs, and at most one line end among them, at the start of a text. -/
def skipToText (text : Text) : Text :=
  match splitEnding (text.dropWhile isSpace) with
  | ([], rest) => rest
  | (_, rest) => rest.dropWhile isSpace

namespace Reference

/-- Labels are compared in one casing, without blanks at the ends and with single spaces inside. -/
def normalize (label : Text) : Text :=
  let rec collapse : Text → Text
    | [] => []
    | [letter] => if isSpaceOrEnd letter then [' '] else [letter]
    | first :: second :: rest =>
      if isSpaceOrEnd first then
        if isSpaceOrEnd second then collapse (second :: rest) else ' ' :: collapse (second :: rest)
      else first :: collapse (second :: rest)
  let single := (collapse label).dropWhile (· == ' ')
  Text.foldCase (Text.dropTrailing (· == ' ') single)

/-- Read to the bracket that closes a label: the label, and what follows. Brackets inside must be
escaped. -/
def closeLabel? : Text → Option (Text × Text)
  | [] => none
  | ']' :: rest => some ([], rest)
  | '[' :: _ => none
  | '\\' :: next :: rest =>
    if next == '[' || next == ']' || next == '\\' then
      (closeLabel? rest).map fun (label, after) => ('\\' :: next :: label, after)
    else
      (closeLabel? (next :: rest)).map fun (label, after) => ('\\' :: label, after)
  | letter :: rest => (closeLabel? rest).map fun (label, after) => (letter :: label, after)

/-- The number of bytes of a label, without its line ends and the indents of its lines. -/
def labelSize (label : Text) : Nat :=
  let inner (line : Text) : Nat := Text.width (line.filter fun letter => !isLineEnd letter)
  match linesOf label with
  | [] => 0
  | first :: others =>
    others.foldl (fun size line => size + inner (line.dropWhile isSpace)) (inner first)

/-- Read a label after its opening bracket: the label, and what follows its closing one. A label is not
blank and has 999 bytes at most. -/
def readLabel? (text : Text) : Option (Text × Text) := do
  let (label, rest) ← closeLabel? text
  if label.all isSpaceOrEnd || 999 < labelSize label then none else some (label, rest)

/-- Read to the angle bracket that closes a target: what follows it. -/
def closeTarget? : Text → Option Text
  | [] => none
  | '>' :: rest => some rest
  | '\\' :: next :: rest =>
    if next == '<' || next == '>' || next == '\\' then closeTarget? rest
    else closeTarget? (next :: rest)
  | letter :: rest => if letter == '<' || isLineEnd letter then none else closeTarget? rest

/-- Whether a character is an ASCII control character that no target holds. The null character may stand
in a target. -/
def isControl (letter : Char) : Bool :=
  (0 < letter.toNat && letter.toNat < 0x20) || letter.toNat == 0x7F

/-- Read to the end of a target that is not enclosed, where `depth` parentheses are open and at most
`limit` may be: what follows it. -/
def skipBareTarget? (limit depth : Nat) : Text → Option Text
  | [] => if depth = 0 then some [] else none
  | '(' :: rest => if depth < limit then skipBareTarget? limit (depth + 1) rest else none
  | ')' :: rest => if depth = 0 then some (')' :: rest) else skipBareTarget? limit (depth - 1) rest
  | '\\' :: next :: rest =>
    if next == '(' || next == ')' || next == '\\' then skipBareTarget? limit depth rest
    else skipBareTarget? limit depth (next :: rest)
  | letter :: rest =>
    if isSpaceOrEnd letter then if depth = 0 then some (letter :: rest) else none
    else if isControl letter then none
    else skipBareTarget? limit depth rest

/-- Read a target: what follows it. -/
def skipTarget? (limit : Nat) (text : Text) : Option Text :=
  match text with
  | '<' :: rest => closeTarget? rest
  | [] => none
  | first :: _ =>
    if isSpaceOrEnd first || isControl first || first == ')' then none
    else skipBareTarget? limit 0 text

/-- Read to the character that closes a title: what follows it. -/
def closeTitle? (quote : Char) : Text → Option Text
  | [] => none
  | '\\' :: next :: rest =>
    if next == quote || next == '\\' then closeTitle? quote rest
    else closeTitle? quote (next :: rest)
  | letter :: rest => if letter == quote then some rest else closeTitle? quote rest

/-- Read a title: what follows it. -/
def skipTitle? : Text → Option Text
  | '"' :: rest => closeTitle? '"' rest
  | '\'' :: rest => closeTitle? '\'' rest
  | '(' :: rest => closeTitle? ')' rest
  | _ => none

/-- What follows a line of which only spaces and tabs are left. -/
def endLine? (text : Text) : Option Text :=
  match text.dropWhile isSpace with
  | [] => some []
  | letter :: rest => if isLineEnd letter then some (splitEnding (letter :: rest)).2 else none

/-- Read a title behind a target, up to the end of its line: what follows. -/
def endTitle? (text : Text) : Option Text := do
  let first ← text.head?
  if isSpaceOrEnd first then
    let rest ← skipTitle? (skipToText text)
    endLine? rest
  else
    none

/-- Read a definition at the start of a text: its label, and what follows its last line. -/
def readDefinition? (text : Text) : Option (Text × Text) :=
  match text.dropWhile isSpace with
  | '[' :: inside => do
    let (label, rest) ← readLabel? inside
    match rest with
    | ':' :: rest =>
      let rest ← skipTarget? (Text.width text) (skipToText rest)
      let after ← (endTitle? rest).or (endLine? rest)
      some (label, after)
    | _ => none
  | _ => none

/-- The labels that are defined at the start of a passage, and what follows the definitions. A definition
takes a character at least. -/
def definitions : Nat → Passage → List Text × Passage
  | 0, passage => ([], passage)
  | steps + 1, passage =>
    match readDefinition? passage.text with
    | some (label, rest) =>
      let (labels, after) := definitions steps (passage.dropTo rest)
      (normalize (withLeads passage.later label) :: labels, after)
    | none => ([], passage)

/-- Read a resource after its opening parenthesis: what follows its closing one. -/
def skipResource? (text : Text) : Option Text :=
  match skipToText text with
  | ')' :: rest => some rest
  | inside => do
    let rest ← skipTarget? 32 inside
    match rest with
    | ')' :: after => some after
    | first :: _ =>
      if isSpaceOrEnd first then
        match skipToText rest with
        | ')' :: after => some after
        | title => do
          let rest ← skipTitle? title
          match skipToText rest with
          | ')' :: after => some after
          | _ => none
      else
        none
    | [] => none

end Reference
end Courseware.Markdown
