import Courseware.Markdown.Autolink
import Courseware.Markdown.Entity
import Courseware.Markdown.Html
import Courseware.Markdown.InlineItem
import Courseware.Markdown.Reference

/-!
# Reading inline content

A text is read once from its start to its end: labels that are open are kept, innermost first, with what
has been read before them, until a bracket makes a link or an image of them or leaves them as they are
written.
-/

namespace Courseware.Markdown

/-- What the inline content of a document refers to: the labels of its definitions and of its footnotes.
In a table a backslash before a bar is dropped from code. -/
structure InlineScope where
  definitions : List Text
  footnotes : List Text
  inTable : Bool

/-- What a label is for. -/
inductive LabelKind
  | link
  | image
  | footnote
deriving DecidableEq, Repr

/-- How a label is opened. -/
def LabelKind.opening : LabelKind → Text
  | link => ['[']
  | image => ['!', '[']
  | footnote => ['[', '^']

/-- A label that is open: the text after its opening, what stands before the later lines of that, and the
items before the label, latest first. An inactive label would hold a link inside a link. -/
structure OpenLabel where
  kind : LabelKind
  isActive : Bool
  inside : Text
  later : List LineStart
  before : List InlineItem

/-- What has been read of a text. Items are kept latest first and labels innermost first. `later` holds
what stands before the lines that are not begun; `previous` is the last character, and `neighbour` the
one that stands in the document before the next one; `isEscaped` tells whether a backslash stands before
the last character. -/
structure InlineReader where
  items : List InlineItem
  labels : List OpenLabel
  later : List LineStart
  previous : Option Char
  neighbour : Option Char
  isEscaped : Bool

namespace InlineReader

/-- Add an item and move on past a character. -/
def add (reader : InlineReader) (item : InlineItem) (last : Option Char) : InlineReader :=
  { reader with
    items := item.push reader.items, previous := last, neighbour := last, isEscaped := false }

/-- Add characters as they are written. -/
def addData (reader : InlineReader) (value : Text) : InlineReader :=
  reader.add (.data value) (value.getLast?.or reader.previous)

/-- Add inline content that ends with a character. -/
def addInline (reader : InlineReader) (inline : Inline) (last : Char) : InlineReader :=
  reader.add (.inline inline) (some last)

/-- Add a line end and begin the next line. -/
def addEnding (reader : InlineReader) (ending : Text) : InlineReader :=
  let start := reader.later.head?.getD ⟨[], false⟩
  { reader.add (.ending ending start.isCut) ending.getLast? with
    later := reader.later.drop 1
    neighbour := start.lead.getLast?.or ending.getLast? }

/-- Begin the lines that start in a text. -/
def beginLines (reader : InlineReader) (passed : Text) : InlineReader :=
  if reader.later.isEmpty then reader
  else { reader with later := reader.later.drop (endingsIn passed) }

/-! ### Code -/

/-- Code without one space at each end, when both are there and something else is between. -/
def stripCode (value : Text) : Text :=
  if 2 < value.length && value.head? == some ' ' && value.getLast? == some ' ' &&
      value.any (· != ' ') then
    (value.drop 1).dropLast
  else
    value

/-- Code of a table, without the backslashes before bars. -/
def unescapeBars : Text → Text
  | '\\' :: '|' :: rest => '|' :: unescapeBars rest
  | letter :: rest => letter :: unescapeBars rest
  | [] => []

/-- Read code after its opening backticks: the code, and what follows its closing ones. There are no
more steps than characters. -/
def readCode? (ticks : Nat) : Nat → Text → Option (Text × Text)
  | 0, _ => none
  | _, [] => none
  | steps + 1, text =>
    let (value, rest) := Text.splitWhile (· != '\x60') text
    let (closing, after) := Text.splitWhile (· == '\x60') rest
    if closing.isEmpty then none
    else if closing.length == ticks then some (value, after)
    else (readCode? ticks steps after).map fun (more, last) => (value ++ closing ++ more, last)

/-! ### Character references -/

/-- The character with a code, or a replacement for one that may not be written by its code. -/
def characterOf (code : Nat) : Char :=
  let isForbidden := code ≤ 8 || code == 0xB || (0xE ≤ code && code ≤ 0x1F) ||
    (0x7F ≤ code && code ≤ 0x9F) || (0xD800 ≤ code && code < 0xE000) || 0x10FFFF < code
  if isForbidden then '\ufffd' else Char.ofNat code

/-- Whether a character is a hexadecimal digit. -/
def isHexDigit (letter : Char) : Bool :=
  letter.isDigit || ('a' ≤ letter && letter ≤ 'f') || ('A' ≤ letter && letter ≤ 'F')

/-- Read digits and a semicolon: the digits, and what follows. -/
def readDigits? (isDigit : Char → Bool) (most : Nat) (text : Text) : Option (Text × Text) :=
  match Text.splitWhile isDigit text with
  | (digits, ';' :: rest) =>
    if digits.isEmpty || most < digits.length then none else some (digits, rest)
  | _ => none

/-- Read a character reference after its ampersand: what it stands for, and what follows. -/
def readReference? (text : Text) : Option (Text × Text) :=
  match text with
  | '#' :: rest =>
    match rest with
    | mark :: more =>
      if mark == 'x' || mark == 'X' then
        (readDigits? isHexDigit 6 more).map fun (digits, after) =>
          ([characterOf (Entity.ofHex (digits.map Char.toLower))], after)
      else
        (readDigits? Char.isDigit 7 rest).map fun (digits, after) =>
          ([characterOf (digits.foldl (fun code digit => 10 * code + (digit.toNat - 48)) 0)], after)
    | [] => none
  | _ => do
    let (name, rest) ← readDigits? Char.isAlphanum 31 text
    let value ← Entity.find? name
    some (value, rest)

/-! ### Labels -/

/-- Open a label. -/
def openLabel (reader : InlineReader) (kind : LabelKind) (rest : Text) : InlineReader :=
  { reader with
    items := []
    labels := ⟨kind, true, rest, reader.later, reader.items⟩ :: reader.labels
    previous := kind.opening.getLast?
    neighbour := kind.opening.getLast?
    isEscaped := false }

/-- Leave the innermost label as it is written. -/
def loosen (reader : InlineReader) : InlineReader :=
  match reader.labels with
  | [] => reader
  | label :: outer =>
    { reader with
      items := InlineItem.pushAll reader.items ((InlineItem.data label.kind.opening).push label.before)
      labels := outer }

/-- Leave all labels as they are written. -/
def loosenAll (reader : InlineReader) : Nat → InlineReader
  | 0 => reader
  | count + 1 => reader.loosen.loosenAll count

/-- Make a link or an image of the innermost label. Labels around a link can make no link any more. -/
def makeLink (reader : InlineReader) (label : OpenLabel) (outer : List OpenLabel) :
    InlineReader :=
  let items := match label.kind with
    | .footnote => InlineItem.pushAll reader.items [.data ['^']]
    | _ => reader.items
  let children := InlineItem.settle false false false items
  let inline := match label.kind with
    | .image => Inline.image children
    | _ => Inline.link children
  let outer := match label.kind with
    | .image => outer
    | _ => outer.map fun other =>
      if other.kind = .image then other else { other with isActive := false }
  { reader with items := .inline inline :: label.before, labels := outer, isEscaped := false }

/-- Move on past a bracket or parenthesis that ends a link. -/
def moveTo (reader : InlineReader) (last : Char) : InlineReader :=
  { reader with previous := some last, neighbour := some last }

/-- Read a closing bracket, where `rest` follows it: the reader after it, and what follows. -/
def closeLabel (scope : InlineScope) (reader : InlineReader) (rest : Text) :
    InlineReader × Text :=
  let bracket (reader : InlineReader) : InlineReader := reader.addData [']']
  match reader.labels with
  | [] => (bracket reader, rest)
  | label :: outer =>
    let loose := (bracket reader.loosen, rest)
    let made (after : Text) (last : Char) : InlineReader × Text :=
      (((reader.makeLink label outer).moveTo last).beginLines
        (rest.take (rest.length - after.length)), after)
    let written := label.inside.take (label.inside.length - rest.length - 1)
    let name := Reference.normalize (withLeads label.later written)
    if !label.isActive then
      loose
    else if label.kind = .footnote && scope.footnotes.contains name then
      let outer := outer.map fun other =>
        if other.kind = .image then other else { other with isActive := false }
      ({ reader.moveTo ']' with
          items := .inline .footnoteCall :: label.before, labels := outer, isEscaped := false }, rest)
    else
      let name := if label.kind = .footnote then '^' :: name else name
      let isDefined := scope.definitions.contains name
      match rest with
      | '(' :: inside =>
        match Reference.skipResource? inside with
        | some after => made after ')'
        | none => if isDefined then made rest ']' else loose
      | '[' :: inside =>
        match Reference.readLabel? inside with
        | some (full, after) =>
          if scope.definitions.contains (Reference.normalize (withLeads reader.later full)) then
            made after ']'
          else
            loose
        | none =>
          match inside with
          | ']' :: after => if isDefined then made after ']' else loose
          | _ => loose
      | _ => if isDefined then made rest ']' else loose

/-! ### Reading -/

/-- Whether a character may be more than text. -/
def isSpecial (letter : Char) : Bool :=
  ['!', '&', '<', '[', '\\', ']', '\x60', '*', '_', '~', 'h', 'H', 'w', 'W', '\n', '\r'].contains
    letter

/-- Read what begins with the character `first`: the reader after it, and what follows. In the document
the character `next` comes after the text. -/
def read (scope : InlineScope) (next : Option Char) (reader : InlineReader) (first : Char)
    (rest : Text) : InlineReader × Text :=
  let asWritten := (reader.addData [first], rest)
  match first with
  | '\n' | '\r' =>
    let (ending, after) := splitEnding (first :: rest)
    (reader.addEnding ending, after)
  | '\x60' =>
    let (ticks, inside) := Text.splitWhile (· == '\x60') (first :: rest)
    if reader.previous == some '\x60' && !reader.isEscaped then asWritten
    else
      match readCode? ticks.length inside.length inside with
      | some (value, after) =>
        let code := withoutCut reader.later value
        let code := if scope.inTable then unescapeBars code else code
        ((reader.addInline (.code (stripCode code)) '\x60').beginLines value, after)
      | none => asWritten
  | '&' =>
    match readReference? rest with
    | some (value, after) => (reader.addInline (.text value) ';', after)
    | none => asWritten
  | '*' | '_' | '~' =>
    let (more, after) := Text.splitWhile (· == first) rest
    let run := MarkerRun.between first (more.length + 1) reader.neighbour (after.head?.or next)
    (reader.add (.run run) (some first), after)
  | '<' =>
    match readAddress? rest with
    | some (address, after) => (reader.addInline (.link [.text address]) '>', after)
    | none =>
      match skipHtml? rest with
      | some after =>
        let html := first :: rest.take (rest.length - after.length)
        ((reader.addInline (.html (withoutIndents reader.later html)) '>').beginLines html, after)
      | none => asWritten
  | '[' =>
    match rest with
    | '^' :: after => (reader.openLabel .footnote after, after)
    | _ => (reader.openLabel .link rest, rest)
  | '!' =>
    match rest with
    | '[' :: '^' :: _ => asWritten
    | '[' :: after => (reader.openLabel .image after, after)
    | _ => asWritten
  | '\\' =>
    match rest with
    | letter :: after =>
      if Text.isAsciiPunctuation letter then
        ({ reader.addInline (.text [letter]) letter with isEscaped := true }, after)
      else if isLineEnd letter then (reader.addInline .hardBreak '\\', rest)
      else asWritten
    | [] => asWritten
  | ']' => reader.closeLabel scope rest
  | 'h' | 'H' | 'w' | 'W' =>
    match Autolink.read? reader.previous (first :: rest) with
    | some (address, after) =>
      (reader.addInline (.link [.text address]) (address.getLast?.getD first), after)
    | none => asWritten
  | _ =>
    let (more, after) := Text.splitWhile (fun letter => !isSpecial letter) rest
    (reader.addData (first :: more), after)

/-- Read a text to its end. Each step takes a character at least. -/
def readAll (scope : InlineScope) (next : Option Char) : Nat → InlineReader → Text → InlineReader
  | _, reader, [] => reader
  | 0, reader, _ => reader
  | steps + 1, reader, first :: rest =>
    let (reader, rest) := reader.read scope next first rest
    readAll scope next steps reader rest

end InlineReader

namespace Inline

/-- The inline content of a passage, or of the rest of one that stands after the character `previous`.
Blanks at the start of a passage are no part of it. -/
def ofPassage (scope : InlineScope) (previous : Option Char) (passage : Passage) : List Inline :=
  let neighbour := previous.or passage.start.lead.getLast?
  let reader := InlineReader.readAll scope passage.next passage.text.length
    ⟨[], [], passage.later, previous, neighbour, false⟩ passage.text
  InlineItem.settle true previous.isNone passage.start.isCut
    (reader.loosenAll reader.labels.length).items

/-- Read the check box of a task at the start of a text that begins in a column: what follows it. A tab in
it must take a single column. Something else must follow, on the same line after a blank or on the next
line. -/
def skipCheckBox? (column : Nat) (text : Text) : Option Text :=
  let isMark (mark : Char) : Bool :=
    mark == ' ' || mark == 'x' || mark == 'X' || isLineEnd mark ||
      (mark == '\t' && Cursor.tabWidth (column + 1) == 1)
  let inside := match text with
    | '[' :: '\r' :: '\n' :: rest => some rest
    | '[' :: mark :: rest => if isMark mark then some rest else none
    | _ => none
  match inside with
  | some (']' :: next :: rest) =>
    if isLineEnd next || (isSpace next && rest.any fun letter => !isSpace letter) then
      some (next :: rest)
    else
      none
  | _ => none

/-- Inline content without the blank or line end at its start. -/
def dropBlank : List Inline → List Inline
  | text (first :: value) :: rest =>
    if isSpace first then text value :: rest
    else if isLineEnd first then text (splitEnding (first :: value)).2 :: rest
    else text (first :: value) :: rest
  | content => content

/-- The inline content of a paragraph. A check box at the start of a list item is no part of it, and
neither is the blank after it if no definition stands before. -/
def ofParagraph (scope : InlineScope) (standing : Standing) (passage : Passage) : List Inline :=
  let column := columnAfter 0 passage.start.lead
  match if standing = .elsewhere then none else skipCheckBox? column passage.text with
  | some rest =>
    let content := ofPassage scope (some ']') (passage.dropTo rest)
    if standing = .first then dropBlank content else content
  | none => ofPassage scope none passage

end Inline
end Courseware.Markdown
