import Courseware.Markdown.Container
import Courseware.Markdown.Leaf
import Courseware.Markdown.Table

/-!
# Reading blocks

A document is read line by line. A line first continues the containers that are open, then may open
others, and then belongs to the leaf that is open or begins another one. Text goes on even where a line
does not continue the containers around it, and such a line is lazy.
-/

namespace Courseware.Markdown

/-- What has been read of a document. Lists are kept latest first and open containers innermost first.
`interrupting` holds when a new block would interrupt a paragraph. `isAfterBar` holds when a line that
could not become the head of a table has ended with a bar: the next tag is then taken for a closing one,
and a bar at the start of the next such line counts as the end of a cell. -/
structure BlockReader where
  blocks : List Block
  frames : List OpenContainer
  leaf : Leaf
  interrupting : Bool
  isAfterBar : Bool
deriving Repr

namespace BlockReader

/-- Nothing has been read. -/
def initial : BlockReader := ⟨[], [], .none, false, false⟩

/-- Add a block to the innermost container. -/
def emit (reader : BlockReader) (block : Block) : BlockReader :=
  match reader.frames with
  | [] => { reader with blocks := block :: reader.blocks }
  | frame :: outer => { reader with frames := { frame with done := block :: frame.done } :: outer }

/-- Add a paragraph that starts on the line at a byte offset, unless it is empty. -/
def emitParagraph (reader : BlockReader) (start : Nat) (passage : Passage) : BlockReader :=
  let standing := (reader.frames.head?.map fun frame => frame.standing start).getD .elsewhere
  if passage.text.isEmpty then reader else reader.emit (.paragraph standing passage)

/-- Add definitions, if there are any. -/
def emitDefinitions (reader : BlockReader) (labels : List Text) : BlockReader :=
  if labels.isEmpty then reader else reader.emit (.definitions labels)

/-- Add an underline that had nothing to underline, as a paragraph. -/
def emitUnderline (reader : BlockReader) (underline : Option ContentLine) : BlockReader :=
  match underline with
  | some line => reader.emitParagraph line.start (Leaf.passage [line])
  | none => reader

/-- The labels that are defined at the start of lines of text, and the passage after them. -/
def divide (lines : List ContentLine) : List Text × Passage :=
  let passage := Leaf.passage lines
  Reference.definitions passage.text.length passage

/-- Add the blocks of lines of text: definitions, and a paragraph. An underline that had nothing to
underline begins the paragraph when that follows it at once. -/
def emitContent (reader : BlockReader) (underline : Option ContentLine)
    (lines : List ContentLine) : BlockReader :=
  let (labels, rest) := divide lines
  let apart := ((reader.emitUnderline underline).emitDefinitions labels).emitParagraph
    (Leaf.startOf lines rest) rest
  match underline, lines.getLast? with
  | some line, some first =>
    if labels.isEmpty && first.isBare then
      reader.emitParagraph line.start (Leaf.passage (lines ++ [line]))
    else apart
  | _, _ => apart

/-- Close the open leaf. -/
def closeLeaf (reader : BlockReader) : BlockReader :=
  let closed := { reader with leaf := .none }
  match reader.leaf with
  | .none => closed
  | .content underline lines => closed.emitContent underline lines
  | .fence _ _ _ lines => closed.emit (.code (Leaf.join lines))
  | .html _ => closed.emit .html
  | .indented lines _ => closed.emit (.code (Leaf.dropEnding (Leaf.join lines)))
  | .table rows => closed.emit (.table rows.reverse)

/-- Close a leaf that a lazy line does not continue. A fence without its end loses a last empty line. -/
def closeConcrete (reader : BlockReader) : BlockReader :=
  match reader.leaf with
  | .fence _ _ _ lines =>
    { reader with leaf := .none }.emit (.code (Leaf.dropEnding (Leaf.join lines)))
  | .html _ => reader.closeLeaf
  | _ => reader

/-- Close open containers until only the outermost `keep` are left. `frames` are the open containers,
innermost first. -/
def closeFrames (keep : Nat) (reader : BlockReader) : List OpenContainer → BlockReader
  | [] => { reader with frames := [] }
  | frame :: outer =>
    if outer.length < keep then
      { reader with frames := frame :: outer }
    else
      let block := Block.nested frame.container frame.done.reverse
      match outer with
      | [] => { reader with frames := [], blocks := block :: reader.blocks }
      | parent :: rest =>
        closeFrames keep reader ({ parent with done := block :: parent.done } :: rest)
termination_by frames => frames.length

/-- Close the open leaf and all but the outermost `keep` containers. -/
def settle (reader : BlockReader) (keep : Nat) : BlockReader :=
  let reader := reader.closeLeaf
  reader.closeFrames keep reader.frames

/-- Settle before a block that is not text. -/
def leave (reader : BlockReader) (keep : Nat) : BlockReader :=
  { reader.settle keep with interrupting := false }

/-- Continue containers, outermost first, at the start of a line: those that are continued, and the
place after what continues them. -/
def continueFrames (cursor : Cursor) :
    List OpenContainer → List OpenContainer × Cursor
  | [] => ([], cursor)
  | frame :: inner =>
    match frame.continue? cursor with
    | none => ([], cursor)
    | some (frame, cursor) =>
      let (frames, cursor) := continueFrames cursor inner
      (frame :: frames, cursor)

/-- Open containers at a place in a line where `continued` containers go on. A container takes a
character at least. -/
def openFrames (line : Line) : Nat → BlockReader → Nat → Cursor → BlockReader × Cursor × Bool
  | 0, reader, _, cursor => (reader, cursor, false)
  | steps + 1, reader, continued, cursor =>
    let isWhole := continued == reader.frames.length
    match OpenContainer.open? (isWhole && reader.interrupting) line cursor with
    | none => (reader, cursor, false)
    | some (frame, cursor) =>
      let settled := reader.settle continued
      let opened := { settled with
        frames := frame :: settled.frames
        interrupting := isWhole && reader.interrupting }
      let (reader, cursor, _) := openFrames line steps opened (continued + 1) cursor
      (reader, cursor, true)

/-- What stands on a line before a place. -/
def leadOf (line : Line) (cursor : Cursor) : Text :=
  line.mark ++ line.content.take (line.content.length - cursor.rest.length)

/-- A line of text from a place on. -/
def contentLine (line : Line) (cursor : Cursor) (isLazy : Bool) (cells : Option Nat) : ContentLine where
  start := line.start
  before := ⟨leadOf line cursor, cursor.taken != 0⟩
  isLazy := isLazy
  cells := cells
  text := cursor.rest
  ending := line.ending

/-- Give up the hope that the last line before the current one is the head of a table, which makes it
text. `isApart` holds where the current line is lazy or begins a container, `hasClosed` where containers
have been closed in front of it. -/
def giveUpHead (reader : BlockReader) (head? : Option ContentLine) (isApart hasClosed : Bool) :
    BlockReader :=
  match head? with
  | none => reader
  | some head =>
    { reader with
      interrupting := reader.interrupting || !hasClosed
      isAfterBar := (if hasClosed then head.isLazy else isApart) && Table.endsWithBar head.text }

/-- Take up an underline after lines of text. It makes a heading of what is left of them after
definitions, or of an underline that had nothing to underline. With nothing left it waits for what
follows. -/
def addUnderline (reader : BlockReader) (underline : Option ContentLine)
    (lines : List ContentLine) (marker : Char) (line : Line) (cursor : Cursor) : BlockReader :=
  let depth := if marker == '=' then 1 else 2
  let heading (reader : BlockReader) (start : Nat) (passage : Passage) : BlockReader :=
    { reader.emit (.heading depth passage ⟨start, line.stop⟩) with
      leaf := .content none [], interrupting := false }
  match underline, lines with
  | some first, [] => heading reader first.start (Leaf.passage [first])
  | _, _ =>
    let (labels, rest) := divide lines
    let reader := (reader.emitUnderline underline).emitDefinitions labels
    if rest.text.isEmpty then
      { reader with
        leaf := .content (some (contentLine line cursor false none)) [], interrupting := false }
    else
      heading reader (Leaf.startOf lines rest) rest

/-- Read the content of a line that begins no other block: a row of a table or a line of text. The line
is lazy when it does not continue all containers; as text it continues them all the same if the line
before was text. -/
def readText (reader : BlockReader) (keep : Nat) (line : Line) (cursor : Cursor) : BlockReader :=
  let isLazy := keep < reader.frames.length
  let cells := Table.cells (leadOf line cursor) cursor.rest
  let isLoneBar := cursor.rest.filter (fun letter => !isSpace letter) == ['|']
  let addLine (reader : BlockReader) (mayBeHead : Bool) : BlockReader :=
    let isAccepted := !isLazy || !line.ending.isEmpty || !cursor.isUnfinished reader.isAfterBar
    let isTried := mayBeHead && cursor.indent < 4
    let isAfterBar := reader.isAfterBar && !cursor.isTag
    let count := cells.length + (if isAfterBar && Table.startsWithBar cursor.rest then 1 else 0)
    let added := contentLine line cursor isLazy (if isTried && !isLoneBar then some count else none)
    let isAfterBar := isAfterBar && !isTried
    match reader.leaf, isAccepted with
    | .content underline lines, true =>
      { reader with
        leaf := .content underline (added :: lines), interrupting := true, isAfterBar := isAfterBar }
    | _, _ =>
      { reader.settle keep with
        leaf := .content none [added], interrupting := !isLazy, isAfterBar := isAfterBar }
  match reader.leaf with
  | .table rows =>
    if isLazy || cursor.isOutsideTables then addLine reader false
    else { reader with leaf := .table (cells :: rows), interrupting := false }
  | _ => addLine reader (!cursor.isOutsideTables)

/-- Read the content of a line outside of concrete leaves, after the markers of containers. -/
def readFlow (reader : BlockReader) (keep : Nat) (isPierced : Bool) (line : Line)
    (cursor : Cursor) : BlockReader :=
  let isLazy := keep < reader.frames.length
  let isWhole := !isLazy && !isPierced
  let text := (cursor.skip 4).text
  match reader.leaf, isWhole with
  | .indented lines blank, true =>
    if cursor.indent < 4 && cursor.isBlank then
      { reader with leaf := .indented lines (([], line.ending) :: blank) }
    else if 4 ≤ cursor.indent then
      { reader with leaf := .indented ((text, line.ending) :: (blank ++ lines)) [] }
    else
      begins reader
  | .content underline (head :: earlier), true =>
    if cursor.indent < 4 && head.cells.any (Table.isDelimiterRow · cursor.rest) then
      { reader.emitContent underline earlier with
        leaf := .table [Table.cells head.before.lead head.text], interrupting := false }
    else
      begins reader
  | _, _ => begins reader
where
  /-- Read a line that does not go on with what is open in a way of its own. -/
  begins (reader : BlockReader) : BlockReader :=
    let isLazy := keep < reader.frames.length
    if cursor.isBlank then
      reader.leave keep
    else if 4 ≤ cursor.indent then
      if reader.interrupting then reader.readText keep line cursor
      else
        let text := (cursor.skip 4).text
        if isLazy || isPierced then (reader.leave keep).emit (.code text)
        else { reader.leave keep with leaf := .indented [(text, line.ending)] [] }
    else
      match cursor.fence? with
      | some (marker, size) =>
        let indent := cursor.lengthTo cursor.skipAll
        { reader.leave keep with leaf := .fence marker size indent [] }
      | none =>
        let complete := !reader.interrupting || isLazy
        match HtmlBlock.begin? complete reader.isAfterBar cursor.skipAll.rest with
        | some (block, rest) =>
          let reader := { reader with isAfterBar := reader.isAfterBar && !cursor.isTag }
          if block.endsIn rest then (reader.leave keep).emit .html
          else { reader.leave keep with leaf := .html block }
        | none => orHeading reader
  /-- Read a heading, an underline or a thematic break, or else text. -/
  orHeading (reader : BlockReader) : BlockReader :=
    let isWhole := keep == reader.frames.length && !isPierced
    match Heading.read? line cursor with
    | some (depth, passage) =>
      (reader.leave keep).emit (.heading depth passage ⟨line.start, line.stop⟩)
    | none =>
      match reader.leaf, cursor.underline?, isWhole with
      | .content underline lines, some marker, true =>
        { reader with leaf := .none }.addUnderline underline lines marker line cursor
      | _, _, _ =>
        if cursor.isThematicBreak then
          (reader.leave keep).emit (.thematicBreak ⟨line.start, line.stop⟩)
        else
          reader.readText keep line cursor

/-- Read a line of a concrete leaf, all of whose containers go on. -/
def readConcrete (reader : BlockReader) (line : Line) (cursor : Cursor) : BlockReader :=
  match reader.leaf with
  | .fence marker size indent lines =>
    if cursor.closesFence marker size then { reader.closeLeaf with interrupting := false }
    else
      { reader with
        leaf := .fence marker size indent (((cursor.skip indent).text, line.ending) :: lines) }
  | .html .untilBlank => if cursor.isBlank then reader.closeLeaf else reader
  | .html block => if block.endsIn cursor.rest then reader.closeLeaf else reader
  | _ => reader

/-- Note for each open container that a quote is marked on a line. -/
def mark (start : Nat) (frames : List OpenContainer) : List OpenContainer :=
  frames.map fun frame => { frame with marked := frame.marked.or (some start) }

/-- Read a line. -/
def read (reader : BlockReader) (line : Line) : BlockReader :=
  let outermostFirst := reader.frames.reverse
  let (continued, cursor) := continueFrames (Cursor.ofLine line) outermostFirst
  let keep := continued.length
  let frames := (continued ++ outermostFirst.drop keep).reverse
  let isMarked := (leadOf line cursor).contains '>'
  let reader := { reader with frames := if isMarked then mark line.start frames else frames }
  if keep == reader.frames.length && reader.leaf.isConcrete then
    reader.readConcrete line cursor
  else
    let isLazy := keep < reader.frames.length
    let head? := reader.leaf.head?
    let (reader, cursor, isPierced) := reader.openFrames line line.content.length keep cursor
    let reader := reader.giveUpHead head? (isLazy || isPierced) (isLazy && isPierced)
    let keep := if isPierced then reader.frames.length else keep
    reader.closeConcrete.readFlow keep isPierced line cursor

end BlockReader

namespace Block

/-- The blocks of a document. -/
def ofText (text : Text) : List Block :=
  (((Line.ofText text).foldl BlockReader.read .initial).settle 0).blocks.reverse

end Block
end Courseware.Markdown
