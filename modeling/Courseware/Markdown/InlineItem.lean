import Courseware.Markdown.Emphasis
import Courseware.Markdown.Inline
import Courseware.Markdown.Passage

/-!
# Inline items

While a text is read it is not yet known which markers have partners, and which blanks stand beside a line
end. Until then it is a sequence of items; `InlineItem.settle` makes inline content of them.
-/

namespace Courseware.Markdown

/-- What inline content is made of while runs of markers wait for their partners. Blanks at the end of a
line are kept in data until it is known what stands beside it. After a line end the next line may start
in a tab of which containers take a part. -/
inductive InlineItem
  | data (value : Text)
  | ending (value : Text) (isCut : Bool)
  | run (run : MarkerRun)
  | inline (inline : Inline)
deriving Repr, Inhabited

namespace InlineItem

/-- Add an item to items that are kept latest first. Data that meet are one. -/
def push (item : InlineItem) (items : List InlineItem) : List InlineItem :=
  match item, items with
  | data value, data before :: rest => data (before ++ value) :: rest
  | item, items => item :: items

/-- Add items that are kept latest first to others. -/
def pushAll (items onto : List InlineItem) : List InlineItem :=
  items.reverse.foldl (fun done item => push item done) onto

/-- Whether an item ends a line. -/
def isEnding : InlineItem → Bool
  | ending .. => true
  | _ => false

/-- What becomes of blanks at the end of a line: two or more spaces break the line. -/
def ofTrailing (isAtEnding : Bool) (blanks : Text) : List InlineItem :=
  if isAtEnding && 2 ≤ blanks.length && blanks.all (· == ' ') then [inline .hardBreak] else []

/-- Data at the start of a line without the blanks there. Where they begin with a tab of which a part is
taken, the last of them stays. -/
def dropLeading (isCut : Bool) (value : Text) : Text :=
  let core := value.dropWhile isSpace
  if isCut && !core.isEmpty then value.drop (value.length - core.length - 1) else core

/-- Take the blanks beside line ends from data. `startsLine` and `isCut` tell whether the items start a
line, and in a tab of which a part is taken; where `endsText` holds, their end is the end of the text. -/
def trim (endsText startsLine isCut : Bool) : List InlineItem → List InlineItem
  | [] => []
  | data value :: rest =>
    let isBeforeEnding := match rest with
      | [] => endsText
      | next :: _ => next.isEnding
    let core := if isBeforeEnding then Text.dropTrailing isSpace value else value
    let broken := if isBeforeEnding then ofTrailing (!rest.isEmpty) (value.drop core.length) else []
    let core := if startsLine then dropLeading isCut core else core
    (if core.isEmpty then [] else [data core]) ++ broken ++ trim endsText false false rest
  | ending value isCut :: rest => ending value isCut :: trim endsText true isCut rest
  | item :: rest => item :: trim endsText false false rest

/-- The runs among some items. -/
def runs : List InlineItem → List MarkerRun
  | [] => []
  | run first :: rest => first :: runs rest
  | _ :: rest => runs rest

/-- The items with the markers that each run keeps as data, where the first run has the number `next`.
A run that keeps none still stands between the items beside it. -/
def dissolve (leftover : Nat → Nat) (next : Nat) : List InlineItem → List InlineItem
  | [] => []
  | run first :: rest =>
    let kept := List.replicate (leftover next) first.marker
    (if kept.isEmpty then inline (.text []) else data kept) :: dissolve leftover (next + 1) rest
  | item :: rest => item :: dissolve leftover next rest

/-- Inline content of items without runs. A line end after a break belongs to the break. -/
def resolve : List InlineItem → List Inline
  | [] => []
  | data value :: rest | ending value _ :: rest => .text value :: resolve rest
  | run _ :: rest => resolve rest
  | inline .hardBreak :: ending .. :: rest => .hardBreak :: resolve rest
  | inline value :: rest => value :: resolve rest

/-- The inline content of items that are kept latest first, and that may start and end a text. -/
def settle (endsText startsText isCut : Bool) (items : List InlineItem) : List Inline :=
  let items := items.reverse
  let items := dissolve (MarkerRun.leftovers (runs items)) 0 items
  let merged := (items.foldl (fun done item => push item done) []).reverse
  resolve (trim endsText startsText isCut merged)

end InlineItem

end Courseware.Markdown
