import Courseware.Markdown.Dialect

/-!
# Landmarks

The landmarks of a text are its headings and thematic breaks that no other node encloses. They divide the
text into the parts that a document is made of. A node without a place is no landmark.
-/

namespace Courseware.Markdown

/-- What a landmark is. -/
inductive LandmarkKind
  | heading (depth : Nat) (title : Text)
  | thematicBreak
deriving DecidableEq, Repr

/-- A landmark and the span that it covers. -/
structure Landmark where
  kind : LandmarkKind
  span : Span
deriving DecidableEq, Repr

/-- The title of a heading is the text from its first child to its last. Where a place is missing it is
empty. -/
def titleIn (text : Text) (children : List (Option Span)) : Text :=
  match children.head?, children.getLast? with
  | some (some first), some (some last) => Text.slice text first.start last.stop
  | _, _ => []

/-- The landmark that a node of a text is. -/
def Landmark.ofNode? (text : Text) (node : Node) : Option Landmark := do
  let span ← node.span
  match node.kind with
  | .heading depth children => some ⟨.heading depth (titleIn text children), span⟩
  | .thematicBreak => some ⟨.thematicBreak, span⟩
  | .other => none

/-- The landmarks of a text, in the order in which a dialect gives its nodes. -/
def Dialect.landmarks (dialect : Dialect) (text : Text) : Except String (List Landmark) :=
  (dialect.nodes text).map fun nodes => nodes.filterMap (Landmark.ofNode? text)

end Courseware.Markdown
