import Courseware.Text.Basic
import Courseware.Text.Span

/-!
# Dialects

A document is divided by nodes of Markdown, and what these are is for a dialect of Markdown to say. All that
is asked of a dialect is a reader that gives the nodes of a text which no other node encloses, or the reason
why it gives none.
-/

namespace Courseware.Markdown

/-- What a node is. The children of a heading come with their places, as far as these are known. -/
inductive NodeKind
  | heading (depth : Nat) (children : List (Option Span))
  | thematicBreak
  | other
deriving DecidableEq, Repr

/-- A node and its place in the text, if this is known. -/
structure Node where
  kind : NodeKind
  span : Option Span
deriving DecidableEq, Repr

/-- A reader of Markdown. -/
structure Dialect where
  nodes : Text → Except String (List Node)

end Courseware.Markdown
