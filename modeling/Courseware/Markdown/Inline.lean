import Courseware.Text.Basic

/-!
# Inline content

The text of a leaf block holds code, HTML, links, images and breaks among its words. Its plain text is
what it says without markers: an image is replaced by the text that stands for it, and HTML is left out.
-/

namespace Courseware.Markdown

/-- A part of inline content. Emphasis has left no trace in it. -/
inductive Inline
  | text (value : Text)
  | code (value : Text)
  | html (value : Text)
  | hardBreak
  | link (children : List Inline)
  | image (children : List Inline)
  | footnoteCall
deriving Repr, Inhabited

namespace Inline

mutual

/-- The text that stands for an image in which the content is. -/
def alternative : Inline → Text
  | text value | code value | html value => value
  | link children => alternativeAll children
  | image _ | hardBreak | footnoteCall => []

/-- The text that stands for an image with some content. -/
def alternativeAll : List Inline → Text
  | [] => []
  | first :: rest => alternative first ++ alternativeAll rest

end

mutual

/-- The plain text of inline content. -/
def plainText : Inline → Text
  | text value | code value => value
  | html _ | footnoteCall => []
  | hardBreak => ['\n']
  | link children => plainTextAll children
  | image children => alternativeAll children

/-- The plain text of a sequence of inline content. -/
def plainTextAll : List Inline → Text
  | [] => []
  | first :: rest => plainText first ++ plainTextAll rest

end

end Inline
end Courseware.Markdown
