import Courseware.Text.Basic

/-!
# Blank characters

A character is blank when Unicode gives it the property `White_Space`. Trimming removes blanks at
an end of a text. The control characters U+001C to U+001F are not blank.
-/

namespace Courseware.Text

/-- The characters with the property `White_Space`. -/
def isBlank (letter : Char) : Bool :=
  let code := letter.toNat
  (0x9 ≤ code && code ≤ 0xD) || code == 0x20 || code == 0x85 || code == 0xA0 || code == 0x1680 ||
    (0x2000 ≤ code && code ≤ 0x200A) || code == 0x2028 || code == 0x2029 || code == 0x202F ||
    code == 0x205F || code == 0x3000

/-- Spaces and tabs indent a line. -/
def isIndent (letter : Char) : Bool := letter == ' ' || letter == '\t'

/-- The text from its first character that is not blank. -/
def trimStart (text : Text) : Text := text.dropWhile isBlank

/-- The text up to its last character for which `drop` does not hold. -/
def dropTrailing (drop : Char → Bool) (text : Text) : Text :=
  (text.reverse.dropWhile drop).reverse

/-- The text up to its last character that is not blank. -/
def trimEnd (text : Text) : Text := dropTrailing isBlank text

/-- The text without the blanks at its two ends. -/
def trim (text : Text) : Text := trimEnd (trimStart text)

/-- Whether a text holds blanks only. -/
def isAllBlank (text : Text) : Bool := text.all isBlank

end Courseware.Text
