import Courseware.Decimal.Shortest
import Courseware.Json.Basic

/-!
# Writing JSON

`Json.pretty` writes a value over several lines, two spaces deeper for each level, with empty
containers on one line. `Json.compact` writes a value on one line. Both escape quotes, backslashes and
control characters below U+0020, and nothing else.
-/

namespace Courseware.Json

/-- A hexadecimal digit. -/
def hexDigit (value : Nat) : Char := Nat.digitChar value

/-- A character as it stands in a string. -/
def escape (letter : Char) : Text :=
  match letter with
  | '"' => ['\\', '"']
  | '\\' => ['\\', '\\']
  | '\n' => ['\\', 'n']
  | '\r' => ['\\', 'r']
  | '\t' => ['\\', 't']
  | '\x08' => ['\\', 'b']
  | '\x0c' => ['\\', 'f']
  | other =>
    if other.toNat < 0x20 then
      ['\\', 'u', '0', '0', hexDigit (other.toNat / 16), hexDigit (other.toNat % 16)]
    else
      [other]

/-- A string with its quotes. -/
def quote (value : String) : Text := '"' :: (value.toList.flatMap escape ++ ['"'])

/-- The text of an integer. -/
def ofInt (value : Int) : Text :=
  if value < 0 then '-' :: Text.ofNat value.natAbs else Text.ofNat value.natAbs

/-- The text of a value that is no container. -/
def scalar : Json → Text
  | bool true => ['t', 'r', 'u', 'e']
  | bool false => ['f', 'a', 'l', 's', 'e']
  | int value => ofInt value
  | float bits => (Decimal.ofFloatBits? bits.toNat).getD ['n', 'u', 'l', 'l']
  | string value => quote value
  | _ => ['n', 'u', 'l', 'l']

/-- A line end and the indent of a level. -/
def newline (level : Nat) : Text := '\n' :: List.replicate (2 * level) ' '

mutual

/-- A value over several lines, on a level. -/
def lay (level : Nat) : Json → Text
  | array [] => ['[', ']']
  | object [] => ['{', '}']
  | array (first :: rest) =>
    '[' :: newline (level + 1) ++ lay (level + 1) first ++ layItems (level + 1) rest ++
      newline level ++ [']']
  | object ((key, value) :: rest) =>
    '{' :: newline (level + 1) ++ quote key ++ ':' :: ' ' :: lay (level + 1) value ++
      layMembers (level + 1) rest ++ newline level ++ ['}']
  | json => scalar json

/-- The further items of an array. -/
def layItems (level : Nat) : List Json → Text
  | [] => []
  | item :: rest => ',' :: newline level ++ lay level item ++ layItems level rest

/-- The further members of an object. -/
def layMembers (level : Nat) : List (String × Json) → Text
  | [] => []
  | (key, value) :: rest =>
    ',' :: newline level ++ quote key ++ ':' :: ' ' :: lay level value ++ layMembers level rest

end

mutual

/-- A value on one line. -/
def compact : Json → Text
  | array [] => ['[', ']']
  | object [] => ['{', '}']
  | array (first :: rest) => '[' :: compact first ++ compactItems rest ++ [']']
  | object ((key, value) :: rest) =>
    '{' :: quote key ++ ':' :: compact value ++ compactMembers rest ++ ['}']
  | json => scalar json

/-- The further items of an array. -/
def compactItems : List Json → Text
  | [] => []
  | item :: rest => ',' :: compact item ++ compactItems rest

/-- The further members of an object. -/
def compactMembers : List (String × Json) → Text
  | [] => []
  | (key, value) :: rest => ',' :: quote key ++ ':' :: compact value ++ compactMembers rest

end

/-- A value over several lines, without a final line end. -/
def pretty (json : Json) : Text := lay 0 json

/-- A value as the content of a file: over several lines, the last of which ends too. -/
def file (json : Json) : Text := pretty json ++ ['\n']

end Courseware.Json
