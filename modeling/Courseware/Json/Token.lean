import Courseware.Decimal.Evaluate
import Courseware.Json.Basic

/-!
# JSON tokens

The text of a JSON value is a sequence of punctuation marks and of values that are no containers, with
blanks anywhere between them.
-/

namespace Courseware.Json

/-- A token of JSON text. -/
inductive Token
  | openArray
  | closeArray
  | openObject
  | closeObject
  | comma
  | colon
  | scalar (value : Json)
deriving Repr, Inhabited

namespace Token

/-- Spaces, tabs and line ends may stand between tokens. -/
def isBlank (letter : Char) : Bool :=
  letter == ' ' || letter == '\n' || letter == '\t' || letter == '\r'

/-- The value of a hexadecimal digit. -/
def hexValue? (digit : Char) : Option Nat :=
  if '0' ≤ digit && digit ≤ '9' then some (digit.toNat - '0'.toNat)
  else if 'a' ≤ digit && digit ≤ 'f' then some (digit.toNat - 'a'.toNat + 10)
  else if 'A' ≤ digit && digit ≤ 'F' then some (digit.toNat - 'A'.toNat + 10)
  else none

/-- The value of four hexadecimal digits. -/
def unit? (a b c d : Char) : Option Nat := do
  let a ← hexValue? a
  let b ← hexValue? b
  let c ← hexValue? c
  let d ← hexValue? d
  some (((a * 16 + b) * 16 + c) * 16 + d)

/-- The character that a letter after a backslash stands for. -/
def escaped? : Char → Option Char
  | '"' => some '"'
  | '\\' => some '\\'
  | '/' => some '/'
  | 'b' => some '\x08'
  | 'f' => some '\x0c'
  | 'n' => some '\n'
  | 'r' => some '\r'
  | 't' => some '\t'
  | _ => none

/-- Read a string after its opening quote: its characters, latest first, and what follows its closing
quote. A surrogate must be one of a pair. -/
def readString? (done : Text) : Text → Option (Text × Text)
  | [] => none
  | '"' :: rest => some (done, rest)
  | '\\' :: 'u' :: a :: b :: c :: d :: rest => do
    let unit ← unit? a b c d
    if unit < 0xD800 || 0xE000 ≤ unit then
      readString? (Char.ofNat unit :: done) rest
    else if unit < 0xDC00 then
      match rest with
      | '\\' :: 'u' :: e :: f :: g :: h :: rest =>
        let low ← unit? e f g h
        if 0xDC00 ≤ low && low < 0xE000 then
          readString? (Char.ofNat (0x10000 + (unit - 0xD800) * 0x400 + (low - 0xDC00)) :: done) rest
        else
          none
      | _ => none
    else
      none
  | '\\' :: letter :: rest => do
    let letter ← escaped? letter
    readString? (letter :: done) rest
  | letter :: rest => if letter.toNat < 0x20 then none else readString? (letter :: done) rest

/-- Read the digits of an exponent after its mark, and what follows. -/
def readExponent? (text : Text) : Option (Int × Text) :=
  let (negative, text) := match text with
    | '-' :: rest => (true, rest)
    | '+' :: rest => (false, rest)
    | _ => (false, text)
  let (digits, rest) := Text.splitWhile Char.isDigit text
  if digits.isEmpty then
    none
  else
    let value : Nat := digits.foldl (fun value digit => 10 * value + DigitRun.digitValue digit) 0
    some (if negative then -(value : Int) else value, rest)

/-- A whole number, or the nearest float when it does not fit 64 bits. A negative zero is a float. -/
def ofWhole? (negative : Bool) (digits : Text) : Option Json :=
  let value : Nat := digits.foldl (fun value digit => 10 * value + DigitRun.digitValue digit) 0
  if negative then
    if 0 < value && value ≤ Nat.pow 2 63 then some (.int (-(value : Int)))
    else (digits.foldl DigitRun.addWhole ⟨0, 0⟩).toFloat?.map fun float => .float (-float).toBits
  else
    if value < Nat.pow 2 64 then some (.int value)
    else (digits.foldl DigitRun.addWhole ⟨0, 0⟩).toFloat?.map fun float => .float float.toBits

/-- Read a number at the start of a text, and what follows it. -/
def readNumber? (text : Text) : Option (Json × Text) := do
  let (negative, text) := match text with
    | '-' :: rest => (true, rest)
    | _ => (false, text)
  let (digits, rest) := match text with
    | '0' :: rest => (['0'], rest)
    | _ => Text.splitWhile Char.isDigit text
  if digits.isEmpty then none else
  let fraction? := match rest with
    | '.' :: rest => some (Text.splitWhile Char.isDigit rest)
    | _ => none
  let (fraction, rest) ← match fraction? with
    | some ([], _) => none
    | some read => some read
    | none => some ([], rest)
  let exponent? := match rest with
    | 'e' :: rest | 'E' :: rest => some (readExponent? rest)
    | _ => none
  match exponent? with
  | none =>
    if fraction.isEmpty then
      let value ← ofWhole? negative digits
      some (value, rest)
    else
      let float ← ((digits.foldl DigitRun.addWhole ⟨0, 0⟩).addFraction fraction).toFloat?
      some (.float (if negative then -float else float).toBits, rest)
  | some none => none
  | some (some (exponent, rest)) =>
    let run := (digits.foldl DigitRun.addWhole ⟨0, 0⟩).addFraction fraction
    let float ← ({ run with exponent := run.exponent + exponent } : DigitRun).toFloat?
    some (.float (if negative then -float else float).toBits, rest)

/-- Read the token that begins with the character `first`, and what follows it. -/
def read? (first : Char) (rest : Text) : Option (Token × Text) :=
  match first with
  | '[' => some (openArray, rest)
  | ']' => some (closeArray, rest)
  | '{' => some (openObject, rest)
  | '}' => some (closeObject, rest)
  | ',' => some (comma, rest)
  | ':' => some (colon, rest)
  | '"' =>
    (readString? [] rest).map fun (latestFirst, rest) => (scalar (.text latestFirst.reverse), rest)
  | 'n' => if ['u', 'l', 'l'].isPrefixOf rest then some (scalar .null, rest.drop 3) else none
  | 't' =>
    if ['r', 'u', 'e'].isPrefixOf rest then some (scalar (.bool true), rest.drop 3) else none
  | 'f' =>
    if ['a', 'l', 's', 'e'].isPrefixOf rest then some (scalar (.bool false), rest.drop 4) else none
  | letter => (readNumber? (letter :: rest)).map fun (value, rest) => (scalar value, rest)

/-- The tokens of a text. Each token takes a character at least, so there are no more steps than
characters. -/
def scan? : Nat → Text → Option (List Token)
  | _, [] => some []
  | 0, _ => none
  | steps + 1, first :: rest =>
    if isBlank first then
      scan? steps rest
    else do
      let (token, rest) ← read? first rest
      let tokens ← scan? steps rest
      some (token :: tokens)

end Token
end Courseware.Json
