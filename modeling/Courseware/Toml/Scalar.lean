import Courseware.Text.Basic

/-!
# TOML scalars

The values that are neither arrays nor tables: strings in four notations, numbers, truth values, and
dates and times. Of floats and of dates only the notation is checked, since nothing here is given as one.
-/

namespace Courseware.Toml

/-- A value that holds no other value. -/
inductive Scalar
  | string (value : String)
  | integer (value : Int)
  | float (text : String)
  | bool (value : Bool)
  | dateTime (text : String)
deriving DecidableEq, Repr, Inhabited

/-- Spaces and tabs. -/
def isSpace (letter : Char) : Bool := letter == ' ' || letter == '\t'

/-- Whether a character may not stand in a string or a comment. -/
def isControl (letter : Char) : Bool :=
  (letter.toNat < 0x20 && letter != '\t') || letter.toNat == 0x7F

/-- What follows the line end at the start of a text. -/
def skipNewline? : Text → Option Text
  | '\n' :: rest => some rest
  | '\r' :: '\n' :: rest => some rest
  | _ => none

/-! ## Strings -/

/-- The value of a hexadecimal digit. -/
def hexValue? (digit : Char) : Option Nat :=
  if '0' ≤ digit && digit ≤ '9' then some (digit.toNat - '0'.toNat)
  else if 'a' ≤ digit && digit ≤ 'f' then some (digit.toNat - 'a'.toNat + 10)
  else if 'A' ≤ digit && digit ≤ 'F' then some (digit.toNat - 'A'.toNat + 10)
  else none

/-- The character whose code has `count` hexadecimal digits at the start of a text, and what follows. -/
def readCode? (count : Nat) (text : Text) : Option (Char × Text) := do
  let digits ← (text.take count).mapM hexValue?
  let code := digits.foldl (fun code digit => 16 * code + digit) 0
  if digits.length = count && (code < 0xD800 || (0xE000 ≤ code && code < 0x110000)) then
    some (Char.ofNat code, text.drop count)
  else
    none

/-- Read an escape after its backslash: the character it stands for, and what follows. -/
def readEscape? : Text → Option (Char × Text)
  | 'b' :: rest => some ('\x08', rest)
  | 't' :: rest => some ('\t', rest)
  | 'n' :: rest => some ('\n', rest)
  | 'f' :: rest => some ('\x0c', rest)
  | 'r' :: rest => some ('\r', rest)
  | 'e' :: rest => some ('\x1b', rest)
  | '"' :: rest => some ('"', rest)
  | '\\' :: rest => some ('\\', rest)
  | 'x' :: rest => readCode? 2 rest
  | 'u' :: rest => readCode? 4 rest
  | 'U' :: rest => readCode? 8 rest
  | _ => none

/-- Skip blanks and line ends, if there is a line end among them before anything else: what follows
them all. -/
def skipContinuation? (text : Text) : Option Text := do
  let rest ← skipNewline? (text.dropWhile isSpace)
  some (rest.dropWhile fun letter => isSpace letter || letter == '\n' || letter == '\r')

/-- Read a string on one line after its opening quote: its characters, and what follows its closing one.
Each step takes a character at least. -/
def readBasic? : Nat → Text → Option (Text × Text)
  | 0, _ => none
  | steps + 1, text =>
    match text with
    | [] => none
    | '"' :: rest => some ([], rest)
    | '\\' :: rest => do
      let (letter, rest) ← readEscape? rest
      let (value, after) ← readBasic? steps rest
      some (letter :: value, after)
    | letter :: rest =>
      if isControl letter then none
      else (readBasic? steps rest).map fun (value, after) => (letter :: value, after)

/-- Read a literal string on one line after its opening quote. -/
def readLiteral? : Text → Option (Text × Text)
  | [] => none
  | '\'' :: rest => some ([], rest)
  | letter :: rest =>
    if isControl letter then none
    else (readLiteral? rest).map fun (value, after) => (letter :: value, after)

/-- The quotes that end a string of several lines at the start of a text: up to two that belong to the
string, and what follows. -/
def closeLong? (quote : Char) (text : Text) : Option (Text × Text) :=
  let count := (text.takeWhile (· == quote)).length
  if count < 3 then none
  else
    let inside := min (count - 3) 2
    some (List.replicate inside quote, text.drop (inside + 3))

/-- Read a string of several lines after its opening quotes. -/
def readLongBasic? : Nat → Text → Option (Text × Text)
  | 0, _ => none
  | steps + 1, text =>
    match closeLong? '"' text with
    | some closed => some closed
    | none =>
      match text with
      | [] => none
      | '\\' :: rest =>
        match skipContinuation? rest with
        | some rest => readLongBasic? steps rest
        | none => do
          let (letter, rest) ← readEscape? rest
          let (value, after) ← readLongBasic? steps rest
          some (letter :: value, after)
      | '\r' :: '\n' :: rest =>
        (readLongBasic? steps rest).map fun (value, after) => ('\r' :: '\n' :: value, after)
      | letter :: rest =>
        if isControl letter && letter != '\n' then none
        else (readLongBasic? steps rest).map fun (value, after) => (letter :: value, after)

/-- Read a literal string of several lines after its opening quotes. -/
def readLongLiteral? : Nat → Text → Option (Text × Text)
  | 0, _ => none
  | steps + 1, text =>
    match closeLong? '\'' text with
    | some closed => some closed
    | none =>
      match text with
      | [] => none
      | '\r' :: '\n' :: rest =>
        (readLongLiteral? steps rest).map fun (value, after) => ('\r' :: '\n' :: value, after)
      | letter :: rest =>
        if isControl letter && letter != '\n' then none
        else (readLongLiteral? steps rest).map fun (value, after) => (letter :: value, after)

/-- What follows the line end right after the opening of a string of several lines. -/
def dropFirstNewline (text : Text) : Text := (skipNewline? text).getD text

/-- Read a string: its characters, and what follows. -/
def readString? (text : Text) : Option (Text × Text) :=
  match text with
  | '"' :: '"' :: '"' :: rest => readLongBasic? (rest.length + 1) (dropFirstNewline rest)
  | '"' :: rest => readBasic? (rest.length + 1) rest
  | '\'' :: '\'' :: '\'' :: rest => readLongLiteral? (rest.length + 1) (dropFirstNewline rest)
  | '\'' :: rest => readLiteral? rest
  | _ => none

/-! ## Numbers -/

/-- The digits of a number without the underscores between them. Each underscore stands between two
digits. -/
def digits? (isDigit : Char → Bool) : Text → Option Text
  | [] => none
  | [digit] => if isDigit digit then some [digit] else none
  | digit :: '_' :: rest =>
    if isDigit digit then (digits? isDigit rest).map (digit :: ·) else none
  | digit :: rest => if isDigit digit then (digits? isDigit rest).map (digit :: ·) else none

/-- The value of digits to a base. -/
def valueOf (base : Nat) (digits : Text) : Nat :=
  digits.foldl (fun value digit => base * value + (hexValue? digit).getD 0) 0

/-- The sign of a number, and what follows. -/
def splitSign : Text → Bool × Text
  | '-' :: rest => (true, rest)
  | '+' :: rest => (false, rest)
  | rest => (false, rest)

/-- The digits of a decimal number that has no superfluous zero in front. -/
def decimalDigits? (text : Text) : Option Text := do
  let digits ← digits? Char.isDigit text
  match digits with
  | '0' :: _ :: _ => none
  | _ => some digits

/-- The whole number that is written without a check of its size. -/
def wholeNumber? (text : Text) : Option Int :=
  match text with
  | '0' :: 'x' :: rest => (digits? (fun c => (hexValue? c).isSome) rest).map fun d => valueOf 16 d
  | '0' :: 'o' :: rest => (digits? (fun c => '0' ≤ c && c ≤ '7') rest).map fun d => valueOf 8 d
  | '0' :: 'b' :: rest => (digits? (fun c => c == '0' || c == '1') rest).map fun d => valueOf 2 d
  | _ => do
    let (negative, digits) := splitSign text
    let value := valueOf 10 (← decimalDigits? digits)
    some (if negative then -(value : Int) else value)

/-- The value of a whole number. It fits 128 bits, with a sign or without one. -/
def integer? (text : Text) : Option Int := do
  let value ← wholeNumber? text
  if -(Nat.pow 2 127 : Int) ≤ value && value < Nat.pow 2 128 then some value else none

/-- The value of an exponent after its mark. -/
def exponent? (text : Text) : Option Int := do
  let (negative, power) := splitSign text
  let value := valueOf 10 (← digits? Char.isDigit power)
  some (if negative then -(value : Int) else value)

/-- The digits of a float without its sign, and the power of ten by which they are multiplied. A float
has a fraction, an exponent or both. -/
def floatDigits? (text : Text) : Option (Text × Int) := do
  let (mantissa, exponent) := Text.splitWhile (fun c => c != 'e' && c != 'E') text
  let power ← match exponent with
    | [] => some 0
    | _ :: power => exponent? power
  match Text.splitWhile (· != '.') mantissa with
  | (whole, []) =>
    if exponent.isEmpty then none else (decimalDigits? whole).map fun digits => (digits, power)
  | (whole, _ :: fraction) => do
    let whole ← decimalDigits? whole
    let fraction ← digits? Char.isDigit fraction
    some (whole ++ fraction, power - fraction.length)

/-- The least magnitude that double precision rounds to infinity. -/
def infinity : Nat := Nat.pow 2 1024 - Nat.pow 2 970

/-- Whether digits times a power of ten round to a finite float. Powers beyond the number of digits, or
beyond those of the least infinite magnitude, decide nothing more. -/
def isFinite (digits : Text) : Int → Bool
  | .ofNat power => valueOf 10 digits * Nat.pow 10 (min power 310) < infinity
  | .negSucc power => valueOf 10 digits < infinity * Nat.pow 10 (min (power + 1) digits.length)

/-- Whether a text is a float that is finite, or one of the words for what is not. -/
def isFloat (text : Text) : Bool :=
  let (_, body) := splitSign text
  if body == ['i', 'n', 'f'] || body == ['n', 'a', 'n'] then true
  else (floatDigits? body).any fun (digits, power) => isFinite digits power

/-! ## Dates and times -/

/-- The number that `count` digits stand for at the start of a text, and what follows. -/
def number? (count : Nat) (text : Text) : Option (Nat × Text) :=
  let digits := text.take count
  if digits.length = count && digits.all Char.isDigit then
    some (valueOf 10 digits, text.drop count)
  else
    none

/-- What follows a character. -/
def skipLetter? (letter : Char) : Text → Option Text
  | first :: rest => if first == letter then some rest else none
  | [] => none

/-- The number of days of a month. -/
def daysOf (year month : Nat) : Nat :=
  if month == 2 then
    if year % 4 == 0 && (year % 100 != 0 || year % 400 == 0) then 29 else 28
  else if month == 4 || month == 6 || month == 9 || month == 11 then 30
  else 31

/-- What follows a date. -/
def skipDate? (text : Text) : Option Text := do
  let (year, rest) ← number? 4 text
  let (month, rest) ← number? 2 (← skipLetter? '-' rest)
  let (day, rest) ← number? 2 (← skipLetter? '-' rest)
  if 1 ≤ month && month ≤ 12 && 1 ≤ day && day ≤ daysOf year month then some rest else none

/-- What follows the seconds of a time, which may be left out. -/
def skipSeconds? (text : Text) : Option Text :=
  match text with
  | ':' :: rest => do
    let (second, rest) ← number? 2 rest
    if 60 < second then none
    else
      match rest with
      | '.' :: fraction =>
        let (digits, rest) := Text.splitWhile Char.isDigit fraction
        if digits.isEmpty then none else some rest
      | _ => some rest
  | _ => some text

/-- What follows a time. -/
def skipTime? (text : Text) : Option Text := do
  let (hour, rest) ← number? 2 text
  let (minute, rest) ← number? 2 (← skipLetter? ':' rest)
  if 23 < hour || 59 < minute then none else skipSeconds? rest

/-- Whether a text is nothing or an offset from universal time. -/
def isOffset (text : Text) : Bool :=
  match text with
  | [] => true
  | ['Z'] | ['z'] => true
  | sign :: rest =>
    (sign == '+' || sign == '-') &&
      match number? 2 rest with
      | some (hour, ':' :: rest) =>
        match number? 2 rest with
        | some (minute, []) => hour ≤ 23 && minute ≤ 59
        | _ => false
      | _ => false

/-- Whether a text is a date, a time, or a date with a time. -/
def isDateTime (text : Text) : Bool :=
  match skipDate? text with
  | some [] => true
  | some (mark :: rest) =>
    (mark == 'T' || mark == 't' || mark == ' ') &&
      match skipTime? rest with
      | some offset => isOffset offset
      | none => false
  | none => skipTime? text == some []

/-! ## Words -/

/-- The characters of which values without quotes consist. -/
def isWordLetter (letter : Char) : Bool :=
  letter.isAlphanum || letter == '_' || letter == '-' || letter == '+' || letter == '.' || letter == ':'

/-- The word at the start of a text, and what follows. A date takes a time after a space along. -/
def splitWord (text : Text) : Text × Text :=
  let (word, rest) := Text.splitWhile isWordLetter text
  match rest with
  | ' ' :: more =>
    let (time, after) := Text.splitWhile isWordLetter more
    if skipDate? word == some [] && (skipTime? time).isSome then (word ++ ' ' :: time, after)
    else (word, rest)
  | _ => (word, rest)

/-- The value that a word stands for. -/
def ofWord? (word : Text) : Option Scalar :=
  if word == ['t', 'r', 'u', 'e'] then some (.bool true)
  else if word == ['f', 'a', 'l', 's', 'e'] then some (.bool false)
  else
    match integer? word with
    | some value => some (.integer value)
    | none =>
      if isFloat word then some (.float (String.ofList word))
      else if isDateTime word then some (.dateTime (String.ofList word))
      else none

/-- Read a scalar: its value, and what follows. -/
def readScalar? (text : Text) : Option (Scalar × Text) :=
  match text with
  | '"' :: _ | '\'' :: _ =>
    (readString? text).map fun (value, rest) => (.string (String.ofList value), rest)
  | _ =>
    let (word, rest) := splitWord text
    (ofWord? word).map fun value => (value, rest)

end Courseware.Toml
