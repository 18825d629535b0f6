import Courseware.Toml.Table

/-!
# Reading TOML

A document is read line by line: keys with values, headers of tables, and comments. A value may take
several lines, inside strings, arrays and tables.
-/

namespace Courseware.Toml

/-- What follows a comment at the start of a text, from its line end on. -/
def skipComment? (text : Text) : Option Text :=
  match text with
  | '#' :: rest =>
    let (comment, after) := Text.splitWhile (fun letter => letter != '\n') rest
    let comment := if after.isEmpty || comment.getLast? != some '\r' then comment else comment.dropLast
    if comment.any isControl then none else some (rest.drop comment.length)
  | _ => some text

/-- What follows spaces, comments and line ends. There are no more lines than characters. -/
def skipLines? : Nat → Text → Option Text
  | 0, text => some text
  | steps + 1, text => do
    let rest ← skipComment? (text.dropWhile isSpace)
    match skipNewline? rest with
    | some rest => skipLines? steps rest
    | none => some rest

/-- What follows the end of a line on which nothing but a comment is left. -/
def endLine? (text : Text) : Option Text := do
  let rest ← skipComment? (text.dropWhile isSpace)
  if rest.isEmpty then some [] else skipNewline? rest

/-! ## Keys -/

/-- The characters of which keys without quotes consist. -/
def isKeyLetter (letter : Char) : Bool := letter.isAlphanum || letter == '_' || letter == '-'

/-- Read a key without dots: the key, and what follows. -/
def readKeyPart? (text : Text) : Option (String × Text) :=
  match text with
  | '"' :: rest =>
    (readBasic? (rest.length + 1) rest).map fun (key, rest) => (String.ofList key, rest)
  | '\'' :: rest => (readLiteral? rest).map fun (key, rest) => (String.ofList key, rest)
  | _ =>
    let (key, rest) := Text.splitWhile isKeyLetter text
    if key.isEmpty then none else some (String.ofList key, rest)

/-- The number of parts that a key may have, and of arrays and tables that may enclose each other. -/
def nestingLimit : Nat := 80

/-- Read a key of so many parts at most, with dots between them: its parts, and what follows it and the
blanks behind it. -/
def readParts? : Nat → Text → Option (List String × Text)
  | 0, _ => none
  | most + 1, text => do
    let (part, rest) ← readKeyPart? (text.dropWhile isSpace)
    match rest.dropWhile isSpace with
    | '.' :: rest => do
      let (parts, rest) ← readParts? most rest
      some (part :: parts, rest)
    | rest => some ([part], rest)

/-- Read a key. -/
def readKey? (text : Text) : Option (List String × Text) := readParts? nestingLimit text

/-! ## Values -/

mutual

/-- Read a value in which at most `room` arrays and tables enclose each other: the value, and what
follows. Each step takes a character at least. -/
def readValue? : Nat → Nat → Text → Option (Node × Text)
  | 0, _, _ => none
  | steps + 1, room, text =>
    match text with
    | '[' :: rest =>
      if room = 0 then none
      else do
        let (items, rest) ← readItems? steps (room - 1) (← skipLines? rest.length rest)
        some (.array items, rest)
    | '{' :: rest =>
      if room = 0 then none
      else do
        let (entries, rest) ← readEntries? steps (room - 1) [] (← skipLines? rest.length rest)
        some (.inlineTable entries, rest)
    | _ => (readScalar? text).map fun (value, rest) => (.scalar value, rest)

/-- Read the items of an array up to its closing bracket. -/
def readItems? : Nat → Nat → Text → Option (List Node × Text)
  | 0, _, _ => none
  | steps + 1, room, text =>
    match text with
    | ']' :: rest => some ([], rest)
    | _ => do
      let (item, rest) ← readValue? steps room text
      match ← skipLines? rest.length rest with
      | ',' :: rest => do
        let (items, rest) ← readItems? steps room (← skipLines? rest.length rest)
        some (item :: items, rest)
      | ']' :: rest => some ([item], rest)
      | _ => none

/-- Read the entries of a table up to its closing brace, after the entries that come before. -/
def readEntries? : Nat → Nat → Entries → Text → Option (Entries × Text)
  | 0, _, _, _ => none
  | steps + 1, room, entries, text =>
    match text with
    | '}' :: rest => some (entries, rest)
    | _ => do
      let (key, rest) ← readKey? text
      let rest ← skipLetter? '=' rest
      let (value, rest) ← readValue? steps room (rest.dropWhile isSpace)
      let entries ← entries.assign? value key
      match ← skipLines? rest.length rest with
      | ',' :: rest => readEntries? steps room entries (← skipLines? rest.length rest)
      | '}' :: rest => some (entries, rest)
      | _ => none

end

/-! ## Documents -/

/-- What has been read of a document: the table as a whole, and the path of the table to which keys
belong. -/
structure Draft where
  entries : Entries
  path : List String

namespace Draft

/-- Read a header after its opening brackets. -/
def readHeader? (draft : Draft) (isArray : Bool) (text : Text) : Option (Draft × Text) := do
  let (key, rest) ← readKey? text
  let rest ← skipLetter? ']' rest
  let rest ← if isArray then skipLetter? ']' rest else some rest
  let last ← key.getLast?
  let define := if isArray then Entries.addTable? last else Entries.openTable? last
  let entries ← draft.entries.within? define key.dropLast
  some (⟨entries, key⟩, rest)

/-- Read a statement: a header, or a key with its value. -/
def readStatement? (draft : Draft) (text : Text) : Option (Draft × Text) :=
  match text with
  | '[' :: '[' :: rest => draft.readHeader? true rest
  | '[' :: rest => draft.readHeader? false rest
  | _ => do
    let (key, rest) ← readKey? text
    let rest ← skipLetter? '=' rest
    let (value, rest) ← readValue? (text.length + 1) nestingLimit (rest.dropWhile isSpace)
    let entries ← draft.entries.within? (Entries.assign? value · key) draft.path
    some ({ draft with entries := entries }, rest)

/-- Read statements up to the end of a document. Each takes a character at least. -/
def readAll? : Nat → Draft → Text → Option Entries
  | 0, _, _ => none
  | steps + 1, draft, text => do
    match ← skipLines? text.length text with
    | [] => some draft.entries
    | text => do
      let (draft, rest) ← draft.readStatement? text
      readAll? steps draft (← endLine? rest)

end Draft

/-- The data of a document. A byte order mark at its start is skipped. -/
def parse? (text : Text) : Option Json :=
  let text := match text with
    | '\ufeff' :: rest => rest
    | _ => text
  (Draft.readAll? (text.length + 1) ⟨[], []⟩ text).map fun entries => .object (entriesToJson entries)

end Courseware.Toml
