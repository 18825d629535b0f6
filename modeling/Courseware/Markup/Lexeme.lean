import Courseware.Text.Basic

/-!
# Lexemes

Scrubbed text is cut into lexemes, of which only the delimiters matter to directives: `#name[` and
`#name` followed by a brace open a block or a slot, brackets and braces group, and a backslash before
one of the delimiters or before another backslash escapes it. All else is text. Every lexeme is the
longest that can begin where it begins.
-/

namespace Courseware

/-- What a lexeme is to the directives of a document. -/
inductive Token
  /-- A number sign, a name and an opening bracket. -/
  | blockOpen
  /-- A number sign, a name and an opening brace. -/
  | slotOpen
  | bracketOpen
  | bracketClose
  | braceOpen
  | braceClose
  /-- A backslash and the delimiter or backslash that it escapes. -/
  | escaped
  /-- A number sign that opens nothing. -/
  | hash
  /-- A backslash that escapes nothing. -/
  | backslash
  | text
deriving DecidableEq, Repr

namespace Token

/-- The characters that may be more than text. -/
def isDelimiter (letter : Char) : Bool :=
  letter == '#' || letter == '[' || letter == ']' || letter == '{' || letter == '}' ||
    letter == '\\'

/-- The characters of which names consist after their first. -/
def isNameRest (letter : Char) : Bool := letter.isAlphanum || letter == '_'

/-- The opening token that a bracket or brace after a name makes. -/
def opening? : Char → Option Token
  | '[' => some blockOpen
  | '{' => some slotOpen
  | _ => none

/-- Read a name and the bracket or brace after it: the token they make with a number sign before
them, their text, and what follows. A name begins with a letter. -/
def readOpening? (text : Text) : Option (Token × Text × Text) :=
  let (name, after) := text.splitWhile isNameRest
  match name, after with
  | first :: _, bracket :: rest =>
    if first.isAlpha then
      (opening? bracket).map fun token => (token, name ++ [bracket], rest)
    else
      none
  | _, _ => none

/-- Read the lexeme that begins with the character `first`: its token, its text, and what follows. -/
def read (first : Char) (rest : Text) : Token × Text × Text :=
  match first with
  | '[' => (bracketOpen, ['['], rest)
  | ']' => (bracketClose, [']'], rest)
  | '{' => (braceOpen, ['{'], rest)
  | '}' => (braceClose, ['}'], rest)
  | '#' =>
    match readOpening? rest with
    | some (token, name, after) => (token, '#' :: name, after)
    | none => (hash, ['#'], rest)
  | '\\' =>
    match rest with
    | next :: after =>
      if isDelimiter next then (escaped, ['\\', next], after) else (backslash, ['\\'], rest)
    | [] => (backslash, ['\\'], [])
  | letter =>
    let (more, after) := rest.splitWhile fun next => !isDelimiter next
    (text, letter :: more, after)

theorem append_of_readOpening? {text name rest : Text} {token : Token}
    (h : readOpening? text = some (token, name, rest)) : name ++ rest = text := by
  unfold readOpening? at h
  have hsplit := Text.append_splitWhile isNameRest text
  revert h hsplit
  generalize text.splitWhile isNameRest = parts
  obtain ⟨letters, after⟩ := parts
  intro h hsplit
  simp only at h
  split at h
  · split at h
    · obtain ⟨found, _, heq⟩ := Option.map_eq_some_iff.1 h
      simp only [Prod.mk.injEq] at heq
      rw [← heq.2.1, ← heq.2.2, ← hsplit]
      simp
    · simp at h
  · simp at h

/-- The text of a lexeme and what follows it are the text that was read. -/
theorem append_read (first : Char) (rest : Text) :
    (read first rest).2.1 ++ (read first rest).2.2 = first :: rest := by
  unfold read
  split <;> try rfl
  · split
    · next h => simp [append_of_readOpening? h]
    · rfl
  · split
    · split <;> rfl
    · rfl
  · simp [Text.splitWhile]

/-- A lexeme begins with the character at which it is read. -/
theorem read_ne_nil (first : Char) (rest : Text) : (read first rest).2.1 ≠ [] := by
  unfold read
  split <;> try simp
  · split <;> simp
  · split
    · split <;> simp
    · simp

end Token

/-- A token with its text and the byte offset at which it starts. -/
structure Lexeme where
  token : Token
  start : Nat
  text : Text
deriving DecidableEq, Repr

namespace Lexeme

/-- The byte offset at which a lexeme ends. -/
def stop (lexeme : Lexeme) : Nat := lexeme.start + Text.width lexeme.text

/-- The name in a lexeme that opens a block or a slot. -/
def name (lexeme : Lexeme) : String := String.ofList (lexeme.text.drop 1).dropLast

/-- The lexemes of a text that starts at a byte offset. -/
def scan (start : Nat) (text : Text) : List Lexeme :=
  match text with
  | [] => []
  | first :: rest =>
    let reading := Token.read first rest
    ⟨reading.1, start, reading.2.1⟩ :: scan (start + Text.width reading.2.1) reading.2.2
termination_by text.length
decreasing_by
  have hsplit := congrArg List.length (Token.append_read first rest)
  have hfull := List.length_pos_iff.2 (Token.read_ne_nil first rest)
  simp only [List.length_append] at hsplit
  omega

/-- The lexemes of a text. -/
def tokenize (text : Text) : List Lexeme := scan 0 text

end Lexeme
end Courseware
