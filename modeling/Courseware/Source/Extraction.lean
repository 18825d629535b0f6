import Courseware.Source.Literal

/-!
# Extraction

Extraction splits a document into single characters and literals. Where a literal stands, the
scrubbed text has a placeholder instead: an opening sentinel, the literal's number and a closing
sentinel. The sentinels are two private-use characters that the document does not hold, so no
placeholder can be mistaken for authored text, and every placeholder can be replaced by its literal
at any later time.
-/

namespace Courseware

/-- What a document is made of, in reading order. -/
inductive Piece
  | letter (letter : Char)
  | literal (literal : Literal)
deriving DecidableEq, Repr

/-- The part of the document that a piece covers. -/
def Piece.source : Piece → Text
  | letter c => [c]
  | literal l => l.text

/-- The two characters that enclose the number of a literal. -/
structure Sentinels where
  opening : Char
  closing : Char
deriving DecidableEq, Repr

namespace Sentinels

/-- Sentinels are adjacent private-use characters, the first with an even code. -/
def pair (code : Nat) : Sentinels := ⟨Char.ofNat code, Char.ofNat (code + 1)⟩

/-- The sentinels that may be chosen, in the order in which they are tried. -/
def candidates : List Sentinels :=
  (List.range 3199).map (fun step => pair (0xE000 + 2 * step)) ++
    (List.range 32766).map (fun step => pair (0xF0000 + 2 * step))

/-- The first sentinels of which a document holds neither. -/
def choose? (source : Text) : Option Sentinels :=
  candidates.find? fun sentinels =>
    !source.contains sentinels.opening && !source.contains sentinels.closing

/-- The placeholder of the literal with a number. -/
def placeholder (sentinels : Sentinels) (number : Nat) : Text :=
  sentinels.opening :: (Text.ofNat number ++ [sentinels.closing])

end Sentinels

/-- A literal that is opened and never closed, with the byte offset and the line of its opening
delimiter. -/
structure Unterminated where
  kind : LiteralKind
  offset : Nat
  line : Nat
deriving DecidableEq, Repr

namespace Piece

/-- The text that a list of pieces covers. -/
def sources (pieces : List Piece) : Text := pieces.flatMap source

/-- The report of a literal that is opened after the pieces read so far, latest first, and some
further characters. -/
private def unterminatedAfter (done : List Piece) (indent : Text) (kind : LiteralKind) :
    Unterminated :=
  let before := sources done.reverse ++ indent
  ⟨kind, Text.width before, before.count '\n' + 1⟩

/-- Split a text into pieces. `done` holds the pieces read so far, latest first, and `lineStart`
says whether a line starts here, which is where a fence may open. A backslash hides the character
after it from being read as a delimiter. -/
def scan (lineStart : Bool) (done : List Piece) (text : Text) :
    Except Unterminated (List Piece) :=
  match text with
  | [] => .ok done.reverse
  | first :: rest =>
    match _fence : if lineStart then Literal.readFence? (first :: rest) else ([], .absent) with
    | (indent, .found block after) =>
      scan false (.literal block :: (indent.map .letter).reverse ++ done) after
    | (indent, .unterminated kind) => .error (unterminatedAfter done indent kind)
    | (_, .absent) =>
      match _inline : Literal.readLiteral? (first :: rest) with
      | .found block after => scan false (.literal block :: done) after
      | .unterminated kind => .error (unterminatedAfter done [] kind)
      | .absent =>
        if first == '\\' then
          match rest with
          | [] => .ok (.letter first :: done).reverse
          | hidden :: after =>
            scan (hidden == '\n') (.letter hidden :: .letter first :: done) after
        else
          scan (first == '\n') (.letter first :: done) rest
termination_by text.length
decreasing_by
  · split at _fence
    · have hsplit := congrArg List.length (Literal.append_of_readFence? _fence)
      have hfull := List.length_pos_iff.2 (Literal.text_ne_nil_of_readFence? _fence)
      simp only [List.length_append] at hsplit
      omega
    · simp at _fence
  · have hsplit := congrArg List.length (Literal.append_of_readLiteral? _inline)
    have hfull := List.length_pos_iff.2 (Literal.text_ne_nil_of_readLiteral? _inline)
    simp only [List.length_append] at hsplit
    omega
  · simp only [List.length_cons]
    omega
  · simp

/-- The literals among some pieces, in reading order. -/
def literals : List Piece → List Literal
  | [] => []
  | letter _ :: rest => literals rest
  | literal l :: rest => l :: literals rest

/-- The text with a placeholder for each literal, where the first literal has the number `next`. -/
def scrub (sentinels : Sentinels) (next : Nat) : List Piece → Text
  | [] => []
  | letter c :: rest => c :: scrub sentinels next rest
  | literal _ :: rest => sentinels.placeholder next ++ scrub sentinels (next + 1) rest

end Piece

/-- A document split into pieces, and the sentinels of its placeholders. -/
structure Extraction where
  sentinels : Sentinels
  pieces : List Piece
deriving Repr

namespace Extraction

/-- The document as it was written. -/
def source (extraction : Extraction) : Text := Piece.sources extraction.pieces

/-- The document with a placeholder for each literal. -/
def scrubbed (extraction : Extraction) : Text := Piece.scrub extraction.sentinels 0 extraction.pieces

/-- The literals of the document, by number. -/
def literals (extraction : Extraction) : List Literal := Piece.literals extraction.pieces

/-- The placeholder of the literal with a number. -/
def placeholder (extraction : Extraction) (number : Nat) : Text :=
  extraction.sentinels.placeholder number

/-- Why a document cannot be extracted. -/
inductive Failure
  | noSentinels
  | unterminated (report : Unterminated)
deriving DecidableEq, Repr

/-- Split a document into pieces. -/
def ofSource (source : Text) : Except Failure Extraction :=
  match Sentinels.choose? source with
  | none => .error .noSentinels
  | some sentinels =>
    match Piece.scan true [] source with
    | .error report => .error (.unterminated report)
    | .ok pieces => .ok ⟨sentinels, pieces⟩

end Extraction
end Courseware
