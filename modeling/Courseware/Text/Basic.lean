/-!
# Text

Authored markup is handled as the list of its characters, so that reading it is recursion on
data. Positions that an author or a tool sees are byte offsets into the UTF-8 form of the text;
this module measures them. `width` is the number of bytes of a text, `slice` the part between two
byte offsets, and `lineAt` the line on which an offset lies.
-/

namespace Courseware

/-- Markup, as the list of its characters. -/
abbrev Text := List Char

namespace Text

/-- The number of bytes of the UTF-8 form of a text. -/
def width : Text → Nat
  | [] => 0
  | letter :: rest => letter.utf8Size + width rest

@[simp] theorem width_nil : width [] = 0 := rfl

@[simp] theorem width_cons (letter : Char) (rest : Text) :
    width (letter :: rest) = letter.utf8Size + width rest := rfl

@[simp] theorem width_append (before after : Text) :
    width (before ++ after) = width before + width after := by
  induction before with
  | nil => simp
  | cons letter rest ih => simp [ih, Nat.add_assoc]

/-- What is left of a text after its first `bytes` bytes. A character that begins before the cut
is dropped whole. -/
def dropBytes : Text → Nat → Text
  | text, 0 => text
  | [], _ => []
  | letter :: rest, bytes => dropBytes rest (bytes - letter.utf8Size)

/-- The characters that begin within the first `bytes` bytes of a text. -/
def takeBytes : Text → Nat → Text
  | _, 0 => []
  | [], _ => []
  | letter :: rest, bytes => letter :: takeBytes rest (bytes - letter.utf8Size)

/-- The part of a text between two byte offsets. -/
def slice (text : Text) (start stop : Nat) : Text :=
  takeBytes (dropBytes text start) (stop - start)

/-- The number, counted from 1, of the line on which a byte offset lies. Offsets past the end
lie on the last line. -/
def lineAt (text : Text) (offset : Nat) : Nat :=
  (takeBytes text offset).count '\n' + 1

/-- Cut a text around the first place where `needle` stands: the text before it and the text
after it. -/
def cut? (needle : Text) : Text → Option (Text × Text)
  | [] => if needle.isEmpty then some ([], []) else none
  | letter :: rest =>
    if needle.isPrefixOf (letter :: rest) then
      some ([], (letter :: rest).drop needle.length)
    else
      (cut? needle rest).map fun (before, after) => (letter :: before, after)

/-- Whether `needle` stands somewhere in a text. -/
def hasPart (needle text : Text) : Bool := (cut? needle text).isSome

theorem append_of_cut? {needle text before after : Text}
    (h : cut? needle text = some (before, after)) : before ++ needle ++ after = text := by
  induction text generalizing before after with
  | nil =>
    unfold cut? at h
    split at h
    · next empty =>
      simp only [Option.some.injEq, Prod.mk.injEq] at h
      simp [← h.1, ← h.2, List.isEmpty_iff.1 empty]
    · simp at h
  | cons letter rest ih =>
    unfold cut? at h
    split at h
    · next found =>
      simp only [Option.some.injEq, Prod.mk.injEq] at h
      obtain ⟨tail, htail⟩ := List.isPrefixOf_iff_prefix.1 found
      rw [← h.1, ← h.2, ← htail]
      simp
    · obtain ⟨⟨first, second⟩, hcut, heq⟩ := Option.map_eq_some_iff.1 h
      simp only [Prod.mk.injEq] at heq
      rw [← heq.1, ← heq.2, ← ih hcut]
      simp

/-- The longest start of a text whose characters all satisfy `keep`, and what follows it. -/
def splitWhile (keep : Char → Bool) (text : Text) : Text × Text :=
  (text.takeWhile keep, text.dropWhile keep)

@[simp] theorem append_splitWhile (keep : Char → Bool) (text : Text) :
    (splitWhile keep text).1 ++ (splitWhile keep text).2 = text :=
  List.takeWhile_append_dropWhile

/-- The parts of a text between the places where `separator` stands. -/
def split (separator : Char) : Text → List Text
  | [] => [[]]
  | letter :: rest =>
    if letter == separator then
      [] :: split separator rest
    else
      match split separator rest with
      | [] => [[letter]]
      | first :: others => (letter :: first) :: others

/-- The parts written one after the other with `separator` between them. -/
def join (separator : Text) (parts : List Text) : Text := List.intercalate separator parts

/-- The parts that are not empty, each on lines of its own. -/
def joinLines (parts : List Text) : Text := join ['\n'] (parts.filter fun part => !part.isEmpty)

/-- The decimal digits of a number. -/
def ofNat (number : Nat) : Text := Nat.toDigits 10 number

end Text
end Courseware
