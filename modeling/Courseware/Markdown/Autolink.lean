import Courseware.Text.Punctuation

/-!
# Addresses in text

An address of the web that stands in text on its own is a link. It begins with a scheme or with `www.`,
goes on with a domain and a path, and does not take in the punctuation that ends the sentence around it.
-/

namespace Courseware.Markdown.Autolink

/-- Where a look ahead over final punctuation stands: outside of a character reference, right after an
ampersand, or among the letters after one. -/
inductive TrailPlace
  | outside
  | afterAmpersand
  | inReference
deriving DecidableEq, Repr

/-- The punctuation that may end an address without belonging to it. -/
def isTrailing (letter : Char) : Bool :=
  ['!', '"', '\'', ')', '*', ',', '.', ':', ';', '?', '_', '~'].contains letter

/-- Whether only final punctuation stands before the end of an address. -/
def isTrail : TrailPlace → Text → Bool
  | .outside, [] => true
  | _, [] => false
  | .outside, '&' :: rest => isTrail .afterAmpersand rest
  | .outside, '<' :: _ => true
  | .outside, ']' :: rest =>
    match rest with
    | [] => true
    | next :: _ =>
      if next == '\t' || next == '\n' || next == '\r' || next == ' ' || next == '(' || next == '[' then
        true
      else isTrail .outside rest
  | .outside, letter :: rest =>
    if isTrailing letter then isTrail .outside rest else Text.isBlank letter
  | .afterAmpersand, letter :: rest => if letter.isAlpha then isTrail .inReference rest else false
  | .inReference, letter :: rest =>
    if letter.isAlpha then isTrail .inReference rest
    else if letter == ';' then isTrail .outside rest
    else false

/-- Read a domain: its text, and what follows. Neither of its last two parts may hold an underscore,
and it must hold a letter or digit. The flags tell whether the last part and the one before it hold an
underscore, and whether a letter or digit has been seen. -/
def readDomain? (inLast inPrevious seen : Bool) : Text → Option (Text × Text)
  | [] => if inLast || inPrevious || !seen then none else some ([], [])
  | letter :: rest =>
    let ended : Option (Text × Text) :=
      if inLast || inPrevious || !seen then none else some ([], letter :: rest)
    let taken (result : Option (Text × Text)) : Option (Text × Text) :=
      result.map fun (domain, after) => (letter :: domain, after)
    if letter == '.' || letter == '_' then
      if isTrail .outside (letter :: rest) then ended
      else if letter == '_' then taken (readDomain? true inPrevious seen rest)
      else taken (readDomain? false inLast seen rest)
    else if letter == '-' then taken (readDomain? inLast inPrevious seen rest)
    else if Text.isBlank letter || Text.isPunctuation letter then ended
    else taken (readDomain? inLast inPrevious true rest)

/-- The characters of a path at which an address may end. -/
def mayEndPath (letter : Char) : Bool :=
  isTrailing letter || letter == '&' || letter == '<' || letter == ']'

/-- Read a path: its text, and what follows. A final closing parenthesis belongs to it when more
parentheses have been opened than closed. -/
def readPath (opened closed : Nat) : Text → Text × Text
  | [] => ([], [])
  | letter :: rest =>
    let taken (result : Text × Text) : Text × Text := (letter :: result.1, result.2)
    if letter == '(' then taken (readPath (opened + 1) closed rest)
    else if mayEndPath letter then
      if isTrail .outside (letter :: rest) && !(letter == ')' && closed < opened) then
        ([], letter :: rest)
      else
        taken (readPath opened (if letter == ')' then closed + 1 else closed) rest)
    else if Text.isBlank letter then ([], letter :: rest)
    else taken (readPath opened closed rest)

/-- Read a domain and a path. -/
def readTarget? (text : Text) : Option (Text × Text) := do
  let (domain, rest) ← readDomain? false false false text
  let (path, rest) := readPath 0 0 rest
  some (domain ++ path, rest)

/-- Whether the characters of a word, in any casing, begin a text. -/
def beginsWith (word : Text) (text : Text) : Bool := word.isPrefixOf (text.map Char.toLower)

/-- Read an address at the start of a text, where `previous` is the character before it: the address,
and what follows. -/
def read? (previous : Option Char) (text : Text) : Option (Text × Text) :=
  let after (word : Text) : Option (Text × Text) := do
    let (target, rest) ← readTarget? (text.drop word.length)
    some (text.take word.length ++ target, rest)
  if previous.any Char.isAlpha then
    none
  else if beginsWith ['h', 't', 't', 'p', ':', '/', '/'] (text.take 7) then
    after ['h', 't', 't', 'p', ':', '/', '/']
  else if beginsWith ['h', 't', 't', 'p', 's', ':', '/', '/'] (text.take 8) then
    after ['h', 't', 't', 'p', 's', ':', '/', '/']
  else if beginsWith ['w', 'w', 'w', '.'] (text.take 4) && 4 < text.length &&
      previous.all (fun c => ['\n', '\r', '\t', ' ', '(', '*', '_', '[', ']', '~'].contains c) then
    readTarget? text
  else
    none

end Courseware.Markdown.Autolink
