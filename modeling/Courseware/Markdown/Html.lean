import Courseware.Text.Basic

/-!
# Raw HTML

Markdown keeps HTML as it is, in the middle of text and as blocks of whole lines. This module recognises
tags and the other forms of HTML, addresses between angle brackets, and the lines that begin and end an
HTML block.
-/

namespace Courseware.Markdown

/-- Blanks between the parts of a tag. -/
def isTagBlank (letter : Char) : Bool :=
  letter == ' ' || letter == '\t' || letter == '\n' || letter == '\r'

/-- Where a reader stands in a tag. -/
inductive TagPlace
  | name
  | between
  | attributeName
  | afterAttribute
  | beforeValue
  | quoted (quote : Char)
  | unquoted
  | afterQuoted
  /-- Only the closing angle bracket may follow. -/
  | last
  | closingName
  | afterClosingName
deriving DecidableEq, Repr

/-- What a character does to a reader in a tag: it moves on, is done, or fails. -/
inductive TagStep
  | goOn (place : TagPlace)
  | done
  | fail
deriving DecidableEq, Repr

namespace TagPlace

/-- The characters of which names of tags consist. -/
def isNameLetter (letter : Char) : Bool := letter.isAlphanum || letter == '-'

/-- The step of a character between attributes. -/
def stepBetween (letter : Char) : TagStep :=
  if isTagBlank letter then .goOn between
  else if letter == '/' then .goOn last
  else if letter == '>' then .done
  else if letter.isAlpha || letter == '_' || letter == ':' then .goOn attributeName
  else .fail

/-- The step of a character after the name of an attribute and blanks behind it. -/
def stepAfterAttribute (letter : Char) : TagStep :=
  if isTagBlank letter then .goOn afterAttribute
  else if letter == '=' then .goOn beforeValue
  else stepBetween letter

/-- The step of a character. Inside text a value without quotes may begin with a slash. In a block it may
not, and an equals sign may follow it, as if it were the name of an attribute. -/
def step (isBlock : Bool) (letter : Char) : TagPlace → TagStep
  | name =>
    if isNameLetter letter then .goOn name
    else if isTagBlank letter || letter == '/' || letter == '>' then stepBetween letter
    else .fail
  | between => stepBetween letter
  | attributeName =>
    if letter.isAlphanum || letter == '-' || letter == '.' || letter == ':' || letter == '_' then
      .goOn attributeName
    else stepAfterAttribute letter
  | afterAttribute => stepAfterAttribute letter
  | beforeValue =>
    if isTagBlank letter then .goOn beforeValue
    else if letter == '"' || letter == '\'' then .goOn (quoted letter)
    else if letter == '<' || letter == '=' || letter == '>' || letter == '\x60' then .fail
    else if isBlock && letter == '/' then stepBetween letter
    else .goOn unquoted
  | quoted quote => if letter == quote then .goOn afterQuoted else .goOn (quoted quote)
  | unquoted =>
    if isTagBlank letter || letter == '/' || letter == '>' then
      if isBlock then stepAfterAttribute letter else stepBetween letter
    else if isBlock && letter == '=' then .goOn beforeValue
    else if ['"', '\'', '<', '=', '\x60'].contains letter then .fail
    else .goOn unquoted
  | afterQuoted =>
    if isTagBlank letter || letter == '/' || letter == '>' then stepBetween letter else .fail
  | last => if letter == '>' then .done else .fail
  | closingName =>
    if isNameLetter letter then .goOn closingName
    else if isTagBlank letter then .goOn afterClosingName
    else if letter == '>' then .done
    else .fail
  | afterClosingName =>
    if isTagBlank letter then .goOn afterClosingName
    else if letter == '>' then .done
    else .fail

/-- Read to the end of a tag: what follows it. -/
def close? (isBlock : Bool) (place : TagPlace) : Text → Option Text
  | [] => none
  | letter :: rest =>
    match place.step isBlock letter with
    | .goOn next => next.close? isBlock rest
    | .done => some rest
    | .fail => none

/-- Whether a text ends inside of a tag. -/
def isOpenAfter (isBlock : Bool) (place : TagPlace) : Text → Bool
  | [] => true
  | letter :: rest =>
    match place.step isBlock letter with
    | .goOn next => next.isOpenAfter isBlock rest
    | _ => false

end TagPlace

/-! ## HTML in text -/

/-- Read to the end of the part of a text that ends with `marker`: what follows it. -/
def skipPast? (marker : Text) (text : Text) : Option Text := (Text.cut? marker text).map Prod.snd

/-- The marker that opens character data. -/
def dataOpening : Text := ['[', 'C', 'D', 'A', 'T', 'A', '[']

/-- Read HTML after its opening angle bracket: what follows it. -/
def skipHtml? (text : Text) : Option Text :=
  match text with
  | '!' :: '-' :: '-' :: rest => skipPast? ['-', '-', '>'] ('-' :: '-' :: rest)
  | '!' :: rest =>
    if dataOpening.isPrefixOf rest then skipPast? [']', ']', '>'] (rest.drop dataOpening.length)
    else
      match rest with
      | first :: more => if first.isAlpha then skipPast? ['>'] more else none
      | [] => none
  | '?' :: rest => skipPast? ['?', '>'] rest
  | '/' :: first :: rest => if first.isAlpha then TagPlace.close? false .closingName rest else none
  | first :: rest => if first.isAlpha then TagPlace.close? false .name rest else none
  | [] => none

/-! ## Addresses between angle brackets -/

/-- The characters of which the part of an e-mail address before the at sign consists. -/
def isMailboxLetter (letter : Char) : Bool :=
  letter.isAlphanum || "#$%&'*+-./=?^_\x60\x7b|\x7d~".toList.contains letter

/-- Whether a label of a domain is one: letters, digits and inner hyphens, 63 characters at most. -/
def isDomainLabel (label : Text) : Bool :=
  label.all (fun letter => letter.isAlphanum || letter == '-') && label.length ≤ 63 &&
    label.head?.any Char.isAlphanum && label.getLast?.any Char.isAlphanum

/-- Whether a text is an e-mail address. -/
def isMailAddress (text : Text) : Bool :=
  match Text.cut? ['@'] text with
  | some (mailbox, domain) =>
    !mailbox.isEmpty && mailbox.all isMailboxLetter && (Text.split '.' domain).all isDomainLabel
  | none => false

/-- Whether a text is an absolute address: a scheme of two to 32 characters, a colon, and neither
blanks nor control characters nor angle brackets after it. -/
def isAbsoluteAddress (text : Text) : Bool :=
  match Text.cut? [':'] text with
  | some (scheme, rest) =>
    scheme.head?.any Char.isAlpha && 2 ≤ scheme.length && scheme.length ≤ 32 &&
      scheme.all (fun c => c.isAlphanum || c == '+' || c == '-' || c == '.') &&
      rest.all fun c => 0x20 < c.toNat && c.toNat != 0x7F && c != '<' && c != '>'
  | none => false

/-- Read an address after its opening angle bracket: the address, and what follows its closing one. -/
def readAddress? (text : Text) : Option (Text × Text) := do
  let (address, rest) ← Text.cut? ['>'] text
  if isAbsoluteAddress address || isMailAddress address then some (address, rest) else none

/-! ## HTML blocks -/

/-- What ends an HTML block. -/
inductive HtmlBlock
  | rawText
  | comment
  | instruction
  | declaration
  | characterData
  | untilBlank
deriving DecidableEq, Repr

namespace HtmlBlock

/-- The elements whose text is raw. -/
def rawNames : List String := ["pre", "script", "style", "textarea"]

/-- The elements that begin a block. -/
def blockNames : List String :=
  ["address", "article", "aside", "base", "basefont", "blockquote", "body", "caption", "center",
    "col", "colgroup", "dd", "details", "dialog", "dir", "div", "dl", "dt", "fieldset",
    "figcaption", "figure", "footer", "form", "frame", "frameset", "h1", "h2", "h3", "h4", "h5",
    "h6", "head", "header", "hr", "html", "iframe", "legend", "li", "link", "main", "menu",
    "menuitem", "nav", "noframes", "ol", "optgroup", "option", "p", "param", "search", "section",
    "summary", "table", "tbody", "td", "tfoot", "th", "thead", "title", "tr", "track", "ul"]

/-- Whether the characters of a name, in any casing, are among some names. -/
def isAmong (names : List String) (name : Text) : Bool :=
  names.contains (String.ofList (name.map Char.toLower))

/-- Whether a closing tag of an element with raw text stands somewhere. -/
def hasRawClosing : Text → Bool
  | [] => false
  | letter :: rest =>
    let closes := match letter, rest with
      | '<', '/' :: more =>
        let (name, after) := Text.splitWhile Char.isAlpha more
        isAmong rawNames name && after.head? == some '>'
      | _, _ => false
    closes || hasRawClosing rest

/-- Whether character data is closed. A bracket is not tried twice. -/
def hasDataClosing : Text → Bool
  | ']' :: ']' :: '>' :: _ => true
  | ']' :: ']' :: rest => hasDataClosing rest
  | _ :: rest => hasDataClosing rest
  | [] => false

/-- Whether a line ends a block. -/
def endsIn (block : HtmlBlock) (line : Text) : Bool :=
  match block with
  | rawText => hasRawClosing line
  | comment => Text.hasPart ['-', '-', '>'] line
  | instruction => Text.hasPart ['?', '>'] line
  | declaration => line.contains '>'
  | characterData => hasDataClosing line
  | untilBlank => false

/-- Whether a tag whose name has been read ends, with only blanks after it. -/
def isWholeTag (place : TagPlace) (rest : Text) : Bool :=
  match place.close? true rest with
  | some after => after.all fun letter => letter == ' ' || letter == '\t'
  | none => false

/-- Whether the line begins with a tag, of which the name follows at once. -/
def isTag (line : Text) : Bool :=
  match line with
  | '<' :: first :: _ => first == '/' || first.isAlpha
  | _ => false

/-- Whether a tag is a closing one, and what follows its bracket and its slash. -/
def splitSlash : Text → Bool × Text
  | '/' :: rest => (true, rest)
  | rest => (false, rest)

/-- Read the start of a block at the first character of a line that is not indented: the block, and
the rest of the line in which it may end. Where `complete` holds, a tag of any name that fills the
line begins a block too. Where `closing` holds, every tag is taken for a closing one. -/
def begin? (complete closing : Bool) (line : Text) : Option (HtmlBlock × Text) :=
  match line with
  | '<' :: '!' :: '-' :: '-' :: rest => some (comment, '-' :: '-' :: rest)
  | '<' :: '!' :: rest =>
    if dataOpening.isPrefixOf rest then some (characterData, rest.drop dataOpening.length)
    else
      match rest with
      | first :: more => if first.isAlpha then some (declaration, more) else none
      | [] => none
  | '<' :: '?' :: rest => some (instruction, '?' :: rest)
  | '<' :: rest =>
    let (hasSlash, rest) := splitSlash rest
    let closing := closing || hasSlash
    let (name, after) := Text.splitWhile TagPlace.isNameLetter rest
    let isNameEnd := match after with
      | [] => true
      | letter :: _ => isTagBlank letter || letter == '/' || letter == '>'
    if !name.head?.any Char.isAlpha || !isNameEnd then
      none
    else if !closing && after.head? != some '/' && isAmong rawNames name then
      some (rawText, after)
    else if isAmong blockNames name then
      match after with
      | '/' :: next :: more => if next == '>' then some (untilBlank, more) else none
      | ['/'] => none
      | _ => some (untilBlank, after)
    else if complete && isWholeTag (if closing then .closingName else .name) after then
      some (untilBlank, [])
    else
      none
  | _ => none

/-- Whether a line that begins no block would begin one if it went on. -/
def isUnfinished (closing : Bool) (line : Text) : Bool :=
  match line with
  | '<' :: '!' :: rest => rest.isPrefixOf ['-'] || rest.isPrefixOf dataOpening
  | '<' :: rest =>
    let (hasSlash, rest) := splitSlash rest
    let (name, after) := Text.splitWhile TagPlace.isNameLetter rest
    if rest.isEmpty then true
    else if !name.head?.any Char.isAlpha then false
    else if isAmong blockNames name then after == ['/']
    else TagPlace.isOpenAfter true (if closing || hasSlash then .closingName else .name) after
  | _ => false

end HtmlBlock
end Courseware.Markdown
