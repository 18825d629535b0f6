import Courseware.Markup.Registry
import Courseware.Source.Position

/-!
# Faults of a document

A document that cannot be read has one fault, at one place. A fault names its cause; its wording, its
code and the advice that goes with it are functions of the cause.
-/

namespace Courseware

/-- The part of a directive that is empty and must not be. -/
inductive Part
  | content
  | instruction
  | question
  | choice
  | slot (name : String)
deriving DecidableEq, Repr

/-- The name of a part. -/
def Part.name : Part → String
  | content => "content"
  | instruction => "instruction"
  | question => "question"
  | choice => "option"
  | slot name => s!"`#{name}` slot"

/-- What is wrong with the content of a directive that is read well. -/
inductive ContentDefect
  | noSingleFence
  | fewChoices
  | noCorrectChoice
  | unclosedField
  | fieldWithoutAnswer
  | noField
deriving DecidableEq, Repr

/-- The wording of a defect. -/
def ContentDefect.message : ContentDefect → String
  | noSingleFence => "`#code` must contain exactly one fenced code block"
  | fewChoices => "a multiple choice question needs at least two options"
  | noCorrectChoice => "mark at least one option as correct with `- [x]`"
  | unclosedField => "unclosed `[[` gap field"
  | fieldWithoutAnswer => "every `[[...]]` gap field needs an answer"
  | noField => "a gap text needs at least one `[[answer]]` field"

/-- Why a document cannot be read. -/
inductive Fault
  /-- A literal is opened and never closed. -/
  | unterminated (kind : LiteralKind)
  /-- No directive has this name. -/
  | unknownDirective (name : String)
  | missingSlot (kind : DirectiveKind) (slot : String)
  | notAllowed (kind : DirectiveKind) (context : Context)
  /-- A bracket or brace of this directive has no partner. -/
  | unbalanced (kind : DirectiveKind)
  | emptyPart (kind : DirectiveKind) (part : Part)
  /-- A slot stands where it is not declared: in a directive, or in none. -/
  | unexpectedSlot (slot : String) (parent : Option DirectiveKind)
  | duplicateSlot (kind : DirectiveKind) (slot : String)
  | unsupportedLanguage (kind : DirectiveKind) (language : String)
  | invalidContent (kind : DirectiveKind) (defect : ContentDefect)
deriving DecidableEq, Repr

namespace Fault

/-- The wording of a fault that lies at a byte offset. -/
def message (offset : Nat) : Fault → String
  | unterminated kind => s!"unterminated {kind.delimiter} starting at byte {offset}"
  | unknownDirective name => s!"undefined macro `#{name}`"
  | missingSlot kind slot =>
    s!"`#{kind.tag}` is missing the required `#{slot}\x7b...\x7d` slot"
  | notAllowed kind context => s!"`#{kind.tag}` is not allowed in a {context.name} document"
  | unbalanced kind => s!"unbalanced brackets in `#{kind.tag}`"
  | emptyPart kind part => s!"`#{kind.tag}` has empty {part.name}"
  | unexpectedSlot slot none => s!"`#{slot}` is not a slot of the document"
  | unexpectedSlot slot (some kind) => s!"`#{slot}` is not a slot of `#{kind.tag}`"
  | duplicateSlot kind slot => s!"`#{kind.tag}` declares the `#{slot}` slot more than once"
  | unsupportedLanguage kind language =>
    s!"unsupported code language `{language}` in `#{kind.tag}`"
  | invalidContent kind defect => s!"invalid `#{kind.tag}`: {defect.message}"

/-- The code under which a fault is looked up. -/
def code : Fault → String
  | unterminated _ => "coursec::unterminated_literal"
  | unknownDirective _ => "coursec::unknown_macro"
  | missingSlot .. => "coursec::missing_required_slot"
  | notAllowed .. => "coursec::macro_not_allowed_in_context"
  | unbalanced _ => "coursec::unbalanced_macro_brackets"
  | emptyPart .. => "coursec::empty_macro_content"
  | unexpectedSlot .. => "coursec::unexpected_slot"
  | duplicateSlot .. => "coursec::duplicate_slot"
  | unsupportedLanguage .. => "coursec::unsupported_language"
  | invalidContent .. => "coursec::invalid_macro_content"

/-- The advice that goes with a fault. -/
def help? : Fault → Option String
  | unterminated _ => some "close the literal or escape the delimiter with a backslash"
  | unknownDirective _ =>
    some "known macros: note, pn, textTask, mathTask, codeTask, mcq, gap"
  | unbalanced _ =>
    some <| "every `[` and `\x7b` inside a macro needs a matching closer; " ++
      "escape literal ones with `\\`"
  | unsupportedLanguage .. => some "supported languages: ts"
  | _ => none

end Fault

/-- Why a named document is not compiled. -/
inductive DocumentProblem
  /-- The document uses every pair of sentinels. -/
  | noSentinels (document : String)
  /-- A part of the document cannot be read as Markdown. -/
  | markdown (reason : String)
  | fault (document : String) (position : Position) (fault : Fault)
deriving DecidableEq, Repr

/-- The wording of a problem: the document, the line and the fault. -/
def DocumentProblem.message : DocumentProblem → String
  | noSentinels document =>
    s!"failed to parse markdown: {document}: no private-use code points left for placeholders"
  | markdown reason => s!"failed to parse markdown: {reason}"
  | fault document position cause =>
    s!"{document}:{position.line}: {cause.message position.offset}"

end Courseware
