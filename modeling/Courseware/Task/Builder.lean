import Courseware.Markup.Fault
import Courseware.Shuffle
import Courseware.Source.Restore
import Courseware.Task.Basic
import Courseware.Text.Lines

/-!
# Building directives

Once a directive has been read as a content and some filled slots, its kind decides what it becomes.
The texts still hold placeholders; each is restored exactly once, on its way into the result.
-/

namespace Courseware

/-- A directive as it is read: its kind, its content without the slots, and the filled slots. -/
structure DirectiveNode where
  kind : DirectiveKind
  content : Text
  slots : List (String × Text)
deriving DecidableEq, Repr

namespace DirectiveNode

/-- The text in a slot, if the slot is filled. -/
def slot? (node : DirectiveNode) (name : String) : Option Text := node.slots.lookup name

/-- A text with its literals, without its common indent and without blanks around it. -/
def markdown (extraction : Extraction) (text : Text) : Text :=
  Text.trim (Text.dedent (extraction.restore text))

/-- The Markdown of a text that must not be empty. -/
def required (node : DirectiveNode) (extraction : Extraction) (part : Part) (text : Text) :
    Except Fault Text :=
  match markdown extraction text with
  | [] => .error (.emptyPart node.kind part)
  | written => .ok written

/-- The Markdown of a slot that must be filled. -/
def requiredSlot (node : DirectiveNode) (extraction : Extraction) (name : String) :
    Except Fault Text :=
  match node.slot? name with
  | none => .error (.missingSlot node.kind name)
  | some text => node.required extraction (.slot name) text

/-- The Markdown of a slot that may be left out or left empty. -/
def optionalSlot (node : DirectiveNode) (extraction : Extraction) (name : String) : Option Text :=
  ((node.slot? name).map (markdown extraction)).filter fun written => !written.isEmpty

/-! ## Code tasks -/

/-- The code of a fenced block: without its common indent and its final line ends. -/
def fencedCode (code : Text) : Text :=
  Text.dropTrailing (fun letter => letter == '\n' || letter == '\r') (Text.dedent code)

/-- The info and the code of the fenced block that is the whole of a text. -/
def soleFence? (extraction : Extraction) (text : Text) : Option (Text × Text) :=
  match extraction.soleLiteral? text with
  | some (.fence info _ code _) => some (info, fencedCode code)
  | _ => none

/-- The first word of a text. -/
def firstWord (text : Text) : Text := (Text.trimStart text).takeWhile fun c => !Text.isBlank c

/-- Build a code task. Its code is one fenced block; its solution may be one or may be Markdown. -/
def codeTask (node : DirectiveNode) (extraction : Extraction) : Except Fault Task := do
  let instruction ← node.required extraction .instruction node.content
  let _ ← node.requiredSlot extraction "code"
  match soleFence? extraction ((node.slot? "code").getD []) with
  | none => .error (.invalidContent node.kind .noSingleFence)
  | some (info, code) =>
    let name := String.ofList (firstWord info)
    match CodeLanguage.ofName? name with
    | none => .error (.unsupportedLanguage node.kind name)
    | some language =>
      let solution := match (node.slot? "solution").bind (soleFence? extraction) with
        | some (_, fenced) => some fenced
        | none => node.optionalSlot extraction "solution"
      .ok (.code instruction language code solution)

/-! ## Multiple choice questions -/

/-- Read a line that offers a choice: a list marker, a check box and the text after it. -/
def readChoice? (line : Text) : Option (Bool × Text) :=
  match Text.trimStart line with
  | marker :: ' ' :: '[' :: mark :: ']' :: text =>
    if marker != '-' && marker != '*' then none
    else if mark == 'x' || mark == 'X' then some (true, text)
    else if mark == ' ' then some (false, text)
    else none
  | _ => none

/-- Build a multiple choice question. The lines that offer no choice are the question; the choices
are put into the order that belongs to `seed`. -/
def choiceTask (node : DirectiveNode) (extraction : Extraction) (seed : String) :
    Except Fault Task := do
  let lines := Text.lines node.content
  let choices := (lines.filterMap readChoice?).map fun (correct, text) =>
    { text := Text.trim (extraction.restore text), correct : Choice }
  let question ← node.required extraction .question
    (Text.join ['\n'] (lines.filter fun line => (readChoice? line).isNone))
  if choices.length < 2 then
    .error (.invalidContent node.kind .fewChoices)
  else if choices.any fun choice => choice.text.isEmpty then
    .error (.emptyPart node.kind .choice)
  else if !choices.any Choice.correct then
    .error (.invalidContent node.kind .noCorrectChoice)
  else
    .ok (.choice question (shuffle choices seed) (1 < choices.countP Choice.correct))

/-! ## Gap texts -/

/-- The answers in a field: what stands between its bars and is not blank. -/
def readAnswers (extraction : Extraction) (inner : Text) : List Text :=
  ((Text.split '|' inner).map fun answer => Text.trim (extraction.restore answer)).filter
    fun answer => !answer.isEmpty

/-- Read a gap text up to its end: the fields, and the parts around them. -/
def readFields (extraction : Extraction) (text : Text) :
    Except ContentDefect (List GapField × List Text) :=
  match _opened : Text.cut? ['[', '['] text with
  | none => .ok ([], [Text.trimEnd (extraction.restore text)])
  | some (before, inside) =>
    match _closed : Text.cut? [']', ']'] inside with
    | none => .error .unclosedField
    | some (inner, rest) =>
      match readAnswers extraction inner with
      | [] => .error .fieldWithoutAnswer
      | answers =>
        match readFields extraction rest with
        | .error defect => .error defect
        | .ok (fields, parts) => .ok (⟨answers⟩ :: fields, extraction.restore before :: parts)
termination_by text.length
decreasing_by
  have hopen := congrArg List.length (Text.append_of_cut? _opened)
  have hclose := congrArg List.length (Text.append_of_cut? _closed)
  simp only [List.length_append, List.length_cons] at hopen hclose
  omega

/-- Build a gap text, which has at least one field. The blanks at its start are left out, like those at its
end. -/
def gapTask (node : DirectiveNode) (extraction : Extraction) : Except Fault Task :=
  let body := Text.dedent node.content
  match readFields extraction body with
  | .error defect => .error (.invalidContent node.kind defect)
  | .ok ([], _) =>
    if Text.isAllBlank body then .error (.emptyPart node.kind .content)
    else .error (.invalidContent node.kind .noField)
  | .ok (fields, parts) => .ok (.gap fields (parts.modifyHead Text.trimStart))

/-! ## All kinds -/

/-- What a directive becomes. `seed` decides the order of choices. -/
def build (node : DirectiveNode) (extraction : Extraction) (seed : String) :
    Except Fault Directive :=
  match node.kind with
  | .note => (node.required extraction .content node.content).map .note
  | .presenterNote => (node.required extraction .content node.content).map .presenterNote
  | .textTask => do
    let instruction ← node.required extraction .instruction node.content
    .ok (.task (.text instruction (node.optionalSlot extraction "hint")
      (node.optionalSlot extraction "solution")))
  | .mathTask => do
    let instruction ← node.required extraction .instruction node.content
    let hint ← node.requiredSlot extraction "hint"
    let solution ← node.requiredSlot extraction "solution"
    .ok (.task (.math instruction hint solution))
  | .codeTask => (node.codeTask extraction).map .task
  | .choice => (node.choiceTask extraction seed).map .task
  | .gap => (node.gapTask extraction).map .task

end DirectiveNode
end Courseware
