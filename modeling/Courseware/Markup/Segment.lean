import Courseware.Markup.Lexeme
import Courseware.Task.Builder

/-!
# Segments

A document is read as prose and directives in turn. `Reader.read` takes one lexeme after the other
and keeps the directives that are still open, innermost first. When a directive closes it is built,
and then a note leaves its text in the directive around it, while any other nested directive leaves
nothing there and follows the outermost directive as a segment of its own.
-/

namespace Courseware

/-- A part of a document: prose, which may hold placeholders, by the offset at which it starts, or a
directive with the span of the outermost directive that it stands in. Both are measured in the
scrubbed text. -/
inductive Segment
  | prose (start : Nat) (text : Text)
  | directive (span : Span) (directive : Directive)
deriving DecidableEq, Repr

/-- A part of the content of a directive: scrubbed text, by the offset at which it starts, or the text
that a nested note has left. -/
inductive Fragment
  | source (start : Nat) (text : Text)
  | nested (text : Text)
deriving DecidableEq, Repr

/-- The text of a fragment. -/
def Fragment.text : Fragment → Text
  | source _ text | nested text => text

/-- The two ways in which content is enclosed. -/
inductive Enclosure
  | bracket
  | brace
deriving DecidableEq, Repr

/-- A slot that is being read. The content is kept latest first. -/
structure OpenSlot where
  name : String
  enclosure : Enclosure
  content : List Fragment
deriving DecidableEq, Repr

/-- A directive that is being read: where it starts, its content so far, latest first, the slots
filled so far, the slot that is being read if there is one, and the groups that are open in that slot
or else in the content, innermost first. -/
structure OpenDirective where
  descriptor : Descriptor
  start : Nat
  content : List Fragment
  filled : List (String × Text)
  slot : Option OpenSlot
  groups : List Enclosure
deriving DecidableEq, Repr

/-- The text of fragments that are kept latest first. -/
def Fragment.join (latestFirst : List Fragment) : Text := latestFirst.reverse.flatMap Fragment.text

namespace OpenDirective

/-- A directive that has just been opened. -/
def begin (descriptor : Descriptor) (start : Nat) : OpenDirective :=
  ⟨descriptor, start, [], [], none, []⟩

/-- Take up a fragment, in the open slot or else in the content. -/
def add (frame : OpenDirective) (fragment : Fragment) : OpenDirective :=
  match frame.slot with
  | none => { frame with content := fragment :: frame.content }
  | some slot => { frame with slot := some { slot with content := fragment :: slot.content } }

/-- Whether a name opens a slot here: the slot is declared, and neither a group nor another slot is
open. -/
def opensSlot (frame : OpenDirective) (name : String) : Bool :=
  frame.groups.isEmpty && frame.slot.isNone && frame.descriptor.hasSlot name

/-- The directive with its content and its slots. -/
def node (frame : OpenDirective) : DirectiveNode :=
  ⟨frame.descriptor.kind, Fragment.join frame.content, frame.filled⟩

/-- The first required slot that is not filled. -/
def missingSlot? (frame : OpenDirective) : Option SlotSpec :=
  frame.descriptor.requiredSlots.find? fun slot => (frame.filled.lookup slot.name).isNone

/-- Build a directive that has been read to its end. -/
def build (frame : OpenDirective) (extraction : Extraction) (seed : String) :
    Except Fault Directive :=
  match frame.missingSlot? with
  | some slot => .error (.missingSlot frame.descriptor.kind slot.name)
  | none => frame.node.build extraction seed

end OpenDirective

/-- What stays the same while a document is read. -/
structure ReaderScope where
  document : String
  context : Context
  registry : Registry
  extraction : Extraction

/-- What has been read of a document. Lists are kept latest first; `frames` holds the open
directives, innermost first, `prose` the prose since the last directive, `hoisted` the nested
directives that follow the outermost open one, and `built` counts the directives that are closed. -/
structure Reader where
  segments : List Segment
  prose : List Fragment
  frames : List OpenDirective
  hoisted : List Directive
  built : Nat
deriving DecidableEq, Repr

/-- A fault with its offset in the scrubbed text. -/
structure FaultAt where
  offset : Nat
  fault : Fault
deriving DecidableEq, Repr

/-- The segment of the prose fragments that have been gathered, latest first. -/
def Segment.ofProse : List Fragment → List Segment
  | [] => []
  | fragments =>
    match fragments.getLast? with
    | some (.source start _) => [.prose start (Fragment.join fragments)]
    | _ => []

namespace Reader

/-- Nothing has been read. -/
def initial : Reader := ⟨[], [], [], [], 0⟩

/-- Open a directive. It must be allowed in the context. -/
def opened (scope : ReaderScope) (reader : Reader) (descriptor : Descriptor) (start : Nat) :
    Except FaultAt Reader :=
  if descriptor.allows scope.context then
    .ok { reader with frames := .begin descriptor start :: reader.frames }
  else
    .error ⟨start, .notAllowed descriptor.kind scope.context⟩

/-- Give a directive that has been built to the directive around it or to the document. -/
def place (reader : Reader) (span : Span) (directive : Directive) :
    List OpenDirective → Reader
  | [] =>
    let followers := reader.hoisted.reverse.map (Segment.directive span)
    { reader with
      segments := followers.reverse ++ .directive span directive ::
        (Segment.ofProse reader.prose ++ reader.segments)
      prose := []
      frames := []
      hoisted := []
      built := reader.built + 1 }
  | parent :: outer =>
    match directive with
    | .note content =>
      { reader with
        frames := parent.add (.nested content) :: outer
        built := reader.built + 1 }
    | other =>
      { reader with
        frames := parent :: outer
        hoisted := other :: reader.hoisted
        built := reader.built + 1 }

/-- Read a closing bracket or brace inside a directive: it must close the innermost group, or else the
open slot, or else the directive itself. -/
def closed (scope : ReaderScope) (reader : Reader) (frame : OpenDirective)
    (outer : List OpenDirective) (enclosure : Enclosure) (lexeme : Lexeme) :
    Except FaultAt Reader :=
  let unbalanced := .error ⟨lexeme.start, .unbalanced frame.descriptor.kind⟩
  match frame.groups, frame.slot with
  | group :: groups, _ =>
    if group = enclosure then
      let frame := { frame with groups := groups }
      .ok { reader with frames := frame.add (.source lexeme.start lexeme.text) :: outer }
    else
      unbalanced
  | [], some slot =>
    if slot.enclosure = enclosure then
      let filled := (slot.name, Fragment.join slot.content) :: frame.filled
      .ok { reader with frames := { frame with slot := none, filled := filled } :: outer }
    else
      unbalanced
  | [], none =>
    if enclosure = .bracket then
      match frame.build scope.extraction s!"{scope.document}#{reader.built}" with
      | .error fault => .error ⟨frame.start, fault⟩
      | .ok directive => .ok (reader.place ⟨frame.start, lexeme.stop⟩ directive outer)
    else
      unbalanced

/-- Read a name with an opening bracket or brace inside a directive: a slot of the directive, or a
nested directive. -/
def named (scope : ReaderScope) (reader : Reader) (frame : OpenDirective)
    (outer : List OpenDirective) (enclosure : Enclosure) (lexeme : Lexeme) :
    Except FaultAt Reader :=
  let name := lexeme.name
  if frame.opensSlot name then
    if (frame.filled.lookup name).isSome then
      .error ⟨lexeme.start, .duplicateSlot frame.descriptor.kind name⟩
    else
      .ok { reader with frames := { frame with slot := some ⟨name, enclosure, []⟩ } :: outer }
  else
    match enclosure, scope.registry.get? name with
    | .bracket, some descriptor => opened scope reader descriptor lexeme.start
    | _, found =>
      if found.isSome || scope.registry.isSlotName name then
        .error ⟨lexeme.start, .unexpectedSlot name frame.descriptor.kind⟩
      else
        .error ⟨lexeme.start, .unknownDirective name⟩

/-- Read a name with an opening bracket or brace in prose: a directive, or a slot out of place. -/
def namedInProse (scope : ReaderScope) (reader : Reader) (enclosure : Enclosure)
    (lexeme : Lexeme) : Except FaultAt Reader :=
  let name := lexeme.name
  match enclosure with
  | .brace => .error ⟨lexeme.start, .unexpectedSlot name none⟩
  | .bracket =>
    match scope.registry.get? name with
    | some descriptor => opened scope reader descriptor lexeme.start
    | none =>
      if scope.registry.isSlotName name then
        .error ⟨lexeme.start, .unexpectedSlot name none⟩
      else
        .error ⟨lexeme.start, .unknownDirective name⟩

/-- Read a lexeme. -/
def read (scope : ReaderScope) (reader : Reader) (lexeme : Lexeme) : Except FaultAt Reader :=
  let fragment := Fragment.source lexeme.start lexeme.text
  match reader.frames with
  | [] =>
    match lexeme.token with
    | .blockOpen => reader.namedInProse scope .bracket lexeme
    | .slotOpen => reader.namedInProse scope .brace lexeme
    | _ => .ok { reader with prose := fragment :: reader.prose }
  | frame :: outer =>
    let opens (enclosure : Enclosure) : Except FaultAt Reader :=
      let frame := frame.add fragment
      .ok { reader with
        frames := { frame with groups := enclosure :: frame.groups } :: outer }
    match lexeme.token with
    | .blockOpen => reader.named scope frame outer .bracket lexeme
    | .slotOpen => reader.named scope frame outer .brace lexeme
    | .bracketOpen => opens .bracket
    | .braceOpen => opens .brace
    | .bracketClose => reader.closed scope frame outer .bracket lexeme
    | .braceClose => reader.closed scope frame outer .brace lexeme
    | .escaped | .hash | .backslash | .text =>
      .ok { reader with frames := frame.add fragment :: outer }

/-- The segments of a document that has been read to its end. A directive that is still open has a
bracket without partner. -/
def finish (reader : Reader) : Except FaultAt (List Segment) :=
  match reader.frames with
  | [] => .ok (Segment.ofProse reader.prose ++ reader.segments).reverse
  | frame :: _ => .error ⟨frame.start, .unbalanced frame.descriptor.kind⟩

end Reader

/-- A document that has been read. -/
structure ParsedDocument where
  document : String
  context : Context
  extraction : Extraction
  segments : List Segment

namespace ParsedDocument

/-- The segments of lexemes. -/
def segmentsOf (scope : ReaderScope) (lexemes : List Lexeme) : Except FaultAt (List Segment) := do
  let reader ← lexemes.foldlM (Reader.read scope) .initial
  reader.finish

/-- Read a document. -/
def ofSource (document : String) (context : Context) (source : Text) (registry : Registry) :
    Except DocumentProblem ParsedDocument :=
  match Extraction.ofSource source with
  | .error .noSentinels => .error (.noSentinels document)
  | .error (.unterminated report) =>
    .error (.fault document ⟨report.offset, report.line⟩ (.unterminated report.kind))
  | .ok extraction =>
    let scope := ⟨document, context, registry, extraction⟩
    match segmentsOf scope (Lexeme.tokenize extraction.scrubbed) with
    | .error report =>
      .error (.fault document (extraction.locate report.offset) report.fault)
    | .ok segments => .ok ⟨document, context, extraction, segments⟩

end ParsedDocument
end Courseware
