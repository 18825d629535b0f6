import Courseware.Json.Token

/-!
# Reading JSON

Tokens are taken one after the other by a machine that keeps the containers which are still open,
innermost first, and knows what may come next. A text is the value that the machine holds when no
container is open at its end. Members are sorted by key; of several with one key the last is kept.
-/

namespace Courseware.Json

/-- A container that is open: the items of an array so far, latest first, or the members of an object
so far with the key of the member whose value is being read. -/
inductive Frame
  | array (items : List Json)
  | object (members : List (String × Json)) (key : String)
deriving Repr, Inhabited

/-- What may come next. -/
inductive Expected
  | value
  | itemOrEnd
  | key (members : List (String × Json))
  | keyOrEnd
  | colon (members : List (String × Json)) (key : String)
  /-- A value is complete; its container goes on or ends. -/
  | separator (value : Json)
deriving Repr, Inhabited

/-- A machine that reads tokens. -/
structure Machine where
  expected : Expected
  frames : List Frame
deriving Repr, Inhabited

namespace Machine

/-- No container may lie deeper than this. -/
def maxDepth : Nat := 127

/-- Open a container. -/
def push? (machine : Machine) (expected : Expected) (frame : List Frame) : Option Machine :=
  if machine.frames.length + 1 ≤ maxDepth then some ⟨expected, frame⟩ else none

/-- Read a token. -/
def read? (machine : Machine) (token : Token) : Option Machine :=
  let frames := machine.frames
  match machine.expected, token with
  | .value, .scalar value | .itemOrEnd, .scalar value => some ⟨.separator value, frames⟩
  | .value, .openArray | .itemOrEnd, .openArray => machine.push? .itemOrEnd (.array [] :: frames)
  | .value, .openObject | .itemOrEnd, .openObject =>
    machine.push? .keyOrEnd (.object [] "" :: frames)
  | .itemOrEnd, .closeArray => some ⟨.separator (array []), frames.tail⟩
  | .keyOrEnd, .closeObject => some ⟨.separator (object []), frames.tail⟩
  | .keyOrEnd, .scalar (.string key) => some ⟨.colon [] key, frames.tail⟩
  | .key members, .scalar (.string key) => some ⟨.colon members key, frames⟩
  | .colon members key, .colon => some ⟨.value, .object members key :: frames⟩
  | .separator value, .comma =>
    match frames with
    | .array items :: outer => some ⟨.value, .array (value :: items) :: outer⟩
    | .object members key :: outer => some ⟨.key (insertMember key value members), outer⟩
    | [] => none
  | .separator value, .closeArray =>
    match frames with
    | .array items :: outer => some ⟨.separator (array (value :: items).reverse), outer⟩
    | _ => none
  | .separator value, .closeObject =>
    match frames with
    | .object members key :: outer =>
      some ⟨.separator (object (insertMember key value members)), outer⟩
    | _ => none
  | _, _ => none

end Machine

/-- The value that a text stands for. -/
def parse? (text : Text) : Option Json := do
  let tokens ← Token.scan? text.length text
  let machine ← tokens.foldlM Machine.read? ⟨.value, []⟩
  match machine with
  | ⟨.separator value, []⟩ => some value
  | _ => none

end Courseware.Json
