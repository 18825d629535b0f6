/-!
# Registry

The directives that a document may use are a closed set of kinds. A descriptor says which slots a
directive of a kind takes and in which contexts it may stand; a registry is a set of descriptors in
which every name is unambiguous: no two descriptors have one tag, no descriptor declares one slot
twice, and no slot is named like a directive of the registry.
-/

namespace Courseware

/-- The kind of document in which a directive stands. -/
inductive Context
  | page
  | slides
  | worksheet
deriving DecidableEq, Repr

/-- The name of a context. -/
def Context.name : Context → String
  | page => "page"
  | slides => "slides"
  | worksheet => "worksheet"

/-- Every context. -/
def Context.all : List Context := [page, slides, worksheet]

/-- The kinds of directives. -/
inductive DirectiveKind
  | note
  | presenterNote
  | textTask
  | mathTask
  | codeTask
  | choice
  | gap
deriving DecidableEq, Repr

/-- A slot that a directive takes. -/
structure SlotSpec where
  name : String
  required : Bool
deriving DecidableEq, Repr

/-- How directives of one kind may be used. No contexts means every context. -/
structure Descriptor where
  kind : DirectiveKind
  slots : List SlotSpec
  contexts : List Context
deriving DecidableEq, Repr

namespace DirectiveKind

/-- Every kind, in the order in which the standard registry takes them. -/
def all : List DirectiveKind := [note, presenterNote, textTask, mathTask, codeTask, choice, gap]

/-- The name by which documents call a directive. -/
def tag : DirectiveKind → String
  | note => "note"
  | presenterNote => "pn"
  | textTask => "textTask"
  | mathTask => "mathTask"
  | codeTask => "codeTask"
  | choice => "mcq"
  | gap => "gap"

/-- The kind with a tag. -/
def ofTag? (name : String) : Option DirectiveKind := all.find? fun kind => kind.tag == name

/-- The descriptor that the standard registry has for a kind. -/
def descriptor : DirectiveKind → Descriptor
  | presenterNote => ⟨presenterNote, [], [.slides]⟩
  | textTask => ⟨textTask, [⟨"hint", false⟩, ⟨"solution", false⟩], []⟩
  | mathTask => ⟨mathTask, [⟨"hint", true⟩, ⟨"solution", true⟩], []⟩
  | codeTask => ⟨codeTask, [⟨"code", true⟩, ⟨"solution", false⟩], []⟩
  | kind => ⟨kind, [], []⟩

end DirectiveKind

namespace Descriptor

/-- The tag of the kind that is described. -/
def tag (descriptor : Descriptor) : String := descriptor.kind.tag

/-- Whether a slot is declared. -/
def hasSlot (descriptor : Descriptor) (name : String) : Bool :=
  descriptor.slots.any fun slot => slot.name == name

/-- Whether directives of this kind may stand in a context. -/
def allows (descriptor : Descriptor) (context : Context) : Bool :=
  descriptor.contexts.isEmpty || descriptor.contexts.contains context

/-- The slots that must be filled, in declared order. -/
def requiredSlots (descriptor : Descriptor) : List SlotSpec :=
  descriptor.slots.filter fun slot => slot.required

end Descriptor

/-- Why descriptors do not make a registry. -/
inductive RegistryConflict
  | registeredTwice (tag : String)
  | slotTwice (tag slot : String)
  | slotShadows (slot tag : String)
deriving DecidableEq, Repr

/-- The wording of a conflict. -/
def RegistryConflict.message : RegistryConflict → String
  | registeredTwice tag => s!"macro `{tag}` is registered twice"
  | slotTwice tag slot => s!"macro `{tag}` declares the slot `{slot}` twice"
  | slotShadows slot tag => s!"slot `{slot}` of macro `{tag}` shadows the macro of the same name"

/-- Descriptors sorted by tag. `Registry.ofDescriptors` makes the ones without conflict. -/
structure Registry where
  descriptors : List Descriptor
deriving DecidableEq, Repr

namespace Registry

/-- Insert a descriptor by its tag. A tag that is there already is a conflict. -/
def insert (descriptor : Descriptor) :
    List Descriptor → Except RegistryConflict (List Descriptor)
  | [] => .ok [descriptor]
  | first :: rest =>
    if descriptor.tag == first.tag then
      .error (.registeredTwice descriptor.tag)
    else if descriptor.tag < first.tag then
      .ok (descriptor :: first :: rest)
    else
      (insert descriptor rest).map (first :: ·)

/-- The first conflict among the slots of a descriptor. `earlier` holds the slots before them. -/
def slotConflict? (tags : List String) (tag : String) (earlier : List String) :
    List SlotSpec → Option RegistryConflict
  | [] => none
  | slot :: rest =>
    if earlier.contains slot.name then some (.slotTwice tag slot.name)
    else if tags.contains slot.name then some (.slotShadows slot.name tag)
    else slotConflict? tags tag (slot.name :: earlier) rest

/-- The registry of some descriptors. Tags are compared first, in the order of registration, then
the slots of each descriptor in the order of tags. -/
def ofDescriptors (registered : List Descriptor) : Except RegistryConflict Registry := do
  let sorted ← registered.foldlM (fun sorted descriptor => insert descriptor sorted) []
  let tags := sorted.map Descriptor.tag
  match sorted.findSome? fun descriptor =>
      slotConflict? tags descriptor.tag [] descriptor.slots with
  | some conflict => .error conflict
  | none => .ok ⟨sorted⟩

/-- The registry of every kind with its own descriptor. -/
def standard : Registry :=
  ⟨[DirectiveKind.codeTask, .gap, .mathTask, .choice, .note, .presenterNote, .textTask].map
    DirectiveKind.descriptor⟩

/-- The descriptor with a tag. -/
def get? (registry : Registry) (tag : String) : Option Descriptor :=
  registry.descriptors.find? fun descriptor => descriptor.tag == tag

/-- Whether some descriptor declares a slot of this name. -/
def isSlotName (registry : Registry) (name : String) : Bool :=
  registry.descriptors.any fun descriptor => descriptor.hasSlot name

end Registry
end Courseware
