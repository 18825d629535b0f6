import Courseware.Proofs.Markup.Step

/-!
# The outline of a reader

How lexemes are nested does not depend on the texts that are read. The outline of an open directive
keeps its descriptor, the names of its filled slots, the slot that is open and the groups that are
open, and forgets all content. Whether a step can be taken is decided by the outlines of the open
directives and, where a directive closes, by its builder; this module says what each step does to
the outlines.
-/

namespace Courseware

/-- An open directive without its content. -/
structure Outline where
  descriptor : Descriptor
  filled : List String
  slot : Option (String × Enclosure)
  groups : List Enclosure
deriving DecidableEq, Repr

namespace OpenDirective

/-- The outline of an open directive. -/
def outline (frame : OpenDirective) : Outline where
  descriptor := frame.descriptor
  filled := frame.filled.map Prod.fst
  slot := frame.slot.map fun slot => (slot.name, slot.enclosure)
  groups := frame.groups

@[simp]
theorem outline_add (frame : OpenDirective) (fragment : Fragment) :
    (frame.add fragment).outline = frame.outline := by
  obtain ⟨descriptor, start, content, filled, slot, groups⟩ := frame
  cases slot <;> rfl

theorem opensSlot_eq (frame : OpenDirective) (name : String) :
    frame.opensSlot name =
      (frame.outline.groups.isEmpty && frame.outline.slot.isNone &&
        frame.outline.descriptor.hasSlot name) := by
  obtain ⟨descriptor, start, content, filled, slot, groups⟩ := frame
  cases slot <;> rfl

/-- A slot has no filling exactly when its name is not among the filled ones. -/
theorem lookup_filled_eq_none_iff (frame : OpenDirective) (name : String) :
    frame.filled.lookup name = none ↔ name ∉ frame.outline.filled := by
  rw [List.lookup_eq_none_iff, outline, List.mem_map]
  constructor
  · rintro h ⟨pair, hpair, rfl⟩
    simpa using h pair hpair
  · intro h pair hpair
    rw [bne_iff_ne]
    rintro rfl
    exact h ⟨pair, hpair, rfl⟩

/-- No required slot is missing exactly when all are among the filled ones. -/
theorem missingSlot?_eq_none_iff (frame : OpenDirective) :
    frame.missingSlot? = none ↔
      ∀ slot ∈ frame.outline.descriptor.requiredSlots, slot.name ∈ frame.outline.filled := by
  rw [missingSlot?, List.find?_eq_none]
  refine forall₂_congr fun slot _ => ?_
  rw [Option.isNone_iff_eq_none, lookup_filled_eq_none_iff, Decidable.not_not]

end OpenDirective

namespace Reader

/-- The outlines of the open directives, innermost first. -/
def outlines (reader : Reader) : List Outline := reader.frames.map OpenDirective.outline

theorem outlines_eq_nil_iff {reader : Reader} : reader.outlines = [] ↔ reader.frames = [] :=
  List.map_eq_nil_iff

/-- Placing a directive that has been built leaves the outlines around it as they are. -/
@[simp]
theorem outlines_place (reader : Reader) (span : Span) (directive : Directive)
    (outer : List OpenDirective) :
    (reader.place span directive outer).outlines = outer.map OpenDirective.outline := by
  cases outer with
  | nil => rfl
  | cons parent outer =>
    cases directive with
    | note content => simp [place, outlines]
    | presenterNote content => rfl
    | task task => rfl

end Reader
end Courseware
