import Courseware.Markup.Registry

/-!
# Names in a registry are unambiguous

A registry that was built from descriptors gives every name one meaning: what is the tag of a
directive is the slot of no directive. This is what lets a reader decide by the name alone whether an
opening is a slot or a directive.
-/

namespace Courseware.Registry

/-- A registry holds the descriptors that were sorted, and none of them has a conflict among its
slots. -/
theorem ofDescriptors_eq_ok_iff_foldlM {registered : List Descriptor} {registry : Registry} :
    ofDescriptors registered = .ok registry ↔
      registered.foldlM (fun sorted descriptor => insert descriptor sorted) [] =
          .ok registry.descriptors ∧
        ∀ descriptor ∈ registry.descriptors,
          slotConflict? (registry.descriptors.map Descriptor.tag) descriptor.tag [] descriptor.slots =
            none := by
  unfold ofDescriptors
  cases hsorted : registered.foldlM (fun sorted descriptor => insert descriptor sorted) [] with
  | error conflict => exact iff_of_false (fun h => nomatch h) fun h => nomatch h.1
  | ok sorted =>
    simp only [bind, Except.bind]
    rw [Except.ok.injEq]
    split
    · next conflict hconflict =>
      refine iff_of_false (fun h => nomatch h) ?_
      rintro ⟨rfl, hnone⟩
      rw [List.findSome?_eq_none_iff.mpr hnone] at hconflict
      cases hconflict
    · next hnone =>
      rw [Except.ok.injEq]
      constructor
      · rintro rfl
        exact ⟨rfl, List.findSome?_eq_none_iff.mp hnone⟩
      · rintro ⟨rfl, -⟩
        rfl

/-- Slots have no conflict when none of them has the name of another, of one before them, or of a tag. -/
theorem slotConflict?_eq_none_iff {tags : List String} {tag : String} {earlier : List String}
    {slots : List SlotSpec} :
    slotConflict? tags tag earlier slots = none ↔
      (slots.map SlotSpec.name).Nodup ∧ (∀ slot ∈ slots, slot.name ∉ tags) ∧
        ∀ slot ∈ slots, slot.name ∉ earlier := by
  induction slots generalizing earlier with
  | nil => simp [slotConflict?]
  | cons first rest ih =>
    rw [slotConflict?, List.map_cons, List.nodup_cons, List.forall_mem_cons, List.forall_mem_cons]
    by_cases hearlier : first.name ∈ earlier
    · simp [hearlier]
    rw [if_neg (by simpa using hearlier)]
    by_cases htag : first.name ∈ tags
    · simp [htag]
    rw [if_neg (by simpa using htag), ih]
    simp only [hearlier, htag, not_false_eq_true, true_and, List.mem_cons, not_or, List.mem_map,
      not_exists, not_and]
    constructor
    · rintro ⟨hnodup, hfree, hfresh⟩
      exact ⟨⟨fun slot hslot => (hfresh slot hslot).1, hnodup⟩, hfree,
        fun slot hslot => (hfresh slot hslot).2⟩
    · rintro ⟨⟨hnew, hnodup⟩, hfree, hfresh⟩
      exact ⟨hnodup, hfree, fun slot hslot => ⟨hnew slot hslot, hfresh slot hslot⟩⟩

/-- A descriptor that is found is one of the registry, and has the tag that was looked up. -/
theorem spec_of_get? {registry : Registry} {name : String} {descriptor : Descriptor}
    (h : registry.get? name = some descriptor) :
    descriptor ∈ registry.descriptors ∧ descriptor.tag = name := by
  have htag := List.find?_some h
  exact ⟨List.mem_of_find?_eq_some h, by simpa using htag⟩

/-- The tag of a directive is the name of no slot. -/
theorem hasSlot_eq_false_of_get? {registered : List Descriptor} {registry : Registry}
    (built : ofDescriptors registered = .ok registry) {name : String}
    {descriptor found : Descriptor} (hmem : descriptor ∈ registry.descriptors)
    (hfound : registry.get? name = some found) : descriptor.hasSlot name = false := by
  obtain ⟨hfoundMem, htag⟩ := spec_of_get? hfound
  obtain ⟨-, noConflict⟩ := ofDescriptors_eq_ok_iff_foldlM.mp built
  obtain ⟨-, hfree, -⟩ := slotConflict?_eq_none_iff.mp (noConflict descriptor hmem)
  rw [Descriptor.hasSlot, List.any_eq_false]
  intro slot hslot hname
  apply hfree slot hslot
  rw [eq_of_beq hname, ← htag]
  exact List.mem_map_of_mem hfoundMem

end Courseware.Registry
