import Mathlib.Data.List.Nodup
import Mathlib.Data.String.Basic
import Courseware.Proofs.Except
import Courseware.Proofs.Markup.Registry

/-!
# Which descriptors make a registry

A registry is made by inserting descriptors one after the other into a list that is sorted by tag. A tag
that stands already in the list is a conflict, and then the slots of each descriptor are compared with
one another and with all tags. The insertion looks no further than to the first greater tag, so it finds a
tag only because the list is sorted; this is the invariant that the run keeps.

The registry that is made is the one sorted arrangement of the descriptors, and whether there is one depends
on conditions that do not speak of an order. So the order of registration has no influence on it.
-/

namespace Courseware.Registry

/-- Every name has at most one meaning among some descriptors: no tag is registered twice, no descriptor
declares a slot twice, and no slot is named like a directive. -/
structure Unambiguous (registered : List Descriptor) : Prop where
  tags : (registered.map Descriptor.tag).Nodup
  slots : ∀ descriptor ∈ registered, (descriptor.slots.map SlotSpec.name).Nodup
  apart : ∀ descriptor ∈ registered, ∀ slot ∈ descriptor.slots, ∀ other ∈ registered,
    slot.name ≠ other.tag

/-- The conditions do not depend on the order of the descriptors. -/
theorem Unambiguous.of_perm {registered other : List Descriptor} (h : Unambiguous registered)
    (perm : registered.Perm other) : Unambiguous other where
  tags := (perm.map Descriptor.tag).nodup_iff.mp h.tags
  slots := fun descriptor hmem => h.slots descriptor (perm.mem_iff.mpr hmem)
  apart := fun descriptor hmem slot hslot directive hdirective =>
    h.apart descriptor (perm.mem_iff.mpr hmem) slot hslot directive (perm.mem_iff.mpr hdirective)

/-- Descriptors in the order of their tags, with no tag twice. -/
def Sorted (descriptors : List Descriptor) : Prop :=
  descriptors.Pairwise fun first second => first.tag < second.tag

variable {descriptor : Descriptor} {sorted inserted registered : List Descriptor}

/-! ## Insertion -/

theorem perm_of_insert (h : insert descriptor sorted = .ok inserted) :
    inserted.Perm (descriptor :: sorted) := by
  induction sorted generalizing inserted with
  | nil =>
    obtain rfl := Except.ok.inj h
    exact .refl _
  | cons first rest ih =>
    rw [insert] at h
    split at h
    · cases h
    · split at h
      · obtain rfl := Except.ok.inj h
        exact .refl _
      · obtain ⟨behind, hbehind, rfl⟩ := exists_of_map_eq_ok h
        exact ((ih hbehind).cons first).trans (.swap descriptor first rest)

theorem Sorted.insert (hsorted : Sorted sorted) (h : insert descriptor sorted = .ok inserted) :
    Sorted inserted := by
  induction sorted generalizing inserted with
  | nil =>
    obtain rfl := Except.ok.inj h
    exact List.pairwise_singleton _ _
  | cons first rest ih =>
    obtain ⟨hfirst, hrest⟩ := List.pairwise_cons.mp hsorted
    rw [Registry.insert] at h
    split at h
    · cases h
    · next hne =>
      split at h
      · next hlt =>
        obtain rfl := Except.ok.inj h
        refine List.pairwise_cons.mpr ⟨fun other hother => ?_, hsorted⟩
        rcases List.mem_cons.mp hother with rfl | hother
        · exact hlt
        · exact hlt.trans (hfirst other hother)
      · next hge =>
        obtain ⟨behind, hbehind, rfl⟩ := exists_of_map_eq_ok h
        have hgt : first.tag < descriptor.tag :=
          lt_of_le_of_ne (not_lt.mp hge) fun heq => hne (beq_iff_eq.mpr heq.symm)
        refine List.pairwise_cons.mpr ⟨fun other hother => ?_, ih hrest hbehind⟩
        rcases List.mem_cons.mp ((perm_of_insert hbehind).mem_iff.mp hother) with rfl | hother
        · exact hgt
        · exact hfirst other hother

/-- In a sorted list, a tag that stands there is found although the search stops at a greater one. -/
theorem exists_insert_iff (hsorted : Sorted sorted) :
    (∃ inserted, insert descriptor sorted = .ok inserted) ↔
      ∀ other ∈ sorted, descriptor.tag ≠ other.tag := by
  induction sorted with
  | nil => exact iff_of_true ⟨_, rfl⟩ fun _ hmem => absurd hmem List.not_mem_nil
  | cons first rest ih =>
    obtain ⟨hfirst, hrest⟩ := List.pairwise_cons.mp hsorted
    rw [List.forall_mem_cons, insert]
    by_cases heq : descriptor.tag = first.tag
    · rw [if_pos (beq_iff_eq.mpr heq)]
      exact iff_of_false (fun ⟨_, h⟩ => nomatch h) fun h => h.1 heq
    rw [if_neg (by simpa using heq)]
    by_cases hlt : descriptor.tag < first.tag
    · rw [if_pos hlt]
      exact iff_of_true ⟨_, rfl⟩ ⟨heq, fun other hother => (hlt.trans (hfirst other hother)).ne⟩
    · rw [if_neg hlt]
      constructor
      · rintro ⟨_, h⟩
        obtain ⟨behind, hbehind, -⟩ := exists_of_map_eq_ok h
        exact ⟨heq, (ih hrest).mp ⟨behind, hbehind⟩⟩
      · rintro ⟨-, hfree⟩
        obtain ⟨behind, hbehind⟩ := (ih hrest).mpr hfree
        exact ⟨first :: behind, by rw [hbehind]; rfl⟩

/-- What inserting descriptors one after the other leads to. -/
theorem spec_of_foldlM_insert (hsorted : Sorted sorted)
    (h : registered.foldlM (fun sorted descriptor => insert descriptor sorted) sorted = .ok inserted) :
    Sorted inserted ∧ inserted.Perm (registered ++ sorted) := by
  induction registered generalizing sorted with
  | nil =>
    obtain rfl := Except.ok.inj h
    exact ⟨hsorted, .refl _⟩
  | cons first rest ih =>
    obtain ⟨middle, hmiddle, hrest⟩ := foldlM_cons_eq_ok_iff.mp h
    obtain ⟨hinserted, hperm⟩ := ih (hsorted.insert hmiddle) hrest
    refine ⟨hinserted, hperm.trans ?_⟩
    exact ((perm_of_insert hmiddle).append_left rest).trans List.perm_middle

theorem exists_foldlM_insert (hsorted : Sorted sorted)
    (distinct : ((registered ++ sorted).map Descriptor.tag).Nodup) :
    ∃ inserted,
      registered.foldlM (fun sorted descriptor => insert descriptor sorted) sorted = .ok inserted := by
  induction registered generalizing sorted with
  | nil => exact ⟨sorted, rfl⟩
  | cons first rest ih =>
    rw [List.cons_append, List.map_cons, List.nodup_cons] at distinct
    obtain ⟨hfresh, hdistinct⟩ := distinct
    have hfree : ∀ other ∈ sorted, first.tag ≠ other.tag := fun other hother heq =>
      hfresh (heq ▸ List.mem_map_of_mem (List.mem_append_right rest hother))
    obtain ⟨middle, hmiddle⟩ := (exists_insert_iff hsorted).mpr hfree
    have hperm : (rest ++ middle).Perm (first :: (rest ++ sorted)) :=
      ((perm_of_insert hmiddle).append_left rest).trans List.perm_middle
    obtain ⟨inserted, hinserted⟩ := ih (hsorted.insert hmiddle) <| by
      rw [(hperm.map Descriptor.tag).nodup_iff, List.map_cons, List.nodup_cons]
      exact ⟨hfresh, hdistinct⟩
    exact ⟨inserted, foldlM_cons_eq_ok_iff.mpr ⟨middle, hmiddle, hinserted⟩⟩

/-- Unambiguous descriptors can be sorted. -/
theorem Unambiguous.exists_foldlM_insert (h : Unambiguous registered) :
    ∃ inserted,
      registered.foldlM (fun sorted descriptor => insert descriptor sorted) [] = .ok inserted ∧
        Sorted inserted ∧ inserted.Perm registered := by
  have hdistinct : ((registered ++ []).map Descriptor.tag).Nodup := by
    rw [List.append_nil]
    exact h.tags
  obtain ⟨inserted, hfold⟩ := Registry.exists_foldlM_insert .nil hdistinct
  obtain ⟨hsorted, hperm⟩ := spec_of_foldlM_insert .nil hfold
  exact ⟨inserted, hfold, hsorted, by rwa [List.append_nil] at hperm⟩

/-! ## What is made -/

/-- A registry is made from descriptors exactly when these are unambiguous, and it holds them in the order of
their tags. -/
theorem ofDescriptors_eq_ok_iff {registry : Registry} :
    ofDescriptors registered = .ok registry ↔
      Unambiguous registered ∧ Sorted registry.descriptors ∧ registry.descriptors.Perm registered := by
  rw [ofDescriptors_eq_ok_iff_foldlM]
  simp only [slotConflict?_eq_none_iff]
  constructor
  · rintro ⟨hfold, hslots⟩
    obtain ⟨hsorted, hperm⟩ := spec_of_foldlM_insert .nil hfold
    rw [List.append_nil] at hperm
    have hunambiguous : Unambiguous registry.descriptors :=
      { tags := by
          rw [List.Nodup, List.pairwise_map]
          exact hsorted.imp fun hlt => hlt.ne
        slots := fun descriptor hmem => (hslots descriptor hmem).1
        apart := fun descriptor hmem slot hslot other hother heq =>
          (hslots descriptor hmem).2.1 slot hslot (heq ▸ List.mem_map_of_mem hother) }
    exact ⟨hunambiguous.of_perm hperm, hsorted, hperm⟩
  · rintro ⟨hunambiguous, hsorted, hperm⟩
    obtain ⟨inserted, hfold, hinserted, hinsertedPerm⟩ := hunambiguous.exists_foldlM_insert
    have hsame : inserted = registry.descriptors :=
      (hinsertedPerm.trans hperm.symm).eq_of_pairwise
        (fun first second _ _ hlt hgt => absurd hlt hgt.asymm) hinserted hsorted
    have hheld := hunambiguous.of_perm hperm.symm
    refine ⟨hsame ▸ hfold, fun descriptor hmem => ⟨hheld.slots descriptor hmem, ?_, ?_⟩⟩
    · intro slot hslot htag
      obtain ⟨other, hother, heq⟩ := List.mem_map.mp htag
      exact hheld.apart descriptor hmem slot hslot other hother heq.symm
    · exact fun slot _ => List.not_mem_nil

-- The standard registry is the one that is made from all kinds.
example : ofDescriptors (DirectiveKind.all.map DirectiveKind.descriptor) = .ok standard := by decide

theorem exists_ofDescriptors_iff :
    (∃ registry, ofDescriptors registered = .ok registry) ↔ Unambiguous registered := by
  constructor
  · rintro ⟨registry, built⟩
    exact (ofDescriptors_eq_ok_iff.mp built).1
  · intro hunambiguous
    obtain ⟨inserted, -, hsorted, hperm⟩ := hunambiguous.exists_foldlM_insert
    exact ⟨⟨inserted⟩, ofDescriptors_eq_ok_iff.mpr ⟨hunambiguous, hsorted, hperm⟩⟩

/-- Looking up a tag finds the descriptor that was registered with it. -/
theorem get?_eq_some_iff {registry : Registry} (built : ofDescriptors registered = .ok registry)
    {name : String} : registry.get? name = some descriptor ↔
      descriptor ∈ registered ∧ descriptor.tag = name := by
  obtain ⟨hunambiguous, -, hperm⟩ := ofDescriptors_eq_ok_iff.mp built
  have found : ∀ {other}, registry.get? name = some other → other ∈ registered ∧ other.tag = name := by
    intro other hother
    obtain ⟨hmem, htag⟩ := spec_of_get? hother
    exact ⟨hperm.mem_iff.mp hmem, htag⟩
  refine ⟨found, ?_⟩
  rintro ⟨hmem, htag⟩
  have hsome : (registry.get? name).isSome := by
    rw [get?, List.find?_isSome]
    exact ⟨descriptor, hperm.mem_iff.mpr hmem, beq_iff_eq.mpr htag⟩
  obtain ⟨other, hother⟩ := Option.isSome_iff_exists.mp hsome
  obtain ⟨hotherMem, hotherTag⟩ := found hother
  rw [hother, List.inj_on_of_nodup_map hunambiguous.tags hotherMem hmem (hotherTag.trans htag.symm)]

/-- The slot names of a registry are those that were declared. -/
theorem isSlotName_iff {registry : Registry} (built : ofDescriptors registered = .ok registry)
    {name : String} : registry.isSlotName name = true ↔
      ∃ descriptor ∈ registered, ∃ slot ∈ descriptor.slots, slot.name = name := by
  obtain ⟨-, -, hperm⟩ := ofDescriptors_eq_ok_iff.mp built
  simp only [isSlotName, Descriptor.hasSlot, List.any_eq_true, beq_iff_eq, hperm.mem_iff]

/-- A registry is made from descriptors exactly when they are unambiguous. It finds exactly these descriptors,
knows exactly their slots, and no name is both a tag and a slot. Descriptors that are registered in another
order make the same registry, or none either. -/
theorem ofDescriptors_unambiguous (registered : List Descriptor) :
    ((∃ registry, ofDescriptors registered = .ok registry) ↔ Unambiguous registered) ∧
    (∀ registry, ofDescriptors registered = .ok registry →
      (∀ name descriptor, registry.get? name = some descriptor ↔
        descriptor ∈ registered ∧ descriptor.tag = name) ∧
      (∀ name, registry.isSlotName name = true ↔
        ∃ descriptor ∈ registered, ∃ slot ∈ descriptor.slots, slot.name = name) ∧
      ∀ name, registry.isSlotName name = true → registry.get? name = none) ∧
    ∀ other, registered.Perm other → ∀ registry,
      ofDescriptors registered = .ok registry ↔ ofDescriptors other = .ok registry := by
  refine ⟨exists_ofDescriptors_iff, ?_, ?_⟩
  · intro registry built
    refine ⟨fun name descriptor => get?_eq_some_iff built, fun name => isSlotName_iff built, ?_⟩
    intro name declared
    obtain ⟨descriptor, hmem, slot, hslot, rfl⟩ := (isSlotName_iff built).mp declared
    rw [Option.eq_none_iff_forall_ne_some]
    intro found hfound
    obtain ⟨hfoundMem, htag⟩ := (get?_eq_some_iff built).mp hfound
    exact (ofDescriptors_eq_ok_iff.mp built).1.apart descriptor hmem slot hslot found hfoundMem htag.symm
  · intro other perm registry
    rw [ofDescriptors_eq_ok_iff, ofDescriptors_eq_ok_iff]
    constructor
    · rintro ⟨hunambiguous, hsorted, hperm⟩
      exact ⟨hunambiguous.of_perm perm, hsorted, hperm.trans perm⟩
    · rintro ⟨hunambiguous, hsorted, hperm⟩
      exact ⟨hunambiguous.of_perm perm.symm, hsorted, hperm.trans perm.symm⟩

/-- Two descriptors that are registered in one order and in the other. -/
theorem ofDescriptors_unambiguous_twoOrders :
    ∃ registry, ofDescriptors [DirectiveKind.note.descriptor, DirectiveKind.codeTask.descriptor] =
        .ok registry ∧
      ofDescriptors [DirectiveKind.codeTask.descriptor, DirectiveKind.note.descriptor] = .ok registry ∧
      registry.get? "note" = some DirectiveKind.note.descriptor ∧
      registry.isSlotName "code" = true ∧ registry.get? "code" = none := by
  obtain ⟨-, spec, alike⟩ := ofDescriptors_unambiguous
    [DirectiveKind.note.descriptor, DirectiveKind.codeTask.descriptor]
  have built : ofDescriptors [DirectiveKind.note.descriptor, DirectiveKind.codeTask.descriptor] =
      .ok ⟨[DirectiveKind.codeTask.descriptor, DirectiveKind.note.descriptor]⟩ := by
    decide
  obtain ⟨finds, declares, disjoint⟩ := spec _ built
  have declared := (declares "code").mpr ⟨DirectiveKind.codeTask.descriptor, by decide, ⟨"code", true⟩,
    by decide, rfl⟩
  exact ⟨_, built, (alike _ (List.Perm.swap _ _ _) _).mp built,
    (finds "note" _).mpr ⟨by decide, rfl⟩, declared, disjoint _ declared⟩

end Courseware.Registry
