import Mathlib.Data.Fintype.EquivFin
import Mathlib.Data.List.FinRange
import Mathlib.Data.List.OfFn
import Courseware.Shuffle

/-!
# Shuffling is blind

Which items are exchanged depends on their number and on the seed, and not on the items. So shuffling
commutes with whatever is done to each item, and lists of one length that are shuffled with one seed
agree afterwards only if they agreed before. What is done to the places of a list, a permutation, is done
to every list of that length.
-/

namespace Courseware

variable {α β : Type}

namespace Generator

theorem map_swapIfInBounds (f : α → β) (items : Array α) (first second : Nat) :
    (items.swapIfInBounds first second).map f = (items.map f).swapIfInBounds first second := by
  apply Array.ext
  · simp
  · intro index hleft hright
    simp only [Array.getElem_map, Array.getElem_swapIfInBounds, Array.size_map]
    split
    · rfl
    · split <;> rfl

/-- Exchanging two items back gives the array as it was. -/
theorem swapIfInBounds_swapIfInBounds (items : Array α) (first second : Nat) :
    (items.swapIfInBounds first second).swapIfInBounds first second = items := by
  by_cases hfirst : first < items.size
  · by_cases hsecond : second < items.size
    · simp [Array.swapIfInBounds_def, hfirst, hsecond]
    · simp [Array.swapIfInBounds_def, hfirst, hsecond]
  · simp [Array.swapIfInBounds_def, hfirst]

/-- The item that is exchanged with the one with index `last + 1`. -/
def partner (number : UInt32) (last : Nat) : Nat := min (pick number (last + 2)) (last + 1)

/-- One exchange, by the number that is drawn for it. -/
theorem exchange_of_next {generator following : Generator} {number : UInt32}
    (drawn : generator.next = (number, following)) (items : Array α) (last : Nat) :
    generator.exchange items (last + 1) =
      following.exchange (items.swapIfInBounds (last + 1) (partner number last)) last := by
  rw [exchange.eq_def generator items (last + 1), drawn, partner]

theorem map_exchange (f : α → β) (generator : Generator) (items : Array α) (last : Nat) :
    (generator.exchange items last).map f = generator.exchange (items.map f) last := by
  induction last generalizing generator items with
  | zero => rfl
  | succ last ih =>
    obtain ⟨⟨number, following⟩, drawn⟩ : ∃ pair, generator.next = pair := ⟨_, rfl⟩
    rw [exchange_of_next drawn, exchange_of_next drawn, ih, map_swapIfInBounds]

/-- The exchanges can be undone one by one, so they lose nothing. -/
theorem exchange_injective {generator : Generator} {first second : Array α} {last : Nat}
    (h : generator.exchange first last = generator.exchange second last) : first = second := by
  induction last generalizing generator first second with
  | zero => exact h
  | succ last ih =>
    obtain ⟨⟨number, following⟩, drawn⟩ : ∃ pair, generator.next = pair := ⟨_, rfl⟩
    rw [exchange_of_next drawn, exchange_of_next drawn] at h
    rw [← swapIfInBounds_swapIfInBounds first (last + 1) (partner number last), ih h,
      swapIfInBounds_swapIfInBounds]

theorem size_exchange (generator : Generator) (items : Array α) (last : Nat) :
    (generator.exchange items last).size = items.size := by
  induction last generalizing generator items with
  | zero => rfl
  | succ last ih =>
    obtain ⟨⟨number, following⟩, drawn⟩ : ∃ pair, generator.next = pair := ⟨_, rfl⟩
    rw [exchange_of_next drawn, ih, Array.size_swapIfInBounds]

/-- Exchanging items loses and adds none. -/
theorem perm_exchange (generator : Generator) (items : Array α) (last : Nat) :
    (generator.exchange items last).Perm items := by
  induction last generalizing generator items with
  | zero => exact Array.Perm.refl items
  | succ last ih =>
    obtain ⟨⟨number, following⟩, drawn⟩ : ∃ pair, generator.next = pair := ⟨_, rfl⟩
    rw [exchange_of_next drawn]
    refine (ih following _).trans ?_
    rw [Array.swapIfInBounds_def]
    split
    · split
      · exact Array.swap_perm _ _
      · exact Array.Perm.refl items
    · exact Array.Perm.refl items

end Generator

theorem perm_shuffle (items : List α) (seed : String) : (shuffle items seed).Perm items := by
  have hperm := Generator.perm_exchange (Generator.ofSeed seed) items.toArray (items.length - 1)
  exact Array.perm_iff_toList_perm.mp hperm

theorem map_shuffle (f : α → β) (items : List α) (seed : String) :
    (shuffle items seed).map f = shuffle (items.map f) seed := by
  rw [shuffle, shuffle, ← Array.toList_map, Generator.map_exchange, List.map_toArray,
    List.length_map]

theorem length_shuffle (items : List α) (seed : String) :
    (shuffle items seed).length = items.length := by
  rw [shuffle, Array.length_toList, Generator.size_exchange, List.size_toArray]

/-- Lists that are the same after shuffling with one seed were the same before. -/
theorem shuffle_injective {first second : List α} {seed : String}
    (h : shuffle first seed = shuffle second seed) : first = second := by
  have hlength := congrArg List.length h
  rw [length_shuffle, length_shuffle] at hlength
  rw [shuffle, shuffle, hlength] at h
  exact congrArg Array.toList (Generator.exchange_injective (Array.toList_inj.mp h))

/-- The places of a list are shuffled by a permutation. -/
theorem exists_shuffle_finRange (count : Nat) (seed : String) :
    ∃ order : Equiv.Perm (Fin count), shuffle (List.finRange count) seed = List.ofFn order := by
  have hlength : (shuffle (List.finRange count) seed).length = count := by
    rw [length_shuffle, List.length_finRange]
  have hnodup : (shuffle (List.finRange count) seed).Nodup :=
    (perm_shuffle _ seed).nodup_iff.mpr (List.nodup_finRange count)
  have injective : Function.Injective fun place : Fin count =>
      (shuffle (List.finRange count) seed).get (place.cast hlength.symm) := by
    intro first second same
    exact Fin.cast_injective _ (List.nodup_iff_injective_get.mp hnodup same)
  refine ⟨Equiv.ofBijective _ (Finite.injective_iff_bijective.mp injective), ?_⟩
  exact (List.ofFn_get _).symm.trans (List.ofFn_congr hlength _)

/-- The permutation by which lists are shuffled depends on their length and on the seed only. -/
theorem exists_order_shuffle (seed : String) :
    ∃ order : (count : Nat) → Equiv.Perm (Fin count), ∀ (α : Type) (items : List α),
      shuffle items seed = List.ofFn fun place => items.get (order items.length place) := by
  choose order horder using fun count => exists_shuffle_finRange count seed
  refine ⟨order, fun α items => ?_⟩
  calc shuffle items seed
    _ = shuffle ((List.finRange items.length).map items.get) seed := by
      rw [List.map_get_finRange]
    _ = (List.ofFn (order items.length)).map items.get := by
      rw [← map_shuffle, horder]
    _ = List.ofFn fun place => items.get (order items.length place) := List.map_ofFn

end Courseware
