import Courseware.Proofs.Float.Dyadic
import Courseware.Proofs.Task.Shuffle

/-!
# Which items are exchanged

A list is shuffled by exchanging its items from the last to the second, each with one that is picked for
it. The pick is computed in double precision: a number of 32 bits as a fraction of 2³², times the number of
items to pick from, rounded down. Among up to 2²¹ items nothing is rounded before that, because the product
of the number and the number of items stays below 2⁵³. So the pick is the quotient of whole numbers, it is
one of the items to pick from, and bounding it changes nothing.

What is left of a list then is a fixed order of its places. It is unique, since the list of all places is
one of the lists that are shuffled.
-/

namespace Courseware

namespace Generator

theorem isExactly_fraction (number : UInt32) :
    Dyadic.IsExactly (fraction number) number.toNat (-32) := by
  have hunit : Dyadic.IsExactly 4294967296.0 1 32 := rfl
  have hbound := number.toNat_lt
  exact (Dyadic.isExactly_ofUInt32 number).div hunit (by omega) (by decide) (by decide)

/-- Among up to 2²¹ items the pick is a quotient of whole numbers. -/
theorem pick_eq_of_le {count : Nat} (few : count ≤ 2 ^ 21) (number : UInt32) :
    pick number count = number.toNat * count / 2 ^ 32 := by
  have hbound := number.toNat_lt
  have hproduct : number.toNat * count < 2 ^ 53 := by
    calc number.toNat * count
      _ ≤ number.toNat * 2 ^ 21 := Nat.mul_le_mul_left _ few
      _ < 2 ^ 32 * 2 ^ 21 := Nat.mul_lt_mul_of_pos_right hbound (by decide)
      _ = 2 ^ 53 := by decide
  have hcount : count.toUInt64.toNat = count := by
    rw [Nat.toUInt64, UInt64.toNat_ofNat', Nat.mod_eq_of_lt (by omega)]
  have hsize : Dyadic.IsExactly count.toUInt64.toFloat count 0 := by
    have h : Dyadic.IsExactly count.toUInt64.toFloat count.toUInt64.toNat 0 :=
      Dyadic.isExactly_ofUInt64 (by omega)
    rwa [hcount] at h
  exact ((isExactly_fraction number).mul hsize hproduct (by decide) (by decide)).toNat_toUInt64 hproduct

-- Among more items a product may need 54 bits, and then it is rounded, here up to the next index.
example : pick 4294785079 2097785 = 2097696 ∧ 4294785079 * 2097785 / 2 ^ 32 = 2097695 := by decide

/-- The pick is the index of one of the items to pick from. -/
theorem pick_le_of_lt {index : Nat} (few : index < 2 ^ 21) (number : UInt32) :
    pick number (index + 1) ≤ index := by
  have hbound := number.toNat_lt
  rw [pick_eq_of_le few, Nat.le_iff_lt_add_one, Nat.div_lt_iff_lt_mul (by decide), mul_comm]
  exact Nat.mul_lt_mul_of_pos_left hbound (by omega)

/-- The exchanges down to the second item, each as the number that is drawn for it and the index of the
item that is exchanged. -/
def draws (generator : Generator) (last : Nat) : List (UInt32 × Nat) :=
  (generator.take last).zip (List.range' 1 last).reverse

theorem draws_succ (generator : Generator) (last : Nat) :
    generator.draws (last + 1) = (generator.next.1, last + 1) :: generator.next.2.draws last := by
  rw [draws, take, List.range'_1_concat, List.reverse_append, Nat.add_comm 1 last]
  rfl

theorem index_of_mem_draws {generator : Generator} {last : Nat} {draw : UInt32 × Nat}
    (h : draw ∈ generator.draws last) : 0 < draw.2 ∧ draw.2 ≤ last := by
  have hindex := List.of_mem_zip h
  rw [List.mem_reverse, List.mem_range'_1] at hindex
  omega

/-- The exchanges one after the other. -/
theorem exchange_eq_foldl {α : Type} (generator : Generator) (items : Array α) (last : Nat) :
    generator.exchange items last =
      (generator.draws last).foldl
        (fun items (number, index) =>
          items.swapIfInBounds index (min (pick number (index + 1)) index)) items := by
  induction last generalizing generator items with
  | zero => rfl
  | succ last ih =>
    rw [draws_succ, List.foldl_cons, ← ih]
    exact exchange_of_next rfl items last

end Generator

/-- Items are shuffled by a permutation of their places, which depends on their number and the seed only,
and which is the only one that does. -/
theorem existsUnique_order_shuffle (seed : String) (count : Nat) :
    ∃! order : Equiv.Perm (Fin count), ∀ (α : Type) (items : List α) (sized : items.length = count),
      shuffle items seed = List.ofFn fun place => items.get ((order place).cast sized.symm) := by
  obtain ⟨order, horder⟩ := exists_order_shuffle seed
  have fits : ∀ (α : Type) (items : List α) (sized : items.length = count),
      shuffle items seed = List.ofFn fun place => items.get ((order count place).cast sized.symm) := by
    rintro α items rfl
    exact horder α items
  refine ⟨order count, fits, fun other hother => ?_⟩
  have hplaces := (hother _ _ List.length_finRange).symm.trans (fits _ _ List.length_finRange)
  ext place : 1
  simpa using congrFun (List.ofFn_injective hplaces) place

/-- For every seed, the lists of one length are shuffled by one permutation of their places, and shuffling
commutes with whatever is done to each item. A list of up to 2²¹ items is shuffled by exchanging the items
from the last to the second, each with the one at the quotient of whole numbers that is picked with the
number drawn for it. It is never behind the item itself, so bounding it by this item's index does nothing. -/
theorem shuffle_permutes (seed : String) :
    (∀ count : Nat, ∃! order : Equiv.Perm (Fin count),
      ∀ (α : Type) (items : List α) (sized : items.length = count),
        shuffle items seed = List.ofFn fun place => items.get ((order place).cast sized.symm)) ∧
    (∀ (α β : Type) (f : α → β) (items : List α),
      shuffle (items.map f) seed = (shuffle items seed).map f) ∧
    ∀ (α : Type) (items : List α), items.length ≤ 2 ^ 21 →
      shuffle items seed =
        (((Generator.ofSeed seed).draws (items.length - 1)).foldl
          (fun items (number, index) =>
            items.swapIfInBounds index (number.toNat * (index + 1) / 2 ^ 32)) items.toArray).toList ∧
      ∀ number index, (number, index) ∈ (Generator.ofSeed seed).draws (items.length - 1) →
        Generator.pick number (index + 1) = number.toNat * (index + 1) / 2 ^ 32 ∧
        Generator.pick number (index + 1) ≤ index ∧
        min (Generator.pick number (index + 1)) index = Generator.pick number (index + 1) := by
  refine ⟨existsUnique_order_shuffle seed, fun α β f items => (map_shuffle f items seed).symm, ?_⟩
  intro α items few
  have picks : ∀ number index, (number, index) ∈ (Generator.ofSeed seed).draws (items.length - 1) →
      Generator.pick number (index + 1) = number.toNat * (index + 1) / 2 ^ 32 ∧
      Generator.pick number (index + 1) ≤ index := by
    intro number index hdraw
    obtain ⟨positive, inside⟩ := Generator.index_of_mem_draws hdraw
    have hindex : index < 2 ^ 21 := by omega
    exact ⟨Generator.pick_eq_of_le hindex number, Generator.pick_le_of_lt hindex number⟩
  constructor
  · rw [shuffle, Generator.exchange_eq_foldl]
    refine congrArg Array.toList (List.foldl_ext _ _ _ ?_)
    rintro exchanged ⟨number, index⟩ hdraw
    obtain ⟨quotient, within⟩ := picks number index hdraw
    show exchanged.swapIfInBounds index (min (Generator.pick number (index + 1)) index) = _
    rw [min_eq_left within, quotient]
  · intro number index hdraw
    obtain ⟨quotient, within⟩ := picks number index hdraw
    exact ⟨quotient, within, min_eq_left within⟩

/-- Three items are put into the order of one permutation. The last of them is exchanged with the second. -/
theorem shuffle_permutes_threeItems :
    (∃ order : Equiv.Perm (Fin 3), ['c', 'a', 'b'] =
      List.ofFn fun place => ['a', 'b', 'c'].get (order place)) ∧
    ['a', 'b', 'c'].length ≤ 2 ^ 21 ∧ (2429163745, 2) ∈ (Generator.ofSeed "a").draws 2 ∧
    Generator.pick 2429163745 3 = 1 := by
  obtain ⟨permuted, -, exchanged⟩ := shuffle_permutes "a"
  have shuffled : shuffle ['a', 'b', 'c'] "a" = ['c', 'a', 'b'] := by decide
  have few : ['a', 'b', 'c'].length ≤ 2 ^ 21 := by decide
  have drawn : (2429163745, 2) ∈ (Generator.ofSeed "a").draws 2 := by decide
  obtain ⟨order, horder, -⟩ := permuted 3
  obtain ⟨picked, -, -⟩ := (exchanged Char ['a', 'b', 'c'] few).2 _ _ drawn
  exact ⟨⟨order, shuffled.symm.trans (horder Char ['a', 'b', 'c'] rfl)⟩, few, drawn, picked⟩

end Courseware
