import Courseware.Text.Basic

/-!
# The parts of a text

Texts that do not hold a separator are joined by it and read back by splitting at it. A path whose
components hold no slash is therefore known by its components. A text whose letters are all kept is read
back in front of one that is not.
-/

namespace Courseware.Text

variable {separator : Char} {text first rest : Text} {parts : List Text}

/-- A text is split where the first letter stands that is not kept. -/
theorem splitWhile_append {keep : Char → Bool} (kept : ∀ letter ∈ first, keep letter = true)
    (stop : ∀ next ∈ rest.head?, keep next = false) : splitWhile keep (first ++ rest) = (first, rest) := by
  rw [splitWhile, List.takeWhile_append_of_pos kept, List.dropWhile_append_of_pos kept]
  cases rest with
  | nil => rw [List.takeWhile_nil, List.dropWhile_nil, List.append_nil]
  | cons next others =>
    have hnext : ¬keep next = true := Bool.eq_false_iff.mp (stop next rfl)
    rw [List.takeWhile_cons_of_neg hnext, List.dropWhile_cons_of_neg hnext, List.append_nil]

theorem split_of_notMem (h : separator ∉ text) : split separator text = [text] := by
  induction text with
  | nil => rfl
  | cons letter rest ih =>
    obtain ⟨hletter, hrest⟩ := List.ne_and_not_mem_of_not_mem_cons h
    rw [split, if_neg (by simpa using hletter.symm), ih hrest]

/-- What stands before the first separator is the first part. -/
theorem split_append_cons (h : separator ∉ first) :
    split separator (first ++ separator :: rest) = first :: split separator rest := by
  induction first with
  | nil => rw [List.nil_append, split, if_pos (beq_self_eq_true separator)]
  | cons letter others ih =>
    obtain ⟨hletter, hothers⟩ := List.ne_and_not_mem_of_not_mem_cons h
    rw [List.cons_append, split, if_neg (by simpa using hletter.symm), ih hothers]

theorem split_ne_nil (separator : Char) (text : Text) : split separator text ≠ [] := by
  cases text with
  | nil => exact List.cons_ne_nil _ _
  | cons letter rest =>
    rw [split]
    split
    · exact List.cons_ne_nil _ _
    · split <;> exact List.cons_ne_nil _ _

/-- A text is split on both sides of any separator in it. -/
theorem split_append_separator (before after : Text) :
    split separator (before ++ separator :: after) =
      split separator before ++ split separator after := by
  induction before with
  | nil => exact split_append_cons List.not_mem_nil
  | cons letter others ih =>
    rw [List.cons_append, split, split, ih]
    by_cases hletter : letter == separator
    · rw [if_pos hletter, if_pos hletter, List.cons_append]
    · rw [if_neg hletter, if_neg hletter]
      cases hothers : split separator others with
      | nil => exact absurd hothers (split_ne_nil _ _)
      | cons first parts => rfl

/-- Joined parts are read back. -/
theorem split_join (full : parts ≠ []) (h : ∀ part ∈ parts, separator ∉ part) :
    split separator (join [separator] parts) = parts := by
  induction parts with
  | nil => exact absurd rfl full
  | cons first rest ih =>
    obtain ⟨hfirst, hrest⟩ := List.forall_mem_cons.mp h
    cases rest with
    | nil => rw [join, List.intercalate_singleton, split_of_notMem hfirst]
    | cons second others =>
      rw [join, List.intercalate_cons_cons, List.append_assoc, List.singleton_append,
        split_append_cons hfirst, ← join, ih (List.cons_ne_nil _ _) hrest]

/-- The parts of a text, joined, are the text. -/
theorem join_split (separator : Char) (text : Text) :
    join [separator] (split separator text) = text := by
  induction text with
  | nil => rfl
  | cons letter rest ih =>
    rw [split]
    obtain ⟨first, others, hparts⟩ := List.exists_cons_of_ne_nil (split_ne_nil separator rest)
    rw [hparts] at ih
    by_cases hletter : letter == separator
    · rw [if_pos hletter, hparts, join, List.intercalate_cons_cons, ← join, ih, beq_iff_eq.mp hletter]
      rfl
    · rw [if_neg hletter, hparts]
      cases others with
      | nil =>
        rw [join, List.intercalate_singleton] at ih ⊢
        rw [ih]
      | cons second more =>
        rw [join, List.intercalate_cons_cons, ← join] at ih ⊢
        rw [List.cons_append, List.cons_append, ih]

/-- One part more is joined behind the separator. -/
theorem join_concat {between : Text} (full : parts ≠ []) (last : Text) :
    join between (parts ++ [last]) = join between parts ++ (between ++ last) := by
  induction parts with
  | nil => exact absurd rfl full
  | cons first rest ih =>
    cases rest with
    | nil => simp [join, List.intercalate_cons_cons]
    | cons second others =>
      have hrest := ih (List.cons_ne_nil _ _)
      rw [join, join] at hrest ⊢
      rw [List.cons_append, List.cons_append, List.intercalate_cons_cons,
        List.intercalate_cons_cons, ← List.cons_append, hrest]
      simp

end Courseware.Text
