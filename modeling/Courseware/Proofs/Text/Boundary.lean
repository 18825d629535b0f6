import Courseware.Text.Basic

/-!
# Boundaries and slices of a text

Offsets count bytes, and an author's text holds characters of one to four bytes. This module says
which offsets lie between two characters, and shows that cutting a text at such offsets gives back
the parts of which it was put together. Nothing is said about offsets inside a character.
-/

namespace Courseware.Text

/-- Whether a byte offset lies between two characters of a text, or at one of its ends. -/
def isBoundary : Text → Nat → Bool
  | _, 0 => true
  | [], _ + 1 => false
  | letter :: rest, offset + 1 =>
    decide (letter.utf8Size ≤ offset + 1) && isBoundary rest (offset + 1 - letter.utf8Size)

@[simp]
theorem isBoundary_zero (text : Text) : isBoundary text 0 = true := by
  cases text <;> rfl

/-- Past its first character, a text has the boundaries of what follows that character. -/
theorem isBoundary_cons {letter : Char} {rest : Text} {offset : Nat} (hpos : 0 < offset) :
    isBoundary (letter :: rest) offset =
      (decide (letter.utf8Size ≤ offset) && isBoundary rest (offset - letter.utf8Size)) := by
  obtain ⟨before, rfl⟩ := Nat.exists_eq_add_of_lt hpos
  simp only [Nat.zero_add, isBoundary]

/-- A boundary lies within the text. -/
theorem le_width_of_isBoundary {text : Text} {offset : Nat} (h : isBoundary text offset = true) :
    offset ≤ width text := by
  induction text generalizing offset with
  | nil =>
    cases offset with
    | zero => exact Nat.le_refl 0
    | succ offset => simp [isBoundary] at h
  | cons letter rest ih =>
    rcases Nat.eq_zero_or_pos offset with rfl | hpos
    · exact Nat.zero_le _
    · rw [isBoundary_cons hpos, Bool.and_eq_true, decide_eq_true_eq] at h
      have hrest := ih h.2
      rw [width_cons]
      omega

/-- Past a part of a text, its boundaries are those of what follows that part. -/
theorem isBoundary_append (before after : Text) (offset : Nat) :
    isBoundary (before ++ after) (width before + offset) = isBoundary after offset := by
  induction before with
  | nil => rw [List.nil_append, width_nil, Nat.zero_add]
  | cons letter rest ih =>
    have hsize := letter.utf8Size_pos
    have hfits : letter.utf8Size ≤ letter.utf8Size + width rest + offset := by omega
    have hleft : letter.utf8Size + width rest + offset - letter.utf8Size = width rest + offset := by
      omega
    rw [List.cons_append, width_cons, isBoundary_cons (by omega), hleft, ih,
      decide_eq_true hfits, Bool.true_and]

/-! ## Cutting at a boundary -/

theorem dropBytes_cons {letter : Char} {rest : Text} {bytes : Nat} (hpos : 0 < bytes) :
    dropBytes (letter :: rest) bytes = dropBytes rest (bytes - letter.utf8Size) := by
  obtain ⟨before, rfl⟩ := Nat.exists_eq_add_of_lt hpos
  simp only [Nat.zero_add, dropBytes]

theorem takeBytes_cons {letter : Char} {rest : Text} {bytes : Nat} (hpos : 0 < bytes) :
    takeBytes (letter :: rest) bytes = letter :: takeBytes rest (bytes - letter.utf8Size) := by
  obtain ⟨before, rfl⟩ := Nat.exists_eq_add_of_lt hpos
  simp only [Nat.zero_add, takeBytes]

theorem dropBytes_zero (text : Text) : dropBytes text 0 = text := by
  cases text <;> rfl

theorem takeBytes_zero (text : Text) : takeBytes text 0 = [] := by
  cases text <;> rfl

/-- Dropping the bytes of a part leaves what follows it. -/
theorem dropBytes_append (before after : Text) :
    dropBytes (before ++ after) (width before) = after := by
  induction before with
  | nil => exact dropBytes_zero after
  | cons letter rest ih =>
    have hsize := letter.utf8Size_pos
    rw [List.cons_append, width_cons, dropBytes_cons (by omega), Nat.add_sub_cancel_left, ih]

/-- Taking the bytes of a part gives that part. -/
theorem takeBytes_append (before after : Text) :
    takeBytes (before ++ after) (width before) = before := by
  induction before with
  | nil => exact takeBytes_zero after
  | cons letter rest ih =>
    have hsize := letter.utf8Size_pos
    rw [List.cons_append, width_cons, takeBytes_cons (by omega), Nat.add_sub_cancel_left, ih]

/-- The slice between the two ends of a part is that part. -/
theorem slice_append (before part after : Text) :
    slice (before ++ (part ++ after)) (width before) (width (before ++ part)) = part := by
  rw [slice, dropBytes_append, width_append, Nat.add_sub_cancel_left, takeBytes_append]

/-- The slice of a part of a text, from where it starts to where its width ends. -/
theorem slice_part (before part after : Text) :
    slice (before ++ (part ++ after)) (width before) (width before + width part) = part := by
  have hslice := slice_append before part after
  rwa [width_append] at hslice

/-- A part of a text cuts no character at its two ends. -/
theorem isBoundary_part (before part after : Text) :
    isBoundary (before ++ (part ++ after)) (width before) = true ∧
      isBoundary (before ++ (part ++ after)) (width before + width part) = true := by
  constructor
  · exact (isBoundary_append before (part ++ after) 0).trans (isBoundary_zero _)
  · have hpart := isBoundary_append (before ++ part) after 0
    rwa [isBoundary_zero, width_append, List.append_assoc] at hpart

/-- The line behind a part of a text is one more than the line feeds in it. -/
theorem lineAt_append (before after : Text) :
    lineAt (before ++ after) (width before) = before.count '\n' + 1 := by
  rw [lineAt, takeBytes_append]

/-- A part of a text ends on the line on which it begins exactly when there is no line feed in it. -/
theorem lineAt_part_iff (before part after : Text) :
    lineAt (before ++ (part ++ after)) (width before + width part) =
      lineAt (before ++ (part ++ after)) (width before) ↔ '\n' ∉ part := by
  have hstop := lineAt_append (before ++ part) after
  rw [List.append_assoc, width_append, List.count_append] at hstop
  rw [hstop, lineAt_append, ← List.count_eq_zero]
  omega

end Courseware.Text
