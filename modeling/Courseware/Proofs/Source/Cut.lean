import Courseware.Proofs.Source.Placeholder
import Courseware.Proofs.Text.Slices

/-!
# Offsets at which no placeholder is cut

A text with placeholders is divided at byte offsets. An offset is uncut when the text falls into two
intact parts there. A placeholder can be read in one way only, so of an intact text whose start is intact
the rest is intact as well, and what stands between two uncut offsets is intact.
-/

namespace Courseware

namespace Sentinels

variable {sentinels : Sentinels} {count : Nat} {text before after : Text}

/-! ## Reading in one way -/

theorem Reserved.isDigit_closing (reserved : sentinels.Reserved) :
    sentinels.closing.isDigit = false := by
  have hclosing := reserved.closing
  simp only [isReserved, Bool.or_eq_true, Bool.and_eq_true, decide_eq_true_eq] at hclosing
  simp only [Char.isDigit, Bool.and_eq_false_iff, decide_eq_false_iff_not, ge_iff_le,
    UInt32.le_iff_toNat_le]
  have hnine : ('9' : Char).val.toNat = 57 := rfl
  have hcode : sentinels.closing.toNat = sentinels.closing.val.toNat := rfl
  omega

/-- What follows a placeholder begins after the first character that is no digit. -/
theorem Reserved.eq_of_placeholder_append (reserved : sentinels.Reserved) {first second : Nat}
    (h : sentinels.placeholder first ++ before = sentinels.placeholder second ++ after) :
    before = after := by
  have hdrop : ∀ (number : Nat) (rest : Text),
      (Text.ofNat number ++ sentinels.closing :: rest).dropWhile Char.isDigit =
        sentinels.closing :: rest := by
    intro number rest
    rw [Text.ofNat, List.dropWhile_append_of_pos fun letter hletter =>
        Nat.isDigit_of_mem_toDigits (by decide) (by decide) hletter,
      List.dropWhile_cons_of_neg (by simp [reserved.isDigit_closing])]
  rw [placeholder, placeholder, List.cons_append, List.cons_append, List.cons.injEq,
    List.append_assoc, List.append_assoc] at h
  have hrest := congrArg (List.dropWhile Char.isDigit) h.2
  rw [List.singleton_append, List.singleton_append, hdrop, hdrop] at hrest
  exact (List.cons.inj hrest).2

theorem Intact.cancel_left (reserved : sentinels.Reserved) (start : Intact sentinels count before)
    (whole : Intact sentinels count (before ++ after)) : Intact sentinels count after := by
  induction start with
  | nil => exact whole
  | @letter letter rest opening closing _ ih =>
    apply ih
    rw [List.cons_append] at whole
    generalize htext : letter :: (rest ++ after) = text at whole
    cases whole with
    | nil => exact nomatch htext
    | letter _ _ intact =>
      obtain ⟨_, rfl⟩ := List.cons.inj htext
      exact intact
    | placeholder known intact => exact absurd (List.cons.inj htext).1 opening
  | @placeholder number rest _ _ ih =>
    apply ih
    rw [List.append_assoc] at whole
    generalize htext : sentinels.placeholder number ++ (rest ++ after) = text at whole
    cases whole with
    | nil => exact nomatch htext
    | letter opening _ intact => exact absurd (List.cons.inj htext).1.symm opening
    | placeholder known intact =>
      rw [reserved.eq_of_placeholder_append htext]
      exact intact

/-! ## Offsets -/

/-- A byte offset at which a text falls into two intact parts. -/
def Uncut (sentinels : Sentinels) (count : Nat) (text : Text) (offset : Nat) : Prop :=
  ∃ before after, text = before ++ after ∧ Text.width before = offset ∧
    Intact sentinels count before ∧ Intact sentinels count after

namespace Uncut

variable {start stop : Nat}

theorem zero (intact : Intact sentinels count text) : Uncut sentinels count text 0 :=
  ⟨[], text, rfl, rfl, .nil, intact⟩

/-- What follows an uncut offset. -/
theorem intact_dropBytes (uncut : Uncut sentinels count text start) :
    Intact sentinels count (Text.dropBytes text start) := by
  obtain ⟨before, after, rfl, rfl, _, hafter⟩ := uncut
  rw [Text.dropBytes_append]
  exact hafter

/-- What stands between two uncut offsets. -/
theorem intact_slice (reserved : sentinels.Reserved) (first : Uncut sentinels count text start)
    (last : Uncut sentinels count text stop) :
    Intact sentinels count (Text.slice text start stop) := by
  obtain ⟨before, rest, rfl, rfl, hbefore, _⟩ := first
  obtain ⟨whole, after, htext, rfl, hwhole, _⟩ := last
  rcases List.append_eq_append_iff.mp htext with ⟨part, rfl, rfl⟩ | ⟨part, rfl, rfl⟩
  · rw [Text.slice_append]
    exact hbefore.cancel_left reserved hwhole
  · rw [Text.slice, Nat.sub_eq_zero_of_le (by rw [Text.width_append]; omega), Text.takeBytes_zero]
    exact .nil

/-- Behind an intact part that starts at an uncut offset there is one again. -/
theorem advance (reserved : sentinels.Reserved) (uncut : Uncut sentinels count text start) {part : Text}
    (isPart : text.IsPart start part stop) (intact : Intact sentinels count part) :
    Uncut sentinels count text stop := by
  obtain ⟨before, rest, rfl, rfl, hbefore, hrest⟩ := uncut
  obtain ⟨front, after, htext, hwidth, rfl⟩ := isPart
  obtain ⟨rfl, rfl⟩ := Text.append_inj_of_width htext hwidth
  exact ⟨before ++ part, after, (List.append_assoc _ _ _).symm, Text.width_append _ _, hbefore.append intact,
    intact.cancel_left reserved hrest⟩

end Uncut
end Sentinels
end Courseware
