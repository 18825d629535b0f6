import Courseware.Markdown.Reference
import Courseware.Proofs.Markdown.Lines

/-!
# Definitions cut no placeholder

A definition is read character by character, and a placeholder may stand in its label, its target or its
title. But all of its readers leave an end of what they are given, and a definition is one only if its last
line has nothing after it. So what follows a definition follows a line end.
-/

namespace Courseware.Markdown

theorem suffix_cons_cons {text rest : Text} (h : rest <:+ text) (first second : Char) :
    rest <:+ first :: second :: text :=
  (h.trans (List.suffix_cons second text)).trans (List.suffix_cons first _)

theorem suffix_splitEnding (text : Text) : (splitEnding text).2 <:+ text :=
  ⟨(splitEnding text).1, (spec_of_splitEnding text).1⟩

theorem suffix_skipToText (text : Text) : skipToText text <:+ text := by
  have hends : (splitEnding (text.dropWhile isSpace)).2 <:+ text :=
    (suffix_splitEnding _).trans (List.dropWhile_suffix _)
  unfold skipToText
  split
  · next hsplit =>
    rw [hsplit] at hends
    exact hends
  · next hsplit =>
    rw [hsplit] at hends
    exact (List.dropWhile_suffix _).trans hends

namespace Reference

variable {text rest label : Text}

/-! ## Readers leave an end -/

theorem suffix_of_closeLabel? (h : closeLabel? text = some (label, rest)) : rest <:+ text := by
  fun_induction closeLabel? text generalizing label rest with
  | case1 => exact nomatch h
  | case2 =>
    cases h
    exact List.suffix_cons _ _
  | case3 => exact nomatch h
  | case4 next after _ ih =>
    obtain ⟨⟨label, rest⟩, hread, heq⟩ := Option.map_eq_some_iff.mp h
    cases heq
    exact suffix_cons_cons (ih hread) _ _
  | case5 next after _ ih =>
    obtain ⟨⟨label, rest⟩, hread, heq⟩ := Option.map_eq_some_iff.mp h
    cases heq
    exact (ih hread).trans (List.suffix_cons _ _)
  | case6 letter after _ _ _ ih =>
    obtain ⟨⟨label, rest⟩, hread, heq⟩ := Option.map_eq_some_iff.mp h
    cases heq
    exact (ih hread).trans (List.suffix_cons _ _)

theorem suffix_of_readLabel? (h : readLabel? text = some (label, rest)) : rest <:+ text := by
  obtain ⟨⟨closed, after⟩, hclose, h⟩ := Option.bind_eq_some_iff.mp h
  simp only at h
  split at h
  · exact nomatch h
  · cases h
    exact suffix_of_closeLabel? hclose

theorem suffix_of_closeTarget? (h : closeTarget? text = some rest) : rest <:+ text := by
  fun_induction closeTarget? text with
  | case1 => exact nomatch h
  | case2 =>
    cases h
    exact List.suffix_cons _ _
  | case3 next after _ ih => exact suffix_cons_cons (ih h) _ _
  | case4 next after _ ih => exact (ih h).trans (List.suffix_cons _ _)
  | case5 => exact nomatch h
  | case6 letter after _ _ _ ih => exact (ih h).trans (List.suffix_cons _ _)

theorem suffix_of_skipBareTarget? {limit depth : Nat}
    (h : skipBareTarget? limit depth text = some rest) : rest <:+ text := by
  fun_induction skipBareTarget? limit depth text with
  | case1 =>
    cases h
    exact List.suffix_refl _
  | case2 => exact nomatch h
  | case3 depth after _ ih => exact (ih h).trans (List.suffix_cons _ _)
  | case4 => exact nomatch h
  | case5 =>
    cases h
    exact List.suffix_refl _
  | case6 depth after _ ih => exact (ih h).trans (List.suffix_cons _ _)
  | case7 depth next after _ ih => exact suffix_cons_cons (ih h) _ _
  | case8 depth next after _ ih => exact (ih h).trans (List.suffix_cons _ _)
  | case9 =>
    cases h
    exact List.suffix_refl _
  | case10 => exact nomatch h
  | case11 => exact nomatch h
  | case12 depth letter after _ _ _ _ _ ih => exact (ih h).trans (List.suffix_cons _ _)

theorem suffix_of_skipTarget? {limit : Nat} (h : skipTarget? limit text = some rest) :
    rest <:+ text := by
  unfold skipTarget? at h
  split at h
  · exact (suffix_of_closeTarget? h).trans (List.suffix_cons _ _)
  · exact nomatch h
  · split at h
    · exact nomatch h
    · exact suffix_of_skipBareTarget? h

theorem suffix_of_closeTitle? {quote : Char} (h : closeTitle? quote text = some rest) :
    rest <:+ text := by
  fun_induction closeTitle? quote text with
  | case1 => exact nomatch h
  | case2 next after _ ih => exact suffix_cons_cons (ih h) _ _
  | case3 next after _ ih => exact (ih h).trans (List.suffix_cons _ _)
  | case4 letter after _ _ =>
    cases h
    exact List.suffix_cons _ _
  | case5 letter after _ _ ih => exact (ih h).trans (List.suffix_cons _ _)

theorem suffix_of_skipTitle? (h : skipTitle? text = some rest) : rest <:+ text := by
  unfold skipTitle? at h
  split at h
  · exact (suffix_of_closeTitle? h).trans (List.suffix_cons _ _)
  · exact (suffix_of_closeTitle? h).trans (List.suffix_cons _ _)
  · exact (suffix_of_closeTitle? h).trans (List.suffix_cons _ _)
  · exact nomatch h

/-! ## The end of a definition -/

variable {sentinels : Sentinels} {count : Nat}

/-- What follows a line end cuts no placeholder, whatever stands before it. -/
theorem intact_of_endLine? (reserved : sentinels.Reserved) {whole : Text}
    (intact : sentinels.Intact count whole) (suffix : text <:+ whole)
    (h : endLine? text = some rest) : sentinels.Intact count rest := by
  have hblank := (List.dropWhile_suffix isSpace).trans suffix
  unfold endLine? at h
  split at h
  · cases h
    exact .nil
  · next letter after hafter =>
    split at h
    · next hend =>
      obtain rfl := Option.some.inj h
      rw [hafter] at hblank
      obtain ⟨before, rfl⟩ := hblank
      have hbefore := (intact.cut reserved (isOutside_of_isLineEnd hend)).1
      exact (intact_splitEnding reserved (hbefore.cancel_left reserved intact)).2
    · exact nomatch h

theorem intact_of_endTitle? (reserved : sentinels.Reserved) {whole : Text}
    (intact : sentinels.Intact count whole) (suffix : text <:+ whole)
    (h : endTitle? text = some rest) : sentinels.Intact count rest := by
  obtain ⟨first, _, h⟩ := Option.bind_eq_some_iff.mp h
  split at h
  · obtain ⟨after, htitle, hend⟩ := Option.bind_eq_some_iff.mp h
    apply intact_of_endLine? reserved intact _ hend
    exact ((suffix_of_skipTitle? htitle).trans (suffix_skipToText text)).trans suffix
  · exact nomatch h

/-- A definition ends behind its target, with a title or without. -/
theorem exists_end_of_readDefinition? (h : readDefinition? text = some (label, rest)) :
    ∃ tail, tail <:+ text ∧ (endTitle? tail = some rest ∨ endLine? tail = some rest) := by
  have hblank := List.dropWhile_suffix isSpace (l := text)
  unfold readDefinition? at h
  split at h
  · next inside hinside =>
    rw [hinside] at hblank
    obtain ⟨⟨closed, colon⟩, hlabel, h⟩ := Option.bind_eq_some_iff.mp h
    simp only at h
    split at h
    · next target =>
      obtain ⟨title, htarget, h⟩ := Option.bind_eq_some_iff.mp h
      obtain ⟨after, hend, h⟩ := Option.bind_eq_some_iff.mp h
      cases h
      have hcolon : target <:+ text := by
        have hlabelled := (suffix_of_readLabel? hlabel).trans (List.suffix_cons '[' inside)
        exact ((List.suffix_cons ':' target).trans hlabelled).trans hblank
      have htitle : title <:+ text :=
        ((suffix_of_skipTarget? htarget).trans (suffix_skipToText target)).trans hcolon
      exact ⟨title, htitle, (Option.or_eq_some_iff.mp hend).imp_right And.right⟩
    · exact nomatch h
  · exact nomatch h

/-- What follows a definition follows a line end, or it is empty. -/
theorem intact_of_readDefinition? (reserved : sentinels.Reserved)
    (intact : sentinels.Intact count text) (h : readDefinition? text = some (label, rest)) :
    sentinels.Intact count rest := by
  obtain ⟨tail, hsuffix, htitled | huntitled⟩ := exists_end_of_readDefinition? h
  · exact intact_of_endTitle? reserved intact hsuffix htitled
  · exact intact_of_endLine? reserved intact hsuffix huntitled

theorem text_dropTo (passage : Passage) (rest : Text) : (passage.dropTo rest).text = rest := by
  unfold Passage.dropTo
  split <;> rfl

/-- What is left of a passage after its definitions. -/
theorem intact_definitions (reserved : sentinels.Reserved) {steps : Nat} {passage : Passage}
    (intact : sentinels.Intact count passage.text) :
    sentinels.Intact count (definitions steps passage).2.text := by
  induction steps generalizing passage with
  | zero => exact intact
  | succ steps ih =>
    unfold definitions
    split
    · next label rest hread =>
      apply ih
      rw [text_dropTo]
      exact intact_of_readDefinition? reserved intact hread
    · exact intact

end Reference
end Courseware.Markdown
