import Courseware.Markdown.Gfm
import Courseware.Proofs.Markdown.Definitions

/-!
# Definitions take whole lines

A definition goes to the end of its line, so what follows the definitions at the start of some lines consists of
the last of these lines. The reader of definitions works on the text of the lines and counts the line ends that it
has passed. That the count is right depends on line feeds behind carriage returns: a carriage return and a line feed
are one line end, and the text must not be cut between them (`Breaks`).
-/

namespace Courseware.Markdown

variable {text before rest : Text} {letter : Char}

/-! ## Line ends -/

/-- A line end does not go on in the text behind it. -/
def EndsBefore (letter : Char) (rest : Text) : Prop :=
  isLineEnd letter = true ∧ (letter = '\r' → rest.head? ≠ some '\n')

theorem endsBefore_feed (rest : Text) : EndsBefore '\n' rest := ⟨rfl, fun h => absurd h (by decide)⟩

/-- A text ends with a line end, which does not go on in the text behind it. -/
def Breaks (before rest : Text) : Prop := ∃ front letter, before = front ++ [letter] ∧ EndsBefore letter rest

theorem breaks_cons_iff {first : Char} {others : Text} :
    Breaks (first :: others) rest ↔ (others = [] ∧ EndsBefore first rest) ∨ Breaks others rest := by
  constructor
  · rintro ⟨front, letter, hfront, hends⟩
    cases front with
    | nil =>
      obtain ⟨rfl, rfl⟩ := List.cons.inj hfront
      exact .inl ⟨rfl, hends⟩
    | cons head front =>
      obtain ⟨rfl, rfl⟩ := List.cons.inj hfront
      exact .inr ⟨front, letter, rfl, hends⟩
  · rintro (⟨rfl, hends⟩ | ⟨front, letter, rfl, hends⟩)
    · exact ⟨[], first, rfl, hends⟩
    · exact ⟨first :: front, letter, rfl, hends⟩

theorem not_breaks_nil : ¬ Breaks [] rest := by
  rintro ⟨front, letter, hfront, _⟩
  exact List.append_ne_nil_of_right_ne_nil front (List.cons_ne_nil letter []) hfront.symm

theorem EndsBefore.linesOf_cons (h : EndsBefore letter rest) : linesOf (letter :: rest) = [letter] :: linesOf rest := by
  rw [linesOf]
  · rw [if_pos h.1]
  · rintro others rfl rfl
    exact h.2 rfl rfl

theorem linesOf_cons_of_not_isLineEnd (h : isLineEnd letter = false) {first : Text} {others : List Text}
    (lines : linesOf rest = first :: others) : linesOf (letter :: rest) = (letter :: first) :: others := by
  rw [linesOf]
  · rw [h, lines]
    rfl
  · rintro _ rfl
    exact nomatch h

/-- Where a line ends, the lines of what follows are the lines that are left. -/
theorem Breaks.exists_lines (breaks : Breaks before rest) :
    ∃ lines, lines ≠ [] ∧ linesOf before = lines ++ [[]] ∧ linesOf (before ++ rest) = lines ++ linesOf rest := by
  fun_induction linesOf before with
  | case1 => exact absurd breaks not_breaks_nil
  | case2 others ih =>
    obtain ⟨⟨⟩, _⟩ | breaks := breaks_cons_iff.mp breaks
    obtain ⟨rfl, _⟩ | breaks := breaks_cons_iff.mp breaks
    · exact ⟨[['\r', '\n']], List.cons_ne_nil _ _, rfl, by rw [List.cons_append, List.cons_append, linesOf]; rfl⟩
    · obtain ⟨lines, _, hbefore, hall⟩ := ih breaks
      refine ⟨['\r', '\n'] :: lines, List.cons_ne_nil _ _, by rw [hbefore]; rfl, ?_⟩
      rw [List.cons_append, List.cons_append, linesOf, hall]
      rfl
  | case3 letter others apart hend ih =>
    obtain ⟨rfl, hends⟩ | breaks := breaks_cons_iff.mp breaks
    · exact ⟨[[letter]], List.cons_ne_nil _ _, rfl, hends.linesOf_cons⟩
    · obtain ⟨lines, _, hbefore, hall⟩ := ih breaks
      have hends : EndsBefore letter (others ++ rest) := by
        refine ⟨hend, fun hreturn hfeed => ?_⟩
        cases others with
        | nil => exact not_breaks_nil breaks
        | cons next others =>
          obtain rfl := Option.some.inj hfeed
          exact apart others hreturn rfl
      refine ⟨[letter] :: lines, List.cons_ne_nil _ _, by rw [hbefore]; rfl, ?_⟩
      rw [List.cons_append, hends.linesOf_cons, hall]
      rfl
  | case4 letter others _ _ none _ => exact absurd none (linesOf_ne_nil others)
  | case5 letter others _ hend first more hlines ih =>
    have hplain : isLineEnd letter = false := Bool.eq_false_iff.mpr hend
    obtain ⟨rfl, hends⟩ | breaks := breaks_cons_iff.mp breaks
    · exact absurd hends.1 hend
    · obtain ⟨lines, hsome, hbefore, hall⟩ := ih breaks
      obtain ⟨line, lines, rfl⟩ := List.exists_cons_of_ne_nil hsome
      obtain ⟨rfl, rfl⟩ := List.cons.inj (hlines.symm.trans hbefore)
      exact ⟨(letter :: first) :: lines, List.cons_ne_nil _ _, rfl, linesOf_cons_of_not_isLineEnd hplain hall⟩

/-! ## What follows a definition -/

namespace Reference

/-- What is read from a text goes on where a line of the text ends, or nothing is left. -/
def LeavesLines (text rest : Text) : Prop := rest = [] ∨ ∃ before, text = before ++ rest ∧ Breaks before rest

theorem LeavesLines.of_suffix (leaves : LeavesLines before rest) (suffix : before <:+ text) :
    LeavesLines text rest := by
  refine leaves.imp_right ?_
  rintro ⟨front, rfl, lead, letter, rfl, hends⟩
  obtain ⟨more, rfl⟩ := suffix
  exact ⟨more ++ (lead ++ [letter]), (List.append_assoc _ _ _).symm, more ++ lead, letter,
    (List.append_assoc _ _ _).symm, hends⟩

theorem leavesLines_splitEnding (h : isLineEnd letter = true) :
    LeavesLines (letter :: text) (splitEnding (letter :: text)).2 := by
  right
  rw [isLineEnd, Bool.or_eq_true, beq_iff_eq, beq_iff_eq] at h
  unfold splitEnding
  split
  · next rest heq =>
    exact ⟨['\r', '\n'], heq, ['\r'], '\n', rfl, endsBefore_feed rest⟩
  · next rest apart heq =>
    refine ⟨['\r'], heq, [], '\r', rfl, rfl, fun _ hfeed => ?_⟩
    obtain ⟨others, hothers⟩ := List.head?_eq_some_iff.mp hfeed
    exact apart others hothers
  · next rest heq => exact ⟨['\n'], heq, [], '\n', rfl, endsBefore_feed rest⟩
  · next notReturn notFeed =>
    rcases h with rfl | rfl
    · exact (notFeed text rfl).elim
    · exact (notReturn text rfl).elim

theorem leavesLines_of_endLine? (h : endLine? text = some rest) : LeavesLines text rest := by
  unfold endLine? at h
  split at h
  · cases h
    exact .inl rfl
  · next letter after hafter =>
    split at h
    · next hend =>
      obtain rfl := Option.some.inj h
      exact (leavesLines_splitEnding hend).of_suffix (hafter ▸ List.dropWhile_suffix isSpace)
    · exact nomatch h

theorem leavesLines_of_endTitle? (h : endTitle? text = some rest) : LeavesLines text rest := by
  obtain ⟨first, _, h⟩ := Option.bind_eq_some_iff.mp h
  split at h
  · obtain ⟨after, htitle, hend⟩ := Option.bind_eq_some_iff.mp h
    exact (leavesLines_of_endLine? hend).of_suffix
      ((suffix_of_skipTitle? htitle).trans (suffix_skipToText text))
  · exact nomatch h

theorem leavesLines_of_readDefinition? {label : Text} (h : readDefinition? text = some (label, rest)) :
    LeavesLines text rest := by
  obtain ⟨tail, hsuffix, htitled | huntitled⟩ := exists_end_of_readDefinition? h
  · exact (leavesLines_of_endTitle? htitled).of_suffix hsuffix
  · exact (leavesLines_of_endLine? huntitled).of_suffix hsuffix

theorem later_dropTo {passage : Passage} (h : passage.text = before ++ rest) :
    (passage.dropTo rest).later = passage.later.drop (endingsIn before) := by
  have htake : passage.text.take (passage.text.length - rest.length) = before := by
    rw [h, List.length_append, Nat.add_sub_cancel]
    exact List.take_left
  unfold Passage.dropTo
  rw [htake]
  split
  · next hnone => rw [hnone, List.drop_zero]
  · next passed hpassed => rw [hpassed]

theorem text_definitions_of_nil {steps : Nat} {passage : Passage} (h : passage.text = []) :
    (definitions steps passage).2.text = [] := by
  cases steps with
  | zero => exact h
  | succ steps =>
    rw [definitions, h]
    exact h

/-- What is left of a passage after its definitions is empty, or it consists of its last lines. -/
theorem lines_definitions (steps : Nat) (passage : Passage) :
    (definitions steps passage).2.text = [] ∨ ∃ passed,
      (definitions steps passage).2.later = passage.later.drop passed ∧
      linesOf (definitions steps passage).2.text = (linesOf passage.text).drop passed := by
  induction steps generalizing passage with
  | zero => exact .inr ⟨0, rfl, rfl⟩
  | succ steps ih =>
    unfold definitions
    split
    · next label rest hread =>
      show (definitions steps (passage.dropTo rest)).2.text = [] ∨ ∃ passed,
        (definitions steps (passage.dropTo rest)).2.later = passage.later.drop passed ∧
        linesOf (definitions steps (passage.dropTo rest)).2.text = (linesOf passage.text).drop passed
      rcases leavesLines_of_readDefinition? hread with rfl | ⟨before, htext, breaks⟩
      · exact .inl (text_definitions_of_nil (text_dropTo passage []))
      · obtain ⟨lines, _, hbefore, hall⟩ := breaks.exists_lines
        have hpassed : endingsIn before = lines.length := by
          rw [endingsIn, hbefore, List.length_append, List.length_singleton, Nat.add_sub_cancel]
        refine (ih (passage.dropTo rest)).imp_right ?_
        rintro ⟨passed, hlater, hlines⟩
        refine ⟨lines.length + passed, ?_, ?_⟩
        · rw [hlater, later_dropTo htext, hpassed, List.drop_drop]
        · rw [hlines, text_dropTo, htext, hall, List.drop_append, List.drop_of_length_le (Nat.le_add_right _ _),
            Nat.add_sub_cancel_left, List.nil_append]
    · exact .inr ⟨0, rfl, rfl⟩

end Reference

/-! ## Lines of text -/

/-- The line end of a line that is not the last one. -/
def IsEnding (ending : Text) : Prop := ending = ['\n'] ∨ ending = ['\r'] ∨ ending = ['\r', '\n']

theorem linesOf_append_of_plain {content : Text} (plain : ∀ letter ∈ content, isLineEnd letter = false)
    {first : Text} {others : List Text} (lines : linesOf rest = first :: others) :
    linesOf (content ++ rest) = (content ++ first) :: others := by
  induction content with
  | nil => exact lines
  | cons letter content ih =>
    obtain ⟨hletter, hcontent⟩ := List.forall_mem_cons.mp plain
    exact linesOf_cons_of_not_isLineEnd hletter (ih hcontent)

theorem linesOf_of_plain (plain : ∀ letter ∈ text, isLineEnd letter = false) : linesOf text = [text] := by
  have hlines := linesOf_append_of_plain plain (show linesOf [] = [[]] from rfl)
  rwa [List.append_nil] at hlines

theorem IsEnding.linesOf_append {ending : Text} (h : IsEnding ending) (apart : rest.head? ≠ some '\n') :
    linesOf (ending ++ rest) = ending :: linesOf rest := by
  obtain rfl | rfl | rfl := h
  · exact (endsBefore_feed rest).linesOf_cons
  · exact EndsBefore.linesOf_cons ⟨rfl, fun _ => apart⟩
  · rw [List.cons_append, List.cons_append, linesOf]
    rfl

namespace ContentLine

/-- A line of text with its end. -/
def whole (line : ContentLine) : Text := line.text ++ line.ending

/-- The text of a line is not empty, there is no line end in it, and nothing stands before it on its line. -/
structure IsPlain (line : ContentLine) : Prop where
  full : line.text ≠ []
  plain : ∀ letter ∈ line.text, isLineEnd letter = false
  before : line.before.width = 0

variable {line : ContentLine}

/-- A line does not begin with a line feed. -/
theorem IsPlain.head?_append_ne (plain : line.IsPlain) (rest : Text) : (line.text ++ rest).head? ≠ some '\n' := by
  obtain ⟨letter, others, htext⟩ := List.exists_cons_of_ne_nil plain.full
  have hletter := plain.plain letter (htext ▸ List.mem_cons_self)
  rw [htext]
  rintro ⟨⟩
  exact nomatch hletter

theorem IsPlain.linesOf_whole_append (plain : line.IsPlain) (ending : IsEnding line.ending)
    (apart : rest.head? ≠ some '\n') : linesOf (line.whole ++ rest) = line.whole :: linesOf rest := by
  rw [whole, List.append_assoc]
  exact linesOf_append_of_plain plain.plain (ending.linesOf_append apart)

end ContentLine

namespace Leaf

variable {lines : List ContentLine} {last : ContentLine} {earlier : List ContentLine}

theorem text_passage_cons (last : ContentLine) (earlier : List ContentLine) :
    (passage (last :: earlier)).text = earlier.reverse.flatMap ContentLine.whole ++ last.text := by
  rw [passage, List.map_cons, join, ← List.map_reverse, List.flatMap_map]
  rfl

theorem prefix_passage (lines : List ContentLine) :
    (passage lines).text <+: lines.reverse.flatMap ContentLine.whole := by
  cases lines with
  | nil => exact List.prefix_refl _
  | cons last earlier =>
    rw [text_passage_cons, List.reverse_cons, List.flatMap_append, List.flatMap_singleton, ContentLine.whole]
    exact (List.prefix_append_right_inj _).mpr (List.prefix_append _ _)

theorem length_later_passage (lines : List ContentLine) : (passage lines).later.length = lines.length - 1 := by
  rw [passage, List.length_tail, List.length_map, List.length_reverse]

theorem linesOf_flatMap_whole_append (plain : ∀ line ∈ lines, line.IsPlain)
    (endings : ∀ line ∈ lines, IsEnding line.ending) (apart : text.head? ≠ some '\n') :
    linesOf (lines.reverse.flatMap ContentLine.whole ++ text) =
      lines.reverse.map ContentLine.whole ++ linesOf text := by
  induction lines generalizing text with
  | nil => rfl
  | cons line rest ih =>
    obtain ⟨hline, hplain⟩ := List.forall_mem_cons.mp plain
    obtain ⟨hending, hendings⟩ := List.forall_mem_cons.mp endings
    have hfirst : (line.whole ++ text).head? ≠ some '\n' := by
      rw [ContentLine.whole, List.append_assoc]
      exact hline.head?_append_ne _
    rw [List.reverse_cons, List.flatMap_append, List.flatMap_singleton, List.append_assoc,
      ih hplain hendings hfirst, hline.linesOf_whole_append hending apart, List.map_append, List.append_assoc]
    rfl

/-- The lines of a passage are those that it was made of. -/
theorem linesOf_passage (plain : ∀ line ∈ last :: earlier, line.IsPlain)
    (endings : ∀ line ∈ earlier, IsEnding line.ending) :
    linesOf (passage (last :: earlier)).text = earlier.reverse.map ContentLine.whole ++ [last.text] := by
  obtain ⟨hlast, hearlier⟩ := List.forall_mem_cons.mp plain
  have happart := hlast.head?_append_ne []
  rw [List.append_nil] at happart
  rw [text_passage_cons, linesOf_flatMap_whole_append hearlier endings happart, linesOf_of_plain hlast.plain]

end Leaf

/-- What is left of lines of text behind definitions are the last of these lines. -/
theorem BlockReader.exists_last_of_divide {last : ContentLine} {earlier : List ContentLine}
    (plain : ∀ line ∈ last :: earlier, line.IsPlain) (endings : ∀ line ∈ earlier, IsEnding line.ending)
    (full : (divide (last :: earlier)).2.text ≠ []) :
    ∃ later first others, last :: earlier = later ++ first :: others ∧
      Leaf.startOf (last :: earlier) (divide (last :: earlier)).2 = first.start ∧
      (divide (last :: earlier)).2.text = (Leaf.passage (later ++ [first])).text := by
  obtain hnone | ⟨passed, hlater, hlines⟩ := Reference.lines_definitions
    (Leaf.passage (last :: earlier)).text.length (Leaf.passage (last :: earlier))
  · exact absurd hnone full
  · generalize hrest : (divide (last :: earlier)).2 = rest at full ⊢
    rw [show Reference.definitions _ _ = divide (last :: earlier) from rfl, hrest] at hlater hlines
    rw [Leaf.linesOf_passage plain endings] at hlines
    have hpassed : passed ≤ earlier.length := by
      by_contra hmore
      rw [List.drop_of_length_le] at hlines
      · exact linesOf_ne_nil _ hlines
      · rw [List.length_append, List.length_map, List.length_reverse, List.length_singleton]
        omega
    have hlength : rest.later.length = earlier.length - passed := by
      rw [hlater, List.length_drop, Leaf.length_later_passage]
      rfl
    have htext : rest.text = (Leaf.passage ((last :: earlier).take (rest.later.length + 1))).text := by
      rw [← flatten_linesOf rest.text, hlines, List.drop_append_of_le_length, ← List.map_drop, List.drop_reverse,
        ← hlength, List.flatten_append, ← List.flatMap_def, List.flatten_singleton, List.take_succ_cons,
        Leaf.text_passage_cons]
      rwa [List.length_map, List.length_reverse]
    have hindex : rest.later.length < (last :: earlier).length := by
      rw [List.length_cons]
      omega
    refine ⟨(last :: earlier).take rest.later.length, (last :: earlier)[rest.later.length],
      (last :: earlier).drop (rest.later.length + 1), ?_, ?_, ?_⟩
    · rw [← List.drop_eq_getElem_cons, List.take_append_drop]
    · rw [Leaf.startOf, List.getElem?_eq_getElem hindex]
      rfl
    · rw [htext, List.take_succ_eq_append_getElem]

end Courseware.Markdown
