import Courseware.Proofs.Task.Marks
import Courseware.Proofs.Text.Margins

/-!
# The lines of a question

The content of a question is a list of lines, and each line is one of two things. A line that offers a choice
has a list marker and a check box behind its blanks; any other line belongs to the question. `Sorts` sorts the
lines of a content into both, in their order, so nothing is dropped and nothing is taken twice.

A question that is built is made of exactly that: the lines that ask, written one below the other and then
restored, and one choice for each line that offers one, with the flag of its own check box. Only the order of
the choices is new. It is that of `shuffle`, so it does not depend on what the choices say.
-/

namespace Courseware

namespace DirectiveNode

/-- A line that offers a choice: blanks, a list marker, a check box, and the text behind it. -/
def Offers (line : Text) (correct : Bool) (text : Text) : Prop :=
  ∃ indent marker mark, line = indent ++ ([marker, ' ', '[', mark, ']'] ++ text) ∧
    (∀ letter ∈ indent, Text.isBlank letter = true) ∧ (marker = '-' ∨ marker = '*') ∧
    (correct = true ∧ (mark = 'x' ∨ mark = 'X') ∨ correct = false ∧ mark = ' ')

/-- Lines sorted into the choices that they offer and the lines that ask. -/
inductive Sorts : List Text → List (Bool × Text) → List Text → Prop
  | nil : Sorts [] [] []
  | choice {line text : Text} {correct : Bool} {lines asked : List Text}
      {offered : List (Bool × Text)} (offers : Offers line correct text)
      (others : Sorts lines offered asked) :
      Sorts (line :: lines) ((correct, text) :: offered) asked
  | question {line : Text} {lines asked : List Text} {offered : List (Bool × Text)}
      (asks : ∀ correct text, ¬Offers line correct text) (others : Sorts lines offered asked) :
      Sorts (line :: lines) offered (line :: asked)

/-- A choice is read from exactly the lines that offer one. -/
theorem readChoice?_eq_some_iff {line text : Text} {correct : Bool} :
    readChoice? line = some (correct, text) ↔ Offers line correct text := by
  constructor
  · intro h
    unfold readChoice? at h
    split at h
    · next marker mark rest htrim =>
      have hline : line = line.takeWhile Text.isBlank ++ ([marker, ' ', '[', mark, ']'] ++ rest) := by
        have hsplit := List.takeWhile_append_dropWhile (p := Text.isBlank) (l := line)
        rw [← Text.trimStart, htrim] at hsplit
        exact hsplit.symm
      split at h
      · cases h
      · next hmarker =>
        have known : marker = '-' ∨ marker = '*' := by
          simp only [Bool.and_eq_true, bne_iff_ne, ne_eq, not_and, Decidable.not_not] at hmarker
          exact Decidable.or_iff_not_imp_left.mpr hmarker
        have offers (mark_ : correct = true ∧ (mark = 'x' ∨ mark = 'X') ∨ correct = false ∧ mark = ' ') :
            Offers line correct rest :=
          ⟨_, marker, mark, hline, fun letter hletter => List.mem_takeWhile_imp hletter, known, mark_⟩
        split at h
        · next hchecked =>
          rw [Bool.or_eq_true, beq_iff_eq, beq_iff_eq] at hchecked
          cases h
          exact offers (.inl ⟨rfl, hchecked⟩)
        · split at h
          · next hempty =>
            cases h
            exact offers (.inr ⟨rfl, beq_iff_eq.mp hempty⟩)
          · cases h
    · cases h
  · rintro ⟨indent, marker, mark, rfl, blank, known, hmark⟩
    have visible : Text.isBlank marker = false := by rcases known with rfl | rfl <;> decide
    unfold readChoice?
    rw [List.cons_append, Text.trimStart_append_cons visible,
      Text.trimStart_eq_nil_iff.mpr (List.all_eq_true.mpr blank), List.nil_append]
    rcases known with rfl | rfl <;> rcases hmark with ⟨rfl, rfl | rfl⟩ | ⟨rfl, rfl⟩ <;> rfl

/-- The choices and the lines that ask are found by reading each line for itself. -/
theorem sorts_lines (lines : List Text) :
    Sorts lines (lines.filterMap readChoice?) (lines.filter fun line => (readChoice? line).isNone) := by
  induction lines with
  | nil => exact .nil
  | cons line rest ih =>
    cases hread : readChoice? line with
    | none =>
      rw [List.filterMap_cons_none hread, List.filter_cons_of_pos (by rw [hread]; rfl)]
      refine .question (fun correct text offers => ?_) ih
      exact nomatch hread.symm.trans (readChoice?_eq_some_iff.mpr offers)
    | some offer =>
      rw [List.filterMap_cons_some hread, List.filter_cons_of_neg (by simp [hread])]
      exact .choice (readChoice?_eq_some_iff.mp hread) ih

/-- The choice that a line offers: its own text, restored, and its own flag. -/
def choiceOf (extraction : Extraction) (offer : Bool × Text) : Choice :=
  { text := Text.trim (extraction.restore offer.2), correct := offer.1 }

/-- A question that is built has every line of its content, either in the question or as a choice. -/
theorem sorts_of_choiceTask {node : DirectiveNode} {extraction : Extraction} {seed : String} {task : Task}
    (h : node.choiceTask extraction seed = .ok task) :
    ∃ offered asked, Sorts (Text.lines node.content) offered asked ∧
      task = .choice (Text.trim (Text.dedent (extraction.restore (Text.join ['\n'] asked))))
        (shuffle (offered.map (choiceOf extraction)) seed)
        (1 < (offered.map (choiceOf extraction)).countP Choice.correct) := by
  refine ⟨_, _, sorts_lines _, ?_⟩
  unfold choiceTask at h
  obtain ⟨question, hquestion, h⟩ := exists_of_bind_eq_ok h
  split at h
  · exact nomatch h
  · split at h
    · exact nomatch h
    · split at h
      · exact nomatch h
      · rw [← Except.ok.inj h, eq_markdown_of_required hquestion]
        rfl

end DirectiveNode
end Courseware
