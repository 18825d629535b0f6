import Courseware.Proofs.Except
import Courseware.Proofs.Task.Marks
import Courseware.Proofs.Task.Shuffle
import Courseware.Task.Builder
import Courseware.Task.Data

/-!
# Well-formed directives

A directive that has been built can be shown to a learner: no text that must be there is missing, every
question can be answered, and every field of a gap text accepts some answer. `Directive.WellFormed` says
what this means for each kind, and that a task does not contradict itself: its flag tells whether several
choices are correct, and around its fields there are as many parts as there have to be.

A builder checks some of this and arranges the rest. `DirectiveNode.wellFormed_of_build` needs nothing of
the registry or of the document: a slot that a custom descriptor does not require is still asked for by
the builder that needs it.
-/

namespace Courseware

namespace Text

/-- A text that begins and ends with a letter that is not blank. It is not empty then. -/
structure IsFilled (text : Text) : Prop where
  head : ∃ first ∈ text.head?, isBlank first = false
  last : ∃ last ∈ text.getLast?, isBlank last = false

variable {text : Text}

theorem IsFilled.ne_nil (filled : text.IsFilled) : text ≠ [] := by
  obtain ⟨first, hfirst, _⟩ := filled.head
  rintro rfl
  exact nomatch hfirst

theorem isBlank_head_trimStart {first : Char} (h : first ∈ (trimStart text).head?) :
    isBlank first = false := by
  have hhead := List.head?_dropWhile_not isBlank text
  rw [← trimStart, Option.mem_def.mp h] at hhead
  exact hhead

/-- What trimming leaves is filled, unless nothing is left. -/
theorem isFilled_trim_iff : (trim text).IsFilled ↔ trim text ≠ [] := by
  refine ⟨IsFilled.ne_nil, ?_⟩
  intro h
  have hreverse : (trim text).reverse = trimStart (trimStart text).reverse := by
    rw [trim, trimEnd, dropTrailing, List.reverse_reverse]
    rfl
  have hstart : trim text <+: trimStart text := by
    rw [← List.reverse_suffix, hreverse]
    exact List.dropWhile_suffix isBlank
  obtain ⟨first, rest, hcons⟩ := List.exists_cons_of_ne_nil h
  obtain ⟨after, happend⟩ := hstart
  constructor
  case head =>
    refine ⟨first, by rw [hcons]; rfl, ?_⟩
    apply @isBlank_head_trimStart text
    rw [← happend, hcons]
    rfl
  case last =>
    refine ⟨(trim text).getLast h, List.getLast?_eq_some_getLast h, ?_⟩
    apply @isBlank_head_trimStart (trimStart text).reverse
    rw [← hreverse, List.head?_reverse]
    exact List.getLast?_eq_some_getLast h

end Text

/-- A field accepts some answer, and every answer is filled. -/
structure GapField.WellFormed (field : GapField) : Prop where
  full : field.answers ≠ []
  answers : ∀ answer ∈ field.answers, Text.IsFilled answer

namespace Task

/-- What a learner needs of a task of each kind. -/
inductive WellFormed : Task → Prop
  /-- A hint or a solution is filled if there is one. -/
  | text {instruction : Text} {hint solution : Option Text}
      (instructed : Text.IsFilled instruction) (hinted : ∀ text ∈ hint, Text.IsFilled text)
      (solved : ∀ text ∈ solution, Text.IsFilled text) :
      WellFormed (text instruction hint solution)
  /-- There is a hint and a solution. -/
  | math {instruction hint solution : Text} (instructed : Text.IsFilled instruction)
      (hinted : Text.IsFilled hint) (solved : Text.IsFilled solution) :
      WellFormed (math instruction hint solution)
  | code {instruction : Text} {language : CodeLanguage} {lines : Text} {solution : Option Text}
      (instructed : Text.IsFilled instruction) :
      WellFormed (code instruction language lines solution)
  /-- There are two choices or more, and a correct one is among them. The flag tells whether there are two
  correct ones or more. -/
  | choice {question : Text} {choices : List Choice} {isMultiple : Bool} (asked : Text.IsFilled question)
      (several : 2 ≤ choices.length) (offered : ∀ choice ∈ choices, Text.IsFilled choice.text)
      (solvable : ∃ choice ∈ choices, choice.correct = true)
      (multiple : isMultiple = true ↔ 2 ≤ choices.countP Choice.correct) :
      WellFormed (choice question choices isMultiple)
  /-- There is a field, and one part more than there are fields. -/
  | gap {fields : List GapField} {parts : List Text} (full : fields ≠ [])
      (answerable : ∀ field ∈ fields, field.WellFormed) (parted : parts.length = fields.length + 1) :
      WellFormed (gap fields parts)

end Task

/-- A note, of either sort, is filled. -/
inductive Directive.WellFormed : Directive → Prop
  | note {content : Text} (filled : Text.IsFilled content) : WellFormed (note content)
  | presenterNote {content : Text} (filled : Text.IsFilled content) :
      WellFormed (presenterNote content)
  | task {content : Task} (whole : content.WellFormed) : WellFormed (task content)

namespace DirectiveNode

variable {node : DirectiveNode} {extraction : Extraction} {seed : String} {text written : Text}

/-! ## Texts -/

theorem isFilled_of_required {part : Part} (h : node.required extraction part text = .ok written) :
    written.IsFilled := by
  unfold required at h
  split at h
  · exact nomatch h
  · next empty =>
    obtain rfl := Except.ok.inj h
    exact Text.isFilled_trim_iff.mpr empty

theorem isFilled_of_requiredSlot {name : String}
    (h : node.requiredSlot extraction name = .ok written) : written.IsFilled := by
  unfold requiredSlot at h
  split at h
  · exact nomatch h
  · exact isFilled_of_required h

theorem isFilled_of_mem_optionalSlot {name : String}
    (h : written ∈ node.optionalSlot extraction name) : written.IsFilled := by
  obtain ⟨hmap, hfull⟩ := Option.filter_eq_some_iff.mp h
  obtain ⟨text, _, rfl⟩ := Option.map_eq_some_iff.mp hmap
  apply Text.isFilled_trim_iff.mpr
  intro empty
  rw [markdown, empty] at hfull
  exact nomatch hfull

/-! ## Kinds of tasks -/

theorem wellFormed_of_codeTask {task : Task} (h : node.codeTask extraction = .ok task) :
    task.WellFormed := by
  unfold codeTask at h
  obtain ⟨instruction, hinstruction, h⟩ := exists_of_bind_eq_ok h
  obtain ⟨code, _, h⟩ := exists_of_bind_eq_ok h
  split at h
  · exact nomatch h
  · simp only at h
    split at h
    · exact nomatch h
    · obtain rfl := Except.ok.inj h
      exact .code (isFilled_of_required hinstruction)

/-- Shuffling keeps the choices that have been checked. -/
theorem wellFormed_of_choiceTask {task : Task} (h : node.choiceTask extraction seed = .ok task) :
    task.WellFormed := by
  unfold choiceTask at h
  obtain ⟨question, hquestion, h⟩ := exists_of_bind_eq_ok h
  split at h
  · exact nomatch h
  · next several =>
    split at h
    · exact nomatch h
    · next offered =>
      split at h
      · exact nomatch h
      · next solvable =>
        obtain rfl := Except.ok.inj h
        refine .choice (isFilled_of_required hquestion) ?_ ?_ ?_ ?_
        · rw [length_shuffle]
          exact Nat.le_of_not_lt several
        · intro choice hchoice
          rw [(perm_shuffle _ seed).mem_iff] at hchoice
          have hfull : choice.text.isEmpty ≠ true := fun empty =>
            offered (List.any_eq_true.mpr ⟨choice, hchoice, empty⟩)
          obtain ⟨⟨correct, answer⟩, _, rfl⟩ := List.mem_map.mp hchoice
          exact Text.isFilled_trim_iff.mpr fun empty => hfull (List.isEmpty_iff.mpr empty)
        · rw [Bool.not_eq_true', Bool.not_eq_false] at solvable
          obtain ⟨choice, hchoice, correct⟩ := List.any_eq_true.mp solvable
          exact ⟨choice, (perm_shuffle _ seed).mem_iff.mpr hchoice, correct⟩
        · rw [(perm_shuffle _ seed).countP_eq, decide_eq_true_iff]
          rfl

/-! ## Gap texts -/

theorem isFilled_of_mem_readAnswers {inner answer : Text}
    (h : answer ∈ readAnswers extraction inner) : answer.IsFilled := by
  obtain ⟨hmem, hfull⟩ := List.mem_filter.mp h
  obtain ⟨part, _, rfl⟩ := List.mem_map.mp hmem
  apply Text.isFilled_trim_iff.mpr
  intro empty
  rw [empty] at hfull
  exact nomatch hfull

/-- The fields that are read are well formed, and there is one part more than there are fields. -/
theorem wellFormed_of_readFields {fields : List GapField} {parts : List Text}
    (h : readFields extraction text = .ok (fields, parts)) :
    (∀ field ∈ fields, field.WellFormed) ∧ parts.length = fields.length + 1 := by
  fun_induction readFields extraction text generalizing fields parts with
  | case1 text opened =>
    cases h
    exact ⟨fun field hfield => absurd hfield List.not_mem_nil, rfl⟩
  | case2 => cases h
  | case3 => cases h
  | case4 => cases h
  | case5 text before inside opened inner rest closed fields parts hrest full ih =>
    cases h
    obtain ⟨hfields, hparts⟩ := ih hrest
    rw [List.forall_mem_cons, List.length_cons, List.length_cons, hparts]
    exact ⟨⟨⟨full, fun answer => isFilled_of_mem_readAnswers⟩, hfields⟩, rfl⟩

theorem wellFormed_of_gapTask {task : Task} (h : node.gapTask extraction = .ok task) :
    task.WellFormed := by
  unfold gapTask at h
  simp only at h
  split at h
  · exact nomatch h
  · split at h <;> exact nomatch h
  · next fields parts full hread =>
    obtain rfl := Except.ok.inj h
    obtain ⟨hfields, hparts⟩ := wellFormed_of_readFields hread
    exact .gap full hfields (by rw [List.length_modifyHead, hparts])

/-! ## All kinds -/

/-- What a directive becomes is well formed, whatever its registry requires. -/
theorem wellFormed_of_build {directive : Directive}
    (h : node.build extraction seed = .ok directive) : directive.WellFormed := by
  unfold build at h
  split at h
  · obtain ⟨content, hcontent, rfl⟩ := exists_of_map_eq_ok h
    exact .note (isFilled_of_required hcontent)
  · obtain ⟨content, hcontent, rfl⟩ := exists_of_map_eq_ok h
    exact .presenterNote (isFilled_of_required hcontent)
  · obtain ⟨instruction, hinstruction, h⟩ := exists_of_bind_eq_ok h
    obtain rfl := Except.ok.inj h
    exact .task (.text (isFilled_of_required hinstruction)
      (fun _ => isFilled_of_mem_optionalSlot) (fun _ => isFilled_of_mem_optionalSlot))
  · obtain ⟨instruction, hinstruction, h⟩ := exists_of_bind_eq_ok h
    obtain ⟨hint, hhint, h⟩ := exists_of_bind_eq_ok h
    obtain ⟨solution, hsolution, h⟩ := exists_of_bind_eq_ok h
    obtain rfl := Except.ok.inj h
    exact .task (.math (isFilled_of_required hinstruction) (isFilled_of_requiredSlot hhint)
      (isFilled_of_requiredSlot hsolution))
  · obtain ⟨task, htask, rfl⟩ := exists_of_map_eq_ok h
    exact .task (wellFormed_of_codeTask htask)
  · obtain ⟨task, htask, rfl⟩ := exists_of_map_eq_ok h
    exact .task (wellFormed_of_choiceTask htask)
  · obtain ⟨task, htask, rfl⟩ := exists_of_map_eq_ok h
    exact .task (wellFormed_of_gapTask htask)

end DirectiveNode
end Courseware
