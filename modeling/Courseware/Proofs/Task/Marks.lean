import Courseware.Proofs.Except
import Courseware.Proofs.Task.Shuffle
import Courseware.Task.Builder

/-!
# The marks of a directive

Apart from texts, a directive has a kind, a question has the flags of its choices, and a gap text has
numbers of fields and of parts. These are its marks. A builder takes them from the content of the directive as it
stands when the directive closes: literals are placeholders then, except those that a nested note has
brought in. `DirectiveNode.marks` reads the marks of a content, and a directive that is built has
exactly these.
-/

namespace Courseware

/-! ## Marks of what has been built -/

namespace Directive

/-- The kind of a directive. -/
def kind : Directive → DirectiveKind
  | note _ => .note
  | presenterNote _ => .presenterNote
  | task (.text ..) => .textTask
  | task (.math ..) => .mathTask
  | task (.code ..) => .codeTask
  | task (.choice ..) => .choice
  | task (.gap ..) => .gap

/-- The marks of a directive: for each choice whether it is correct, and one for each field and for each part
around fields. -/
def marks : Directive → List Bool
  | task (.choice _ choices _) => choices.map Choice.correct
  | task (.gap fields parts) => fields.map (fun _ => true) ++ parts.map fun _ => false
  | _ => []

theorem exists_of_kind_eq_note {directive : Directive} (h : directive.kind = .note) :
    ∃ content, directive = note content := by
  cases directive with
  | note content => exact ⟨content, rfl⟩
  | presenterNote content => exact nomatch h
  | task task => cases task <;> exact nomatch h

end Directive

namespace DirectiveNode

/-! ## Marks of a content -/

/-- The number of fields in a text. -/
def countFields (text : Text) : Nat :=
  match _opened : Text.cut? ['[', '['] text with
  | none => 0
  | some (_, inside) =>
    match _closed : Text.cut? [']', ']'] inside with
    | none => 0
    | some (_, rest) => countFields rest + 1
termination_by text.length
decreasing_by
  have hopen := congrArg List.length (Text.append_of_cut? _opened)
  have hclose := congrArg List.length (Text.append_of_cut? _closed)
  simp only [List.length_append, List.length_cons] at hopen hclose
  omega

/-- The flags of the choices in a text, in the order of their lines. -/
def readFlags (text : Text) : List Bool := ((Text.lines text).filterMap readChoice?).map Prod.fst

/-- The marks of a gap text with a number of fields. -/
def gapMarks (fields : Nat) : List Bool := List.replicate fields true ++ List.replicate (fields + 1) false

/-- The marks in the content of a directive. -/
def marks (node : DirectiveNode) : List Bool :=
  match node.kind with
  | .choice => readFlags node.content
  | .gap => gapMarks (countFields (Text.dedent node.content))
  | _ => []

variable {node : DirectiveNode} {extraction : Extraction} {seed : String}

/-- Only the contents of questions and gap texts have marks. -/
theorem marks_congr {other : DirectiveNode} (kind : node.kind = other.kind)
    (content : node.kind = .choice ∨ node.kind = .gap → node.content = other.content) :
    node.marks = other.marks := by
  unfold marks
  rw [← kind]
  cases hkind : node.kind with
  | choice => rw [content (.inl hkind)]
  | gap => rw [content (.inr hkind)]
  | _ => rfl

theorem countFields_of_unopened {text : Text} (h : Text.cut? ['[', '['] text = none) :
    countFields text = 0 := by
  rw [countFields]
  split
  · rfl
  · next found =>
    rw [h] at found
    exact nomatch found

theorem countFields_of_closed {text before inside inner rest : Text}
    (hopened : Text.cut? ['[', '['] text = some (before, inside))
    (hclosed : Text.cut? [']', ']'] inside = some (inner, rest)) :
    countFields text = countFields rest + 1 := by
  rw [countFields]
  split
  · next found =>
    rw [hopened] at found
    exact nomatch found
  · next found =>
    rw [hopened] at found
    cases found
    split
    · next found =>
      rw [hclosed] at found
      exact nomatch found
    · next found =>
      rw [hclosed] at found
      cases found
      rfl

/-- Every field of a text is read, and a part before each and behind the last. -/
theorem length_of_readFields {text : Text} {fields : List GapField} {parts : List Text}
    (h : readFields extraction text = .ok (fields, parts)) :
    fields.length = countFields text ∧ parts.length = countFields text + 1 := by
  fun_induction readFields extraction text generalizing fields parts with
  | case1 text hopened =>
    cases h
    rw [countFields_of_unopened hopened]
    exact ⟨rfl, rfl⟩
  | case2 => exact nomatch h
  | case3 => exact nomatch h
  | case4 => exact nomatch h
  | case5 text before inside hopened inner rest hclosed fields parts hrest hanswers ih =>
    cases h
    obtain ⟨hfields, hparts⟩ := ih hrest
    rw [List.length_cons, List.length_cons, hfields, hparts, countFields_of_closed hopened hclosed]
    exact ⟨rfl, rfl⟩

/-! ## Builders keep marks -/

theorem marks_of_gapTask {task : Task} (gap : node.kind = .gap)
    (h : node.gapTask extraction = .ok task) :
    (Directive.task task).kind = .gap ∧ (Directive.task task).marks = node.marks := by
  unfold gapTask at h
  simp only at h
  split at h
  · exact nomatch h
  · split at h <;> exact nomatch h
  · next fields parts _ hread =>
    cases h
    obtain ⟨hfields, hparts⟩ := length_of_readFields hread
    refine ⟨rfl, ?_⟩
    rw [Directive.marks, List.map_const', List.map_const', List.length_modifyHead, hfields, hparts, marks, gap]
    rfl

theorem marks_of_choiceTask {task : Task} (choice : node.kind = .choice)
    (h : node.choiceTask extraction seed = .ok task) :
    (Directive.task task).kind = .choice ∧
      (Directive.task task).marks = shuffle node.marks seed := by
  unfold choiceTask at h
  obtain ⟨question, _, h⟩ := exists_of_bind_eq_ok h
  split at h
  · exact nomatch h
  · split at h
    · exact nomatch h
    · split at h
      · exact nomatch h
      · cases h
        refine ⟨rfl, ?_⟩
        rw [Directive.marks, map_shuffle, List.map_map, marks, choice]
        rfl

theorem kind_of_codeTask {task : Task} (h : node.codeTask extraction = .ok task) :
    (Directive.task task).kind = .codeTask ∧ (Directive.task task).marks = [] := by
  unfold codeTask at h
  obtain ⟨instruction, _, h⟩ := exists_of_bind_eq_ok h
  obtain ⟨written, _, h⟩ := exists_of_bind_eq_ok h
  split at h
  · exact nomatch h
  · simp only at h
    split at h
    · exact nomatch h
    · cases h
      exact ⟨rfl, rfl⟩

/-- A text that must not be empty is written as any other. -/
theorem eq_markdown_of_required {part : Part} {text written : Text}
    (h : node.required extraction part text = .ok written) : written = markdown extraction text := by
  unfold required at h
  split at h
  · exact nomatch h
  · exact (Except.ok.inj h).symm

/-- What a directive becomes has its kind and its marks. The marks of a question are shuffled with its
choices. -/
theorem spec_of_build {directive : Directive} (h : node.build extraction seed = .ok directive) :
    directive.kind = node.kind ∧
      directive.marks = if node.kind = .choice then shuffle node.marks seed else node.marks := by
  rw [build] at h
  cases hkind : node.kind with
  | note =>
    rw [hkind] at h
    obtain ⟨content, _, rfl⟩ := exists_of_map_eq_ok h
    exact ⟨rfl, by rw [marks, hkind]; rfl⟩
  | presenterNote =>
    rw [hkind] at h
    obtain ⟨content, _, rfl⟩ := exists_of_map_eq_ok h
    exact ⟨rfl, by rw [marks, hkind]; rfl⟩
  | textTask =>
    rw [hkind] at h
    obtain ⟨instruction, _, h⟩ := exists_of_bind_eq_ok h
    cases h
    exact ⟨rfl, by rw [marks, hkind]; rfl⟩
  | mathTask =>
    rw [hkind] at h
    obtain ⟨instruction, _, h⟩ := exists_of_bind_eq_ok h
    obtain ⟨hint, _, h⟩ := exists_of_bind_eq_ok h
    obtain ⟨solution, _, h⟩ := exists_of_bind_eq_ok h
    cases h
    exact ⟨rfl, by rw [marks, hkind]; rfl⟩
  | codeTask =>
    rw [hkind] at h
    obtain ⟨task, htask, rfl⟩ := exists_of_map_eq_ok h
    obtain ⟨hcode, hmarks⟩ := kind_of_codeTask htask
    exact ⟨hcode, by rw [hmarks, marks, hkind]; rfl⟩
  | choice =>
    rw [hkind] at h
    obtain ⟨task, htask, rfl⟩ := exists_of_map_eq_ok h
    exact marks_of_choiceTask hkind htask
  | gap =>
    rw [hkind] at h
    obtain ⟨task, htask, rfl⟩ := exists_of_map_eq_ok h
    exact marks_of_gapTask hkind htask

/-- Directives of one kind that are built with one seed have the same marks exactly when their contents
have. -/
theorem marks_eq_iff_of_build {other : DirectiveNode} {otherExtraction : Extraction}
    {first second : Directive} (same : node.kind = other.kind)
    (hfirst : node.build extraction seed = .ok first)
    (hsecond : other.build otherExtraction seed = .ok second) :
    first.marks = second.marks ↔ node.marks = other.marks := by
  rw [(spec_of_build hfirst).2, (spec_of_build hsecond).2, ← same]
  by_cases hchoice : node.kind = .choice
  · rw [if_pos hchoice, if_pos hchoice]
    exact ⟨shuffle_injective, fun h => congrArg (shuffle · seed) h⟩
  · rw [if_neg hchoice, if_neg hchoice]

end DirectiveNode
end Courseware
