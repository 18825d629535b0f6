import Courseware.Proofs.Source.Openings
import Courseware.Proofs.Task.Marks
import Courseware.Proofs.Text.Parts

/-!
# The fields of a gap text

A gap text is written with its fields in double brackets. It is read from the left: a field opens at the first
two opening brackets that stand together and closes at the first two closing brackets behind them, whatever
brackets stand between. `Peels` reads fields in this way, as long as each accepts some answer.

Nothing is lost by this. The fields that are read and the texts between them, written one after the other,
are the text that was read (`Peels.eq_flatMap`), and a gap text that is built has exactly the fields that can
be read. So a builder fails only where the next field cannot be read, or where there is none at all.
-/

namespace Courseware

namespace Text

variable {mark body : Text}

/-- What stands before the first mark does not hold the mark. -/
theorem IsUpToFirst.not_infix (full : mark ≠ []) (first : IsUpToFirst mark body) : ¬mark <:+: body := by
  rintro ⟨before, after, rfl⟩
  have hnone : after ++ mark = [] := first before (after ++ mark) (by simp only [List.append_assoc])
  exact full (List.append_eq_nil_iff.mp hnone).2

theorem cut?_of_not_infix {text : Text} (h : ¬mark <:+: text) : cut? mark text = none := by
  cases hcut : cut? mark text with
  | none => rfl
  | some parts => exact absurd ⟨parts.1, parts.2, append_of_cut? hcut⟩ h

/-- The parts of a text do not hold the separator. -/
theorem notMem_of_mem_split {separator : Char} {text part : Text} (h : part ∈ split separator text) :
    separator ∉ part := by
  induction text generalizing part with
  | nil =>
    rw [List.mem_singleton.mp h]
    exact List.not_mem_nil
  | cons letter rest ih =>
    obtain ⟨first, others, hparts⟩ := List.exists_cons_of_ne_nil (split_ne_nil separator rest)
    rw [split, hparts] at h
    rw [hparts] at ih
    by_cases hletter : letter == separator
    · rw [if_pos hletter] at h
      rcases List.mem_cons.mp h with rfl | hothers
      · exact List.not_mem_nil
      · exact ih hothers
    · rw [if_neg hletter] at h
      rcases List.mem_cons.mp h with rfl | hothers
      · rw [List.mem_cons, not_or]
        exact ⟨fun same => hletter (beq_iff_eq.mpr same.symm), ih List.mem_cons_self⟩
      · exact ih (List.mem_cons_of_mem _ hothers)

end Text

/-- A field as it is written: the text in front of it, and what stands between its brackets. -/
structure RawField where
  before : Text
  inner : Text
deriving DecidableEq, Repr

/-- A field with the text in front of it. -/
def RawField.text (raw : RawField) : Text := raw.before ++ (['[', '['] ++ (raw.inner ++ [']', ']']))

namespace DirectiveNode

variable {extraction : Extraction}

/-! ## Answers -/

/-- The answers that a field accepts: the pieces between its bars, restored and without the blanks around
them, as far as they are not empty then. -/
def Accepts (extraction : Extraction) (inner : Text) (answers : List Text) : Prop :=
  ∃ pieces, pieces ≠ [] ∧ inner = Text.join ['|'] pieces ∧ (∀ piece ∈ pieces, '|' ∉ piece) ∧
    answers = (pieces.map fun piece => Text.trim (extraction.restore piece)).filter
      fun answer => !answer.isEmpty

theorem accepts_iff {inner : Text} {answers : List Text} :
    Accepts extraction inner answers ↔ readAnswers extraction inner = answers := by
  constructor
  · rintro ⟨pieces, full, rfl, barless, rfl⟩
    rw [readAnswers, Text.split_join full barless]
  · rintro rfl
    exact ⟨_, Text.split_ne_nil _ _, (Text.join_split _ _).symm,
      fun _ hpiece => Text.notMem_of_mem_split hpiece, rfl⟩

/-! ## Reading from the left -/

/-- The fields that are read one after the other from the start of a text, and the text that is left. -/
inductive Peels (extraction : Extraction) : Text → List RawField → Text → Prop
  | done (text : Text) : Peels extraction text [] text
  | field {before inner rest last : Text} {answers : List Text} {raws : List RawField}
      (opens : Text.IsUpToFirst ['[', '['] before) (closes : Text.IsUpToFirst [']', ']'] inner)
      (accepts : Accepts extraction inner answers) (answered : answers ≠ [])
      (others : Peels extraction rest raws last) :
      Peels extraction (before ++ (['[', '['] ++ (inner ++ ([']', ']'] ++ rest))))
        (⟨before, inner⟩ :: raws) last

/-- Why the next field of a text cannot be read. -/
inductive Misreads (extraction : Extraction) : Text → ContentDefect → Prop
  | unclosed {before inside : Text} (opens : Text.IsUpToFirst ['[', '['] before)
      (unclosed : ¬[']', ']'] <:+: inside) :
      Misreads extraction (before ++ (['[', '['] ++ inside)) .unclosedField
  | unanswered {before inner rest : Text} (opens : Text.IsUpToFirst ['[', '['] before)
      (closes : Text.IsUpToFirst [']', ']'] inner) (accepts : Accepts extraction inner []) :
      Misreads extraction (before ++ (['[', '['] ++ (inner ++ ([']', ']'] ++ rest)))) .fieldWithoutAnswer

variable {text rest last : Text} {raws : List RawField}

/-- The fields that are read, and what is left, are the text. -/
theorem Peels.eq_flatMap (peels : Peels extraction text raws last) :
    text = raws.flatMap RawField.text ++ last := by
  induction peels with
  | done text => rfl
  | field opens closes accepts answered others ih =>
    rw [List.flatMap_cons, RawField.text, List.append_assoc, ← ih]
    simp only [List.append_assoc]

/-- No bracket that would open a field stands in front of one, and none that would close it inside. -/
theorem Peels.not_infix (peels : Peels extraction text raws last) :
    ∀ raw ∈ raws, ¬['[', '['] <:+: raw.before ∧ ¬[']', ']'] <:+: raw.inner := by
  induction peels with
  | done text => exact fun raw h => absurd h List.not_mem_nil
  | field opens closes accepts answered others ih =>
    refine List.forall_mem_cons.mpr ⟨?_, ih⟩
    exact ⟨opens.not_infix (List.cons_ne_nil _ _), closes.not_infix (List.cons_ne_nil _ _)⟩

/-! ## The reader reads from the left -/

theorem readFields_of_not_infix (h : ¬['[', '['] <:+: text) :
    readFields extraction text = .ok ([], [Text.trimEnd (extraction.restore text)]) := by
  rw [readFields]
  split
  · rfl
  · next found =>
    rw [Text.cut?_of_not_infix h] at found
    cases found

theorem readFields_of_cut? {before inside : Text}
    (hopened : Text.cut? ['[', '['] text = some (before, inside)) :
    readFields extraction text =
      match Text.cut? [']', ']'] inside with
      | none => .error .unclosedField
      | some (inner, rest) =>
        match readAnswers extraction inner with
        | [] => .error .fieldWithoutAnswer
        | answers =>
          match readFields extraction rest with
          | .error defect => .error defect
          | .ok (fields, parts) => .ok (⟨answers⟩ :: fields, extraction.restore before :: parts) := by
  rw [readFields]
  split
  · next found =>
    rw [hopened] at found
    cases found
  · next found =>
    rw [hopened] at found
    cases found
    split
    · next hclosed => rw [hclosed]
    · next hclosed => exact hclosed ▸ rfl

/-- A field that accepts some answer is read, and then what follows it. -/
theorem readFields_of_field {before inner : Text} {answers : List Text}
    (opens : Text.IsUpToFirst ['[', '['] before) (closes : Text.IsUpToFirst [']', ']'] inner)
    (accepts : Accepts extraction inner answers) (answered : answers ≠ []) :
    readFields extraction (before ++ (['[', '['] ++ (inner ++ ([']', ']'] ++ rest)))) =
      (readFields extraction rest).map fun (fields, parts) =>
        (⟨answers⟩ :: fields, extraction.restore before :: parts) := by
  rw [readFields_of_cut? (Text.cut?_of_isUpToFirst (List.cons_ne_nil _ _) opens _),
    Text.cut?_of_isUpToFirst (List.cons_ne_nil _ _) closes]
  obtain ⟨answer, more, rfl⟩ := List.exists_cons_of_ne_nil answered
  simp only [accepts_iff.mp accepts]
  cases readFields extraction rest <;> rfl

/-- A field and what is around it are the text in which it has been found. -/
theorem append_of_field {before inside inner : Text}
    (hopened : Text.cut? ['[', '['] text = some (before, inside))
    (hclosed : Text.cut? [']', ']'] inside = some (inner, rest)) :
    before ++ (['[', '['] ++ (inner ++ ([']', ']'] ++ rest))) = text := by
  rw [← Text.append_of_cut? hopened, ← Text.append_of_cut? hclosed]
  simp only [List.append_assoc]

/-- A field that has been found and accepts some answer comes before the fields behind it. -/
theorem Peels.of_cut? {before inside inner : Text}
    (hopened : Text.cut? ['[', '['] text = some (before, inside))
    (hclosed : Text.cut? [']', ']'] inside = some (inner, rest))
    (answered : readAnswers extraction inner ≠ []) (others : Peels extraction rest raws last) :
    Peels extraction text (⟨before, inner⟩ :: raws) last := by
  rw [← append_of_field hopened hclosed]
  exact .field (Text.isUpToFirst_of_cut? hopened) (Text.isUpToFirst_of_cut? hclosed)
    (accepts_iff.mpr rfl) answered others

/-- What is read from a text: its fields with their answers, and the parts around them, restored. -/
theorem exists_of_readFields {fields : List GapField} {parts : List Text}
    (h : readFields extraction text = .ok (fields, parts)) :
    ∃ raws last, Peels extraction text raws last ∧ ¬['[', '['] <:+: last ∧
      List.Forall₂ (fun raw field => Accepts extraction raw.inner field.answers) raws fields ∧
      parts = raws.map (fun raw => extraction.restore raw.before) ++
        [Text.trimEnd (extraction.restore last)] := by
  fun_induction readFields extraction text generalizing fields parts with
  | case1 text hopened =>
    cases h
    exact ⟨[], text, .done text, Text.not_infix_of_cut? hopened, .nil, rfl⟩
  | case2 => cases h
  | case3 => cases h
  | case4 => cases h
  | case5 text before inside hopened inner rest hclosed fields parts hrest hanswers ih =>
    cases h
    obtain ⟨raws, last, peels, closed, accepts, hparts⟩ := ih hrest
    refine ⟨_, last, .of_cut? hopened hclosed hanswers peels, closed,
      .cons (accepts_iff.mpr rfl) accepts, ?_⟩
    rw [List.map_cons, hparts, List.cons_append]

/-- Reading fails where the fields before have been read and the next one cannot be. -/
theorem readFields_eq_error_iff {defect : ContentDefect} :
    readFields extraction text = .error defect ↔
      ∃ raws rest, Peels extraction text raws rest ∧ Misreads extraction rest defect := by
  constructor
  · intro h
    fun_induction readFields extraction text with
    | case1 => cases h
    | case2 text before inside hopened hunclosed =>
      cases h
      have misreads := @Misreads.unclosed extraction _ _ (Text.isUpToFirst_of_cut? hopened)
        (Text.not_infix_of_cut? hunclosed)
      rw [← List.append_assoc, Text.append_of_cut? hopened] at misreads
      exact ⟨[], text, .done text, misreads⟩
    | case3 text before inside hopened inner rest hclosed hnone =>
      cases h
      have misreads := @Misreads.unanswered extraction _ _ rest (Text.isUpToFirst_of_cut? hopened)
        (Text.isUpToFirst_of_cut? hclosed) (accepts_iff.mpr hnone)
      rw [append_of_field hopened hclosed] at misreads
      exact ⟨[], text, .done text, misreads⟩
    | case4 text before inside hopened inner rest hclosed defect hrest hanswers ih =>
      cases h
      obtain ⟨raws, last, peels, misreads⟩ := ih hrest
      exact ⟨_, last, .of_cut? hopened hclosed hanswers peels, misreads⟩
    | case5 => cases h
  · rintro ⟨raws, rest, peels, misreads⟩
    induction peels with
    | field opens closes accepts answered others ih =>
      rw [readFields_of_field opens closes accepts answered, ih misreads]
      rfl
    | done text =>
      cases misreads with
      | unclosed opens unclosed =>
        rw [readFields_of_cut? (Text.cut?_of_isUpToFirst (List.cons_ne_nil _ _) opens _),
          Text.cut?_of_not_infix unclosed]
      | unanswered opens closes accepts =>
        rw [readFields_of_cut? (Text.cut?_of_isUpToFirst (List.cons_ne_nil _ _) opens _),
          Text.cut?_of_isUpToFirst (List.cons_ne_nil _ _) closes]
        simp only [accepts_iff.mp accepts]

/-- A text without field is one that holds no two opening brackets together. -/
theorem exists_readFields_eq_nil_iff :
    (∃ parts, readFields extraction text = .ok ([], parts)) ↔ ¬['[', '['] <:+: text := by
  constructor
  · rintro ⟨parts, h⟩
    obtain ⟨raws, last, peels, closed, accepts, _⟩ := exists_of_readFields h
    cases accepts
    cases peels
    exact closed
  · intro h
    exact ⟨_, readFields_of_not_infix h⟩

/-! ## Gap texts -/

variable {node : DirectiveNode} {fault : Fault}

/-- A gap text that is built has a field, and nothing of its content is lost. -/
theorem exists_of_gapTask {task : Task} (h : node.gapTask extraction = .ok task) :
    ∃ (first : RawField) (others : List RawField) (last : Text) (fields : List GapField),
      Peels extraction (Text.dedent node.content) (first :: others) last ∧ ¬['[', '['] <:+: last ∧
      List.Forall₂ (fun raw field => Accepts extraction raw.inner field.answers) (first :: others) fields ∧
      task = .gap fields (Text.trimStart (extraction.restore first.before) ::
        (others.map (fun raw => extraction.restore raw.before) ++
          [Text.trimEnd (extraction.restore last)])) := by
  unfold gapTask at h
  simp only at h
  split at h
  · exact nomatch h
  · split at h <;> exact nomatch h
  · next fields parts full hread =>
    obtain ⟨raws, last, peels, closed, accepts, rfl⟩ := exists_of_readFields hread
    cases raws with
    | nil =>
      cases accepts
      exact absurd rfl full
    | cons first others => exact ⟨first, others, last, fields, peels, closed, accepts, (Except.ok.inj h).symm⟩

/-- A gap text is not built where a field cannot be read, or where there is none. -/
theorem gapTask_eq_error_iff : node.gapTask extraction = .error fault ↔
    ∃ raws rest, Peels extraction (Text.dedent node.content) raws rest ∧
      ((∃ defect, Misreads extraction rest defect ∧ fault = .invalidContent node.kind defect) ∨
        raws = [] ∧ ¬['[', '['] <:+: rest ∧
          fault = if Text.isAllBlank (Text.dedent node.content) then .emptyPart node.kind .content
            else .invalidContent node.kind .noField) := by
  constructor
  · intro h
    unfold gapTask at h
    simp only at h
    split at h
    · next defect hread =>
      obtain ⟨raws, rest, peels, misreads⟩ := readFields_eq_error_iff.mp hread
      exact ⟨raws, rest, peels, .inl ⟨defect, misreads, (Except.error.inj h).symm⟩⟩
    · next parts hread =>
      have closed := exists_readFields_eq_nil_iff.mp ⟨parts, hread⟩
      refine ⟨[], _, .done _, .inr ⟨rfl, closed, ?_⟩⟩
      split at h
      · next blank =>
        rw [if_pos blank]
        exact (Except.error.inj h).symm
      · next visible =>
        rw [if_neg visible]
        exact (Except.error.inj h).symm
    · exact nomatch h
  · rintro ⟨raws, rest, peels, ⟨defect, misreads, rfl⟩ | ⟨rfl, closed, rfl⟩⟩
    · rw [gapTask, readFields_eq_error_iff.mpr ⟨raws, rest, peels, misreads⟩]
    · have whole : Text.dedent node.content = rest := peels.eq_flatMap
      rw [← whole] at closed
      rw [gapTask, readFields_of_not_infix closed]
      dsimp only
      split <;> rfl

/-- A gap text is built from its content without losing anything, and it is built unless the next field
cannot be read or there is no field at all. -/
theorem gapTask_splits (node : DirectiveNode) (extraction : Extraction) :
    (∀ task, node.gapTask extraction = .ok task →
      ∃ (first : RawField) (others : List RawField) (last : Text) (fields : List GapField),
        Text.dedent node.content = (first :: others).flatMap RawField.text ++ last ∧
        (∀ raw ∈ first :: others, ¬['[', '['] <:+: raw.before ∧ ¬[']', ']'] <:+: raw.inner) ∧
        ¬['[', '['] <:+: last ∧
        List.Forall₂ (fun raw field => Accepts extraction raw.inner field.answers) (first :: others) fields ∧
        task = .gap fields (Text.trimStart (extraction.restore first.before) ::
          (others.map (fun raw => extraction.restore raw.before) ++
            [Text.trimEnd (extraction.restore last)]))) ∧
    ∀ fault, node.gapTask extraction = .error fault ↔
      ∃ raws rest, Peels extraction (Text.dedent node.content) raws rest ∧
        ((∃ defect, Misreads extraction rest defect ∧ fault = .invalidContent node.kind defect) ∨
          raws = [] ∧ ¬['[', '['] <:+: rest ∧
            fault = if Text.isAllBlank (Text.dedent node.content) then .emptyPart node.kind .content
              else .invalidContent node.kind .noField) := by
  constructor
  · intro task h
    obtain ⟨first, others, last, fields, peels, closed, built⟩ := exists_of_gapTask h
    exact ⟨first, others, last, fields, peels.eq_flatMap, peels.not_infix, closed, built⟩
  · intro fault
    exact gapTask_eq_error_iff

/-- A gap text with one field, in which one of three pieces is blank. -/
def oneField : DirectiveNode := ⟨.gap, " a [[b | |c]] ".toList, []⟩

theorem gapTask_splits_oneField :
    ∃ (first : RawField) (others : List RawField) (last : Text),
      oneField.gapTask ⟨.pair 0xE000, []⟩ = .ok (.gap [⟨[['b'], ['c']]⟩] [['a', ' '], []]) ∧
      Text.dedent oneField.content = (first :: others).flatMap RawField.text ++ last ∧
      ¬['[', '['] <:+: last := by
  have built : oneField.gapTask ⟨.pair 0xE000, []⟩ =
      .ok (.gap [⟨[['b'], ['c']]⟩] [['a', ' '], []]) := by
    decide +kernel
  obtain ⟨first, others, last, _, whole, _, closed, _⟩ := (gapTask_splits _ _).1 _ built
  exact ⟨first, others, last, built, whole, closed⟩

end DirectiveNode
end Courseware
