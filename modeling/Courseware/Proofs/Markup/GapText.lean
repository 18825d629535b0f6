import Courseware.Proofs.Markup.Closing
import Courseware.Proofs.Markup.Restoring
import Courseware.Proofs.Source.Alignment
import Courseware.Proofs.Task.Fields

/-!
# Gap texts as Markdown

A gap text that is built can be written out again: the texts around its fields, and the fields between them as
they were written. This is the content of the directive, dedented and then restored, without blanks around it
(`rewritten_eq_trim`). The content of any other directive is restored before it is dedented. So a gap text is
the Markdown of its content only where the order of both does not matter.
-/

namespace Courseware

/-! ## Writing a gap text out again -/

namespace RawField

variable {extraction : Extraction} {raw : RawField} {rest : Text}

/-- A field that cuts no placeholder is restored part by part. -/
theorem restore_text_append (hwell : extraction.WellFormed) (reserved : extraction.sentinels.Reserved)
    (intact : extraction.sentinels.Intact extraction.literals.length (raw.text ++ rest)) :
    extraction.sentinels.Intact extraction.literals.length rest ∧
      extraction.restore (raw.text ++ rest) = extraction.restore raw.before ++
        (['[', '['] ++ (extraction.restore raw.inner ++ ([']', ']'] ++ extraction.restore rest))) := by
  have hopening : extraction.sentinels.opening ∉ ['[', '['] := fun hmem =>
    (reserved.ne_of_isOutside (List.all_eq_true.mp (by decide : ['[', '['].all Sentinels.isOutside = true)
      _ hmem)).1 rfl
  have hclosing : extraction.sentinels.opening ∉ [']', ']'] := fun hmem =>
    (reserved.ne_of_isOutside (List.all_eq_true.mp (by decide : [']', ']'].all Sentinels.isOutside = true)
      _ hmem)).1 rfl
  rw [text, List.append_assoc, List.append_assoc, List.append_assoc, ← List.append_assoc] at intact
  obtain ⟨hbefore, hinside⟩ := intact.around reserved (List.cons_ne_nil _ _) (by decide)
  rw [← List.append_assoc] at hinside
  obtain ⟨hinner, hrest⟩ := hinside.around reserved (List.cons_ne_nil _ _) (by decide)
  refine ⟨hrest, ?_⟩
  rw [text, List.append_assoc, List.append_assoc, List.append_assoc, hwell.restore_append hbefore,
    Extraction.restore_append_of_notMem hopening, hwell.restore_append hinner,
    Extraction.restore_append_of_notMem hclosing]

end RawField

namespace DirectiveNode

variable {extraction : Extraction} {first : RawField} {others : List RawField} {last : Text}

/-- A gap text written out again: its parts, and between them the fields as they were written, restored. -/
def rewritten (extraction : Extraction) : List RawField → List Text → Text
  | raw :: raws, part :: parts =>
    part ++ (['[', '['] ++ (extraction.restore raw.inner ++ ([']', ']'] ++ rewritten extraction raws parts)))
  | _, parts => parts.flatten

/-- The blanks at the end of a text stand behind its fields. -/
theorem trimEnd_field (before inner after : Text) :
    Text.trimEnd (before ++ (['[', '['] ++ (inner ++ ([']', ']'] ++ after)))) =
      before ++ (['[', '['] ++ (inner ++ ([']', ']'] ++ Text.trimEnd after))) := by
  have htrim := Text.trimEnd_append_cons (by decide : Text.isBlank ']' = false)
    (before ++ (['[', '['] ++ (inner ++ [']']))) after
  simpa only [List.append_assoc, List.cons_append, List.nil_append] using htrim

/-- The fields of a gap text and the parts around them end where the content ends. -/
theorem rewritten_eq_trimEnd (hwell : extraction.WellFormed) (reserved : extraction.sentinels.Reserved)
    (intact : extraction.sentinels.Intact extraction.literals.length
      ((first :: others).flatMap RawField.text ++ last)) :
    rewritten extraction (first :: others) (extraction.restore first.before ::
        (others.map (fun raw => extraction.restore raw.before) ++ [Text.trimEnd (extraction.restore last)])) =
      Text.trimEnd (extraction.restore ((first :: others).flatMap RawField.text ++ last)) := by
  induction others generalizing first with
  | nil =>
    rw [List.flatMap_singleton] at intact ⊢
    rw [(RawField.restore_text_append hwell reserved intact).2, trimEnd_field]
    simp only [rewritten, List.map_nil, List.nil_append, List.flatten_cons, List.flatten_nil, List.append_nil]
  | cons second more ih =>
    rw [List.flatMap_cons, List.append_assoc] at intact ⊢
    obtain ⟨hothers, hrestore⟩ := RawField.restore_text_append hwell reserved intact
    rw [hrestore, trimEnd_field, ← ih hothers]
    rfl

/-- A gap text written out again is its content, dedented, restored and trimmed. -/
theorem rewritten_eq_trim (hwell : extraction.WellFormed) (reserved : extraction.sentinels.Reserved)
    (intact : extraction.sentinels.Intact extraction.literals.length
      ((first :: others).flatMap RawField.text ++ last)) :
    rewritten extraction (first :: others) (Text.trimStart (extraction.restore first.before) ::
        (others.map (fun raw => extraction.restore raw.before) ++ [Text.trimEnd (extraction.restore last)])) =
      Text.trim (extraction.restore ((first :: others).flatMap RawField.text ++ last)) := by
  have hend := rewritten_eq_trimEnd hwell reserved intact
  have hrestore : ∃ inside, extraction.restore ((first :: others).flatMap RawField.text ++ last) =
      extraction.restore first.before ++ '[' :: inside := by
    rw [List.flatMap_cons, List.append_assoc] at intact ⊢
    exact ⟨_, (RawField.restore_text_append hwell reserved intact).2⟩
  obtain ⟨inside, hinside⟩ := hrestore
  have hbracket : Text.isBlank '[' = false := by decide
  rw [hinside, Text.trimEnd_append_cons hbracket, rewritten] at hend
  rw [hinside, Text.trim, Text.trimStart_append_cons hbracket, Text.trimEnd_append_cons hbracket,
    rewritten, List.append_cancel_left hend]

end DirectiveNode

/-! ## Gap texts of a document -/

namespace Reader

variable {scope : ReaderScope} {reader : Reader} {lexemes : List Lexeme} {closing : Closing}

/-- A directive is closed somewhere on the way. -/
theorem exists_of_mem_closings (h : closing ∈ closings scope reader lexemes) :
    ∃ before lexeme after middle, lexemes = before ++ lexeme :: after ∧ Walk scope reader before middle ∧
      middle.closing? lexeme = some closing ∧ ∃ next, Step scope middle lexeme next := by
  induction lexemes generalizing reader with
  | nil => exact absurd h List.not_mem_nil
  | cons lexeme rest ih =>
    rw [closings] at h
    cases hread : read scope reader lexeme with
    | error fault =>
      rw [hread] at h
      exact absurd h List.not_mem_nil
    | ok next =>
      rw [hread, List.mem_append] at h
      rcases h with hfirst | hrest
      · exact ⟨[], lexeme, rest, reader, rfl, .done reader, Option.mem_toList.mp hfirst, next,
          step_of_read hread⟩
      · obtain ⟨before, last, after, middle, rfl, walk, hclosing⟩ := ih hrest
        exact ⟨lexeme :: before, last, after, middle, rfl, .step (step_of_read hread) walk, hclosing⟩

end Reader

/-- A directive of a document is closed without a placeholder cut. -/
theorem Closing.intact_of_mem {document : String} {context : Context} {registry : Registry} {source : Text}
    {extraction : Extraction} (extracted : Extraction.ofSource source = .ok extraction) {closing : Closing}
    (h : closing ∈ Reader.closings ⟨document, context, registry, extraction⟩ .initial
      (Lexeme.tokenize extraction.scrubbed)) :
    closing.frame.node.Intact extraction := by
  have hwell := Extraction.wellFormed_of_ofSource extracted
  have reserved := Extraction.reserved_of_ofSource extracted
  obtain ⟨before, lexeme, after, middle, hlexemes, walk, hclosing, _⟩ := Reader.exists_of_mem_closings h
  have intact := walk.intact hwell reserved fun other hother => by
    have hmem : other ∈ Lexeme.tokenize extraction.scrubbed := by
      rw [hlexemes]
      exact List.mem_append_left _ hother
    exact Lexeme.intact_of_mem_scan reserved hwell.intact_scrubbed hmem
  have hframe : closing.frame ∈ middle.frames := by
    rw [(Reader.closing?_eq_some_iff.mp hclosing).1]
    exact List.mem_cons_self
  exact (intact.frames closing.frame hframe).node

/-- A directive that is closed has been built. -/
theorem Closing.exists_build_of_mem {scope : ReaderScope} {reader : Reader} {lexemes : List Lexeme}
    {closing : Closing} (h : closing ∈ Reader.closings scope reader lexemes) :
    ∃ seed directive, closing.frame.node.build scope.extraction seed = .ok directive := by
  obtain ⟨before, lexeme, after, middle, rfl, walk, hclosing, hread⟩ := Reader.exists_of_mem_closings h
  obtain ⟨next, step⟩ := hread
  obtain ⟨directive, built, _⟩ := step.closes hclosing
  exact ⟨_, directive, OpenDirective.node_build_of_build built⟩

namespace DirectiveNode

section
variable {document : String} {context : Context} {registry : Registry} {source : Text}
  {extraction : Extraction} {closing : Closing} (extracted : Extraction.ofSource source = .ok extraction)
  (mem : closing ∈ Reader.closings ⟨document, context, registry, extraction⟩ .initial
    (Lexeme.tokenize extraction.scrubbed)) (gap : closing.frame.descriptor.kind = .gap)
include mem gap

/-- A gap text of a document is built, from its fields and the texts around them. -/
theorem exists_gapTask_of_mem :
    ∃ (first : RawField) (others : List RawField) (last : Text) (fields : List GapField),
      Peels extraction (Text.dedent closing.frame.node.content) (first :: others) last ∧
      ¬['[', '['] <:+: last ∧
      closing.frame.node.gapTask extraction =
        .ok (.gap fields (Text.trimStart (extraction.restore first.before) ::
          (others.map (fun raw => extraction.restore raw.before) ++
            [Text.trimEnd (extraction.restore last)]))) ∧
      List.Forall₂ (fun raw field => Accepts extraction raw.inner field.answers) (first :: others) fields := by
  obtain ⟨seed, directive, built⟩ := Closing.exists_build_of_mem mem
  have hkind : closing.frame.node.kind = .gap := gap
  rw [build, hkind] at built
  obtain ⟨task, htask, _⟩ := exists_of_map_eq_ok built
  obtain ⟨first, others, last, fields, peels, closed, accepts, rfl⟩ := exists_of_gapTask htask
  exact ⟨first, others, last, fields, peels, closed, htask, accepts⟩

include extracted

/-- A gap text of a document, written out again, is its content, dedented, restored and trimmed. -/
theorem exists_rewritten_of_mem :
    ∃ (raws : List RawField) (last : Text) (fields : List GapField) (parts : List Text),
      Peels extraction (Text.dedent closing.frame.node.content) raws last ∧ ¬['[', '['] <:+: last ∧
      closing.frame.node.gapTask extraction = .ok (.gap fields parts) ∧
      List.Forall₂ (fun raw field => Accepts extraction raw.inner field.answers) raws fields ∧
      rewritten extraction raws parts =
        Text.trim (extraction.restore (Text.dedent closing.frame.node.content)) := by
  have hwell := Extraction.wellFormed_of_ofSource extracted
  have reserved := Extraction.reserved_of_ofSource extracted
  have intact := (Closing.intact_of_mem extracted mem).content.dedent reserved
  obtain ⟨first, others, last, fields, peels, closed, htask, accepts⟩ := exists_gapTask_of_mem mem gap
  rw [peels.eq_flatMap] at intact
  have hrewritten := rewritten_eq_trim hwell reserved intact
  rw [← peels.eq_flatMap] at hrewritten
  exact ⟨_, last, fields, _, peels, closed, htask, accepts, hrewritten⟩

/-- A gap text of a document, written out again, is its content, which has been dedented before it was
restored. This is the Markdown of the content, as a note would have it, exactly if no literal in it spans lines
or nothing is taken away from the start or the end of any line behind the first. -/
theorem rewritten_eq_markdown_iff :
    ∃ (raws : List RawField) (last : Text) (fields : List GapField) (parts : List Text),
      Peels extraction (Text.dedent closing.frame.node.content) raws last ∧ ¬['[', '['] <:+: last ∧
      closing.frame.node.gapTask extraction = .ok (.gap fields parts) ∧
      List.Forall₂ (fun raw field => Accepts extraction raw.inner field.answers) raws fields ∧
      rewritten extraction raws parts =
        Text.trim (extraction.restore (Text.dedent closing.frame.node.content)) ∧
      (rewritten extraction raws parts = markdown extraction closing.frame.node.content ↔
        (∀ line ∈ Text.lines closing.frame.node.content, '\n' ∉ extraction.restore line) ∨
          Text.commonIndent (Text.lines (extraction.restore closing.frame.node.content)) = 0 ∧
            (Text.commonIndent (Text.lines closing.frame.node.content) = 0 ∨
              (Text.margins closing.frame.node.content).length ≤ 1) ∧
            Text.trim (extraction.restore (Text.withFeeds closing.frame.node.content)) =
              Text.trim (Text.withFeeds (extraction.restore closing.frame.node.content))) := by
  have intact := (Closing.intact_of_mem extracted mem).content
  obtain ⟨raws, last, fields, parts, peels, closed, built, accepts, hrewritten⟩ :=
    exists_rewritten_of_mem extracted mem gap
  refine ⟨raws, last, fields, parts, peels, closed, built, accepts, hrewritten, ?_⟩
  rw [hrewritten]
  exact Extraction.trim_restore_dedent_iff extracted intact

end

/-- A gap text that is indented and holds a literal of two lines. -/
def spanningSource : Text := '#' :: ("gap[ x [[y]] ".toList ++ ("$$a\n b$$".toList ++ [']']))

/-- What is extracted from it. -/
def spanningExtraction : Extraction :=
  ⟨.pair 0xE000, .letter '#' :: ("gap[ x [[y]] ".toList.map .letter ++
    .literal (.displayMath "$$a\n b$$".toList) :: [']'].map .letter)⟩

/-- How it is closed. -/
def spanningClosing : Closing where
  frame :=
    { descriptor := DirectiveKind.gap.descriptor
      start := 0
      content := [.source 13 [' ', Char.ofNat 0xE000, '0', Char.ofNat 0xE001], .source 12 [']'],
        .source 11 [']'], .source 10 ['y'], .source 9 ['['], .source 8 ['['], .source 5 [' ', 'x', ' ']]
      filled := []
      slot := none
      groups := [] }
  outer := []

theorem ofSource_spanningSource : Extraction.ofSource spanningSource = .ok spanningExtraction :=
  @Extraction.ofSource_of_readLiteral? '#' "gap[ x [[y]] ".toList [']'] []
    (.displayMath "$$a\n b$$".toList) (by decide) (by decide) (by cbv) (by decide) (by cbv) (by decide)

theorem mem_closings_spanning :
    spanningClosing ∈ Reader.closings ⟨"d", .page, .standard, spanningExtraction⟩ .initial
      (Lexeme.tokenize spanningExtraction.scrubbed) := by
  have hclosings : Reader.closings ⟨"d", .page, .standard, spanningExtraction⟩ .initial
      (Lexeme.tokenize spanningExtraction.scrubbed) = [spanningClosing] := by
    cbv
  rw [hclosings]
  exact List.mem_singleton_self _

theorem trim_restore_dedent_spanning :
    Text.trim (spanningExtraction.restore (Text.dedent spanningClosing.frame.node.content)) ≠
      markdown spanningExtraction spanningClosing.frame.node.content := by
  decide +kernel

theorem rewritten_ne_markdown_spanning :
    ∃ (raws : List RawField) (last : Text) (fields : List GapField) (parts : List Text),
      Peels spanningExtraction (Text.dedent spanningClosing.frame.node.content) raws last ∧
      spanningClosing.frame.node.gapTask spanningExtraction = .ok (.gap fields parts) ∧
      rewritten spanningExtraction raws parts ≠
        markdown spanningExtraction spanningClosing.frame.node.content := by
  obtain ⟨raws, last, fields, parts, peels, _, built, _, hrewritten, _⟩ :=
    rewritten_eq_markdown_iff ofSource_spanningSource mem_closings_spanning rfl
  exact ⟨raws, last, fields, parts, peels, built, hrewritten ▸ trim_restore_dedent_spanning⟩

/-- The lines of a literal in a gap text are not aligned with its first line. -/
theorem not_rewritten_eq_markdown :
    ¬∀ (document : String) (context : Context) (registry : Registry) (source : Text)
      (extraction : Extraction) (closing : Closing) (raws : List RawField) (last : Text)
      (fields : List GapField) (parts : List Text),
      Extraction.ofSource source = .ok extraction →
      closing ∈ Reader.closings ⟨document, context, registry, extraction⟩ .initial
        (Lexeme.tokenize extraction.scrubbed) →
      closing.frame.descriptor.kind = .gap →
      Peels extraction (Text.dedent closing.frame.node.content) raws last →
      ¬['[', '['] <:+: last →
      closing.frame.node.gapTask extraction = .ok (.gap fields parts) →
      rewritten extraction raws parts = markdown extraction closing.frame.node.content := by
  intro aligned
  obtain ⟨raws, last, fields, parts, peels, closed, built, _, hrewritten⟩ :=
    exists_rewritten_of_mem ofSource_spanningSource mem_closings_spanning rfl
  have same := aligned _ _ _ _ _ _ raws last fields parts ofSource_spanningSource
    mem_closings_spanning rfl peels closed built
  exact trim_restore_dedent_spanning (hrewritten.symm.trans same)

end DirectiveNode
end Courseware
