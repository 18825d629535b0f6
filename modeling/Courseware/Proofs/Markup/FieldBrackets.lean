import Courseware.Proofs.Markup.GapText
import Courseware.Proofs.Markup.Sheets

/-!
# The brackets of fields

The content of a gap text is read twice. The reader pairs its brackets while it looks for the end of the gap
text; the builder then looks for the first two opening brackets that stand together and the first two closing
ones behind them. The builder knows nothing of pairs, so the brackets around a field need not belong together:
in `[[[x]]]` the field is closed one bracket too early. Nor does it know of escapes, so a bracket that is escaped
may be the first of the two that open a field, or of the two that close it.

The brackets around a field belong together exactly if they are brackets of the reader and those inside the field
are balanced (`FieldSigns.agrees_iff`). One of them is escaped exactly if the text in front of the field, or the
text inside it, ends with the backslash of an escape (`FieldSigns.isEscaped_iff`). If the brackets around all
fields belong together, those between the fields are balanced, but only taken together: a field may stand inside
a group.
-/

namespace Courseware

/-- The signs of a field with the text in front of it. -/
structure FieldSigns where
  before : List Sign
  outerOpening : Sign
  innerOpening : Sign
  inner : List Sign
  innerClosing : Sign
  outerClosing : Sign
deriving DecidableEq, Repr

namespace FieldSigns

variable {extraction : Extraction} {field : FieldSigns} {fields : List FieldSigns} {raw : RawField}
  {raws : List RawField} {last : Text} {signs rest : List Sign}

/-- The brackets around a field with the signs between them. -/
def delimited (field : FieldSigns) : List Sign :=
  field.outerOpening :: field.innerOpening :: (field.inner ++ [field.innerClosing, field.outerClosing])

/-- All signs of a field, with the text in front of it. -/
def all (field : FieldSigns) : List Sign := field.before ++ field.delimited

/-- The signs of a field that the builder finds. -/
structure Writes (extraction : Extraction) (field : FieldSigns) (raw : RawField) : Prop where
  before : field.before.map Sign.char = Text.visible (extraction.restore raw.before)
  openings : [field.outerOpening, field.innerOpening].map Sign.char = ['[', '[']
  inner : field.inner.map Sign.char = Text.visible (extraction.restore raw.inner)
  closings : [field.innerClosing, field.outerClosing].map Sign.char = [']', ']']

/-- The brackets around a field. -/
def delimiters (field : FieldSigns) : List Sign :=
  [field.outerOpening, field.innerOpening, field.innerClosing, field.outerClosing]

/-- Brackets that the reader has paired delimit a field, not letters that look like them. -/
def IsDelimited (field : FieldSigns) : Prop := ∀ sign ∈ field.delimiters, sign.isToken = true

/-- A bracket that is escaped delimits a field. -/
def IsEscaped (field : FieldSigns) : Prop := ∃ sign ∈ field.delimiters, sign.isEscaped = true

/-- The brackets that open a field are closed by those that close it, the inner by the inner and the outer by
the outer one. -/
def Agrees (field : FieldSigns) : Prop :=
  ∃ outer inner firstCloser secondCloser : Lexeme,
    field.outerOpening = .opens .bracket outer ∧ field.innerOpening = .opens .bracket inner ∧
      field.innerClosing = .closes .bracket firstCloser inner ∧
      field.outerClosing = .closes .bracket secondCloser outer

theorem Agrees.isDelimited (agrees : field.Agrees) : field.IsDelimited := by
  obtain ⟨outer, inner, firstCloser, secondCloser, houter, hinner, hfirst, hsecond⟩ := agrees
  rw [IsDelimited, delimiters, houter, hinner, hfirst, hsecond]
  simp [Sign.isToken]

/-! ## Finding the signs of fields -/

/-- The signs of a text with fields are those of the fields, and those of the text behind them. -/
theorem exists_writes (hwell : extraction.WellFormed) (reserved : extraction.sentinels.Reserved)
    (intact : extraction.sentinels.Intact extraction.literals.length
      (raws.flatMap RawField.text ++ last))
    (looks : signs.map Sign.char =
      Text.visible (extraction.restore (raws.flatMap RawField.text ++ last))) :
    ∃ fields rest, signs = fields.flatMap all ++ rest ∧ List.Forall₂ (Writes extraction) fields raws ∧
      rest.map Sign.char = Text.visible (extraction.restore last) := by
  induction raws generalizing signs with
  | nil => exact ⟨[], signs, rfl, .nil, looks⟩
  | cons raw others ih =>
    rw [List.flatMap_cons, List.append_assoc] at intact looks
    obtain ⟨hothers, hrestore⟩ := RawField.restore_text_append hwell reserved intact
    have hopening : Text.visible ['[', '['] = ['[', '['] := by decide
    have hclosing : Text.visible [']', ']'] = [']', ']'] := by decide
    rw [hrestore] at looks
    simp only [Text.visible_append, hopening, hclosing] at looks
    obtain ⟨before, _, rfl, hbefore, looks⟩ := List.map_eq_append_iff.mp looks
    obtain ⟨openings, _, rfl, hopenings, looks⟩ := List.map_eq_append_iff.mp looks
    obtain ⟨inner, _, rfl, hinner, looks⟩ := List.map_eq_append_iff.mp looks
    obtain ⟨closings, behind, rfl, hclosings, looks⟩ := List.map_eq_append_iff.mp looks
    obtain ⟨fields, rest, rfl, hfields, hrest⟩ := ih hothers looks
    obtain ⟨outerOpening, innerOpening, rfl⟩ : ∃ outer inner, openings = [outer, inner] :=
      List.length_eq_two.mp (by simpa using congrArg List.length hopenings)
    obtain ⟨innerClosing, outerClosing, rfl⟩ : ∃ inner outer, closings = [inner, outer] :=
      List.length_eq_two.mp (by simpa using congrArg List.length hclosings)
    refine ⟨⟨before, outerOpening, innerOpening, inner, innerClosing, outerClosing⟩ :: fields, rest, ?_,
      .cons ⟨hbefore, hopenings, hinner, hclosings⟩ hfields, hrest⟩
    simp only [List.flatMap_cons, all, delimited, List.append_assoc, List.cons_append, List.nil_append]

/-! ## Brackets that belong together -/

theorem exists_opens {sign : Sign} (token : sign.isToken = true) (looks : sign.char = '[') :
    ∃ lexeme, sign = .opens .bracket lexeme := by
  cases sign with
  | plain _ | escape | escaped _ _ => cases token
  | opens enclosure lexeme =>
    have hchar : enclosure.opening = '[' := looks
    cases enclosure with
    | bracket => exact ⟨lexeme, rfl⟩
    | brace => exact absurd hchar (by decide)
  | closes enclosure lexeme opener =>
    have hchar : enclosure.closing = '[' := looks
    cases enclosure <;> exact absurd hchar (by decide)

theorem exists_closes {sign : Sign} (token : sign.isToken = true) (looks : sign.char = ']') :
    ∃ lexeme opener, sign = .closes .bracket lexeme opener := by
  cases sign with
  | plain _ | escape | escaped _ _ => cases token
  | opens enclosure lexeme =>
    have hchar : enclosure.opening = ']' := looks
    cases enclosure <;> exact absurd hchar (by decide)
  | closes enclosure lexeme opener =>
    have hchar : enclosure.closing = ']' := looks
    cases enclosure with
    | bracket => exact ⟨lexeme, opener, rfl⟩
    | brace => exact absurd hchar (by decide)

/-- The lexemes of brackets that delimit a field. -/
theorem exists_of_isDelimited (writes : field.Writes extraction raw) (tokens : field.IsDelimited) :
    ∃ outer inner firstCloser firstOpener secondCloser secondOpener,
      field.outerOpening = .opens .bracket outer ∧ field.innerOpening = .opens .bracket inner ∧
        field.innerClosing = .closes .bracket firstCloser firstOpener ∧
        field.outerClosing = .closes .bracket secondCloser secondOpener := by
  obtain ⟨houterOpening, hinnerOpening⟩ := List.cons.inj writes.openings
  obtain ⟨hinnerClosing, houterClosing⟩ := List.cons.inj writes.closings
  obtain ⟨outer, houter⟩ := exists_opens (tokens _ (by simp [delimiters])) houterOpening
  obtain ⟨inner, hinner⟩ := exists_opens (tokens _ (by simp [delimiters])) (List.cons.inj hinnerOpening).1
  obtain ⟨firstCloser, firstOpener, hfirst⟩ := exists_closes (tokens _ (by simp [delimiters])) hinnerClosing
  obtain ⟨secondCloser, secondOpener, hsecond⟩ :=
    exists_closes (tokens _ (by simp [delimiters])) (List.cons.inj houterClosing).1
  exact ⟨outer, inner, firstCloser, firstOpener, secondCloser, secondOpener, houter, hinner, hfirst, hsecond⟩

theorem mem_filterMap_lexeme? {lexeme : Lexeme} {enclosure : Enclosure}
    (h : .opens enclosure lexeme ∈ signs) : lexeme ∈ signs.filterMap Sign.lexeme? :=
  List.mem_filterMap.mpr ⟨_, h, rfl⟩

/-- The brackets of the reader that delimit a field belong together exactly if those inside it are balanced. -/
theorem agrees_iff_balanced {before after : List Sign} (writes : field.Writes extraction raw)
    (tokens : field.IsDelimited)
    (h : Sign.run Prod.mk [] (before ++ (field.delimited ++ after)) = some [])
    (nodup : ((before ++ (field.delimited ++ after)).filterMap Sign.lexeme?).Nodup) :
    field.Agrees ↔ Sign.Balanced field.inner := by
  obtain ⟨outer, inner, firstCloser, firstOpener, secondCloser, secondOpener, houter, hinner, hfirst,
    hsecond⟩ := exists_of_isDelimited writes tokens
  rw [Sign.run_append, Option.bind_eq_some_iff] at h
  obtain ⟨groups, hgroups, hrest⟩ := h
  rw [Sign.run_append, Option.bind_eq_some_iff] at hrest
  obtain ⟨left, hdelimited, _⟩ := hrest
  rw [delimited, houter, hinner, hfirst, hsecond] at hdelimited nodup
  have hlexeme : ∀ lexeme, Sign.lexeme? (.opens .bracket lexeme) = some lexeme := fun _ => rfl
  rw [List.filterMap_append, List.cons_append, List.cons_append, List.filterMap_cons_some (hlexeme outer),
    List.filterMap_cons_some (hlexeme inner), List.append_assoc, List.filterMap_append,
    List.nodup_append, List.nodup_cons, List.nodup_cons] at nodup
  obtain ⟨_, ⟨houterFresh, hinnerFresh, _⟩, hbefore⟩ := nodup
  have apart : inner ≠ outer := fun same => houterFresh (by rw [same]; exact List.mem_cons_self)
  have unopened : .opens .bracket inner ∉ field.inner := fun hmem =>
    hinnerFresh (List.mem_append_left _ (mem_filterMap_lexeme? hmem))
  have fresh : (.bracket, inner) ∉ groups := by
    intro hmem
    rcases Sign.mem_or_mem_of_run hgroups hmem with hnil | hopens
    · exact absurd hnil List.not_mem_nil
    · exact hbefore inner (mem_filterMap_lexeme? hopens) inner
        (List.mem_cons_of_mem _ List.mem_cons_self) rfl
  rw [← Sign.closes_iff_balanced hdelimited unopened apart fresh]
  constructor
  · rintro ⟨_, _, _, _, houter', hinner', hfirst', hsecond'⟩
    cases houter.symm.trans houter'
    cases hinner.symm.trans hinner'
    cases hfirst.symm.trans hfirst'
    cases hsecond.symm.trans hsecond'
    exact ⟨rfl, rfl⟩
  · rintro ⟨rfl, rfl⟩
    exact ⟨_, _, _, _, houter, hinner, hfirst, hsecond⟩

/-- The brackets around a field belong together exactly if they are brackets of the reader and those inside the
field are balanced. -/
theorem agrees_iff {before after : List Sign} (writes : field.Writes extraction raw)
    (h : Sign.run Prod.mk [] (before ++ (field.delimited ++ after)) = some [])
    (nodup : ((before ++ (field.delimited ++ after)).filterMap Sign.lexeme?).Nodup) :
    field.Agrees ↔ field.IsDelimited ∧ Sign.Balanced field.inner := by
  constructor
  · intro agrees
    have tokens := agrees.isDelimited
    exact ⟨tokens, (agrees_iff_balanced writes tokens h nodup).mp agrees⟩
  · rintro ⟨tokens, balanced⟩
    exact (agrees_iff_balanced writes tokens h nodup).mpr balanced

/-- Where the brackets that delimit a field belong together and those inside are balanced, the field leaves all
groups as they are. -/
theorem run_delimited (agrees : field.Agrees) (balanced : Sign.Balanced field.inner)
    (groups : List Enclosure) : Sign.run Sign.kind groups field.delimited = some groups := by
  obtain ⟨outer, inner, firstCloser, secondCloser, houter, hinner, hfirst, hsecond⟩ := agrees
  have hbalanced := Sign.run_append_right balanced (.bracket :: .bracket :: groups)
  rw [delimited, houter, hinner, hfirst, hsecond, Sign.run, Sign.run, Sign.run_append]
  change (Sign.run Sign.kind ([] ++ .bracket :: .bracket :: groups) field.inner).bind _ = _
  rw [hbalanced]
  rfl

/-- Where this is so for all fields, the brackets between them are balanced as those of the whole text are. -/
theorem run_flatMap_before (balanced : ∀ field ∈ fields, field.Agrees ∧ Sign.Balanced field.inner)
    (groups : List Enclosure) (rest : List Sign) :
    Sign.run Sign.kind groups (fields.flatMap before ++ rest) =
      Sign.run Sign.kind groups (fields.flatMap all ++ rest) := by
  induction fields generalizing groups with
  | nil => rfl
  | cons field others ih =>
    obtain ⟨⟨hagrees, hinner⟩, hothers⟩ := List.forall_mem_cons.mp balanced
    rw [List.flatMap_cons, List.flatMap_cons, all, List.append_assoc, List.append_assoc, List.append_assoc,
      Sign.run_append, Sign.run_append]
    congr 1
    funext left
    rw [Sign.run_append Sign.kind left field.delimited, run_delimited hagrees hinner, Option.bind_some,
      ih hothers]

/-- Then the texts around the fields are balanced, each for itself, exactly if no group is open in front of any
field. -/
theorem balanced_parts_iff (balanced : ∀ field ∈ fields, field.Agrees ∧ Sign.Balanced field.inner)
    (whole : Sign.Balanced (fields.flatMap all ++ rest)) :
    (∀ part ∈ fields.map before ++ [rest], Sign.Balanced part) ↔
      ∀ earlier field later, fields = earlier ++ field :: later →
        Sign.Balanced (earlier.flatMap all ++ field.before) := by
  induction fields with
  | nil =>
    rw [List.map_nil, List.nil_append, List.forall_mem_singleton]
    exact ⟨fun _ earlier field later h => absurd h (by simp), fun _ => whole⟩
  | cons field others ih =>
    obtain ⟨⟨hagrees, hinner⟩, hothers⟩ := List.forall_mem_cons.mp balanced
    have hfield : ∀ signs, Sign.Balanced field.before →
        (Sign.Balanced (field.all ++ signs) ↔ Sign.Balanced signs) := by
      intro signs hbefore
      rw [Sign.Balanced, Sign.Balanced, all, List.append_assoc, Sign.run_append, hbefore, Option.bind_some,
        Sign.run_append, run_delimited hagrees hinner, Option.bind_some]
    rw [List.map_cons, List.cons_append, List.forall_mem_cons]
    constructor
    · rintro ⟨hbefore, hparts⟩ earlier other later hsplit
      rw [List.flatMap_cons, List.append_assoc, hfield _ hbefore] at whole
      cases earlier with
      | nil =>
        obtain ⟨rfl, rfl⟩ := List.cons.inj hsplit
        exact hbefore
      | cons first earlier =>
        obtain ⟨rfl, rfl⟩ := List.cons.inj hsplit
        rw [List.flatMap_cons, List.append_assoc, hfield _ hbefore]
        exact (ih hothers whole).mp hparts earlier other later rfl
    · intro houtside
      have hbefore : Sign.Balanced field.before := houtside [] field others rfl
      rw [List.flatMap_cons, List.append_assoc, hfield _ hbefore] at whole
      refine ⟨hbefore, (ih hothers whole).mpr fun earlier other later hsplit => ?_⟩
      have hother := houtside (field :: earlier) other later (by rw [hsplit, List.cons_append])
      rwa [List.flatMap_cons, List.append_assoc, hfield _ hbefore] at hother

/-! ## Brackets that are escaped -/

theorem isEscaped_of_delimited {after : List Sign} (writes : field.Writes extraction raw)
    (coupled : Sign.Coupled (field.all ++ after)) :
    (field.IsEscaped ↔ field.before.getLast? = some .escape ∨ field.inner.getLast? = some .escape) ∧
      Sign.Coupled after := by
  obtain ⟨houterOpening, hinnerOpening⟩ := List.cons.inj writes.openings
  obtain ⟨hinnerClosing, houterClosing⟩ := List.cons.inj writes.closings
  have hinnerOpening := (List.cons.inj hinnerOpening).1
  have houterClosing := (List.cons.inj houterClosing).1
  have shown : ∀ {sign : Sign} {letter : Char}, sign.char = letter → letter ≠ '\\' → sign.char ≠ '\\' :=
    fun hchar hletter => hchar ▸ hletter
  rw [all, delimited, List.append_assoc, List.cons_append, List.cons_append, List.append_assoc] at coupled
  have houter := coupled.isEscaped_iff
  have coupled := coupled.behind (shown houterOpening (by decide))
  -- Only the first bracket of two can stand behind a backslash, as the second stands behind the first.
  have hinner := @Sign.Coupled.isEscaped_iff _ [] _ coupled
  have coupled := @Sign.Coupled.behind _ [] _ coupled (shown hinnerOpening (by decide))
  have hfirst := coupled.isEscaped_iff
  have coupled := coupled.behind (shown hinnerClosing (by decide))
  have hsecond := @Sign.Coupled.isEscaped_iff _ [] _ coupled
  have coupled := @Sign.Coupled.behind _ [] _ coupled (shown houterClosing (by decide))
  refine ⟨?_, coupled⟩
  simp [IsEscaped, delimiters, houter, hinner, hfirst, hsecond]

/-- A bracket that is escaped delimits a field exactly if the text in front of the field, or the text inside it,
ends with the backslash of an escape. -/
theorem isEscaped_iff (writes : List.Forall₂ (Writes extraction) fields raws)
    (coupled : Sign.Coupled (fields.flatMap all ++ rest)) (h : field ∈ fields) :
    field.IsEscaped ↔ field.before.getLast? = some .escape ∨ field.inner.getLast? = some .escape := by
  induction writes with
  | nil => exact absurd h List.not_mem_nil
  | cons first _ ih =>
    rw [List.flatMap_cons, List.append_assoc] at coupled
    obtain ⟨hfirst, hrest⟩ := isEscaped_of_delimited first coupled
    rcases List.mem_cons.mp h with rfl | hothers
    · exact hfirst
    · exact ih hrest hothers

/-- The signs of a gap text, divided into those of its fields and those behind them, as the builder divides the
content. -/
structure Marks (extraction : Extraction) (content : Text) (signs : List Sign) (raws : List RawField)
    (last : Text) (marked : List FieldSigns) (rest : List Sign) : Prop where
  peels : DirectiveNode.Peels extraction (Text.dedent content) raws last
  closed : ¬['[', '['] <:+: last
  split : signs = marked.flatMap all ++ rest
  writes : List.Forall₂ (Writes extraction) marked raws
  looks : rest.map Sign.char = Text.visible (extraction.restore last)

/-- The texts around the fields look like their signs. -/
theorem Marks.parts {content : Text} {first : RawField} {others : List RawField}
    (marks : Marks extraction content signs (first :: others) last fields rest) :
    List.Forall₂ (fun part signs => Text.visible part = signs.map Sign.char)
      (Text.trimStart (extraction.restore first.before) ::
        (others.map (fun raw => extraction.restore raw.before) ++ [Text.trimEnd (extraction.restore last)]))
      (fields.map before ++ [rest]) := by
  obtain ⟨_, _, _, writes, looks⟩ := marks
  cases writes with
  | cons hfirst hothers =>
    refine .cons ((Text.visible_trimStart _).trans hfirst.before.symm) ?_
    refine List.rel_append ?_ (.cons ((Text.visible_trimEnd _).trans looks.symm) .nil)
    rw [List.forall₂_map_left_iff, List.forall₂_map_right_iff]
    exact hothers.flip.imp fun _ _ writes => writes.before.symm

end FieldSigns

/-! ## Gap texts of a document -/

section
variable {document : String} {context : Context} {registry : Registry} {source : Text}
  {extraction : Extraction} {closing : Closing} {signs : List Sign}
  (extracted : Extraction.ofSource source = .ok extraction)
  (mem : (closing, signs) ∈ Reader.signed ⟨document, context, registry, extraction⟩ .initial []
    (Lexeme.tokenize extraction.scrubbed))
include extracted mem

/-- The signs of a directive of a document are true of it. -/
theorem Closing.signed_of_mem : closing.Signed extraction (Lexeme.tokenize extraction.scrubbed) signs := by
  have hwell := Extraction.wellFormed_of_ofSource extracted
  have reserved := Extraction.reserved_of_ofSource extracted
  exact (Reader.Followed.initial extraction).signed_of_mem hwell reserved .initial
    (fun lexeme hlexeme => Lexeme.fits_of_mem_tokenize extracted hlexeme) mem

/-- The fields of a gap text, with its signs. -/
theorem DirectiveNode.exists_marks (gap : closing.frame.descriptor.kind = .gap) :
    ∃ (raws : List RawField) (last : Text) (fields : List GapField) (parts : List Text)
      (marked : List FieldSigns) (rest : List Sign),
      FieldSigns.Marks extraction closing.frame.node.content signs raws last marked rest ∧
      closing.frame.node.gapTask extraction = .ok (.gap fields parts) ∧
      List.Forall₂ (fun raw field => Accepts extraction raw.inner field.answers) raws fields ∧
      List.Forall₂ (fun part signs => Text.visible part = signs.map Sign.char) parts
        (marked.map FieldSigns.before ++ [rest]) := by
  have hwell := Extraction.wellFormed_of_ofSource extracted
  have reserved := Extraction.reserved_of_ofSource extracted
  have closed : closing ∈ Reader.closings ⟨document, context, registry, extraction⟩ .initial
      (Lexeme.tokenize extraction.scrubbed) := by
    rw [← Reader.map_fst_signed _ _ []]
    exact List.mem_map_of_mem mem
  have intact := (Closing.intact_of_mem extracted closed).content
  obtain ⟨first, others, last, fields, peels, hlast, built, accepts⟩ := exists_gapTask_of_mem closed gap
  have hdedent := intact.dedent reserved
  have looks := (Closing.signed_of_mem extracted mem).looks.trans
    (Extraction.visible_restore_dedent extracted intact).symm
  rw [peels.eq_flatMap] at hdedent looks
  obtain ⟨marked, rest, hsigns, hwrites, hrest⟩ := FieldSigns.exists_writes hwell reserved hdedent looks
  have marks : FieldSigns.Marks extraction closing.frame.node.content signs (first :: others) last marked rest :=
    ⟨peels, hlast, hsigns, hwrites, hrest⟩
  exact ⟨_, last, fields, _, marked, rest, marks, built, accepts, marks.parts⟩

/-- A gap text is divided into fields and the texts around them, as its signs are. The brackets around a field
belong together exactly if they are brackets of the reader and those inside the field are balanced; one of them is
escaped exactly if the text in front of the field, or the text inside it, ends with the backslash of an escape. The
brackets of the whole content are balanced. If those around each field belong together, the texts around the fields
are balanced when they are taken together, and each for itself exactly if no group is open in front of any field. -/
theorem DirectiveNode.gapTask_pairs_brackets (gap : closing.frame.descriptor.kind = .gap) :
    closing.Signed extraction (Lexeme.tokenize extraction.scrubbed) signs ∧ Sign.Balanced signs ∧
      (∃ (raws : List RawField) (last : Text) (fields : List GapField) (parts : List Text)
        (marked : List FieldSigns) (rest : List Sign),
        FieldSigns.Marks extraction closing.frame.node.content signs raws last marked rest ∧
        closing.frame.node.gapTask extraction = .ok (.gap fields parts) ∧
        List.Forall₂ (fun raw field => Accepts extraction raw.inner field.answers) raws fields ∧
        List.Forall₂ (fun part signs => Text.visible part = signs.map Sign.char) parts
          (marked.map FieldSigns.before ++ [rest])) ∧
      ∀ (raws : List RawField) (last : Text) (marked : List FieldSigns) (rest : List Sign),
        FieldSigns.Marks extraction closing.frame.node.content signs raws last marked rest →
        (∀ field ∈ marked,
          (field.Agrees ↔ field.IsDelimited ∧ Sign.Balanced field.inner) ∧
          (field.IsEscaped ↔
            field.before.getLast? = some .escape ∨ field.inner.getLast? = some .escape)) ∧
        ((∀ field ∈ marked, field.Agrees) →
          Sign.Balanced (marked.flatMap FieldSigns.before ++ rest) ∧
          ((∀ part ∈ marked.map FieldSigns.before ++ [rest], Sign.Balanced part) ↔
            ∀ earlier field later, marked = earlier ++ field :: later →
              Sign.Balanced (earlier.flatMap FieldSigns.all ++ field.before))) := by
  have signed := Closing.signed_of_mem extracted mem
  have balanced := Sign.balanced_of_run signed.run
  have nodup := (signed.trail).nodup (Lexeme.adjoin_tokenize extraction.scrubbed).nodup
  refine ⟨signed, balanced, exists_marks extracted mem gap, ?_⟩
  rintro raws last marked rest ⟨peels, hlast, rfl, hwrites, hrest⟩
  have hagrees : ∀ field ∈ marked, (field.Agrees ↔ field.IsDelimited ∧ Sign.Balanced field.inner) := by
    intro field hfield
    obtain ⟨raw, _, hraw⟩ := exists_of_mem_of_forall₂ hwrites.flip hfield
    obtain ⟨earlier, later, rfl⟩ := List.append_of_mem hfield
    have hsplit : (earlier ++ field :: later).flatMap FieldSigns.all ++ rest =
        (earlier.flatMap FieldSigns.all ++ field.before) ++
          (field.delimited ++ (later.flatMap FieldSigns.all ++ rest)) := by
      simp only [List.flatMap_append, List.flatMap_cons, FieldSigns.all, List.append_assoc]
    have hrun := signed.run
    rw [hsplit] at hrun nodup
    exact FieldSigns.agrees_iff hraw hrun nodup
  refine ⟨fun field hfield => ⟨hagrees field hfield,
    FieldSigns.isEscaped_iff hwrites signed.coupled hfield⟩, fun allAgree => ?_⟩
  have hbalanced : ∀ field ∈ marked, field.Agrees ∧ Sign.Balanced field.inner := fun field hfield =>
    ⟨allAgree field hfield, ((hagrees field hfield).mp (allAgree field hfield)).2⟩
  refine ⟨?_, FieldSigns.balanced_parts_iff hbalanced balanced⟩
  rw [Sign.Balanced, FieldSigns.run_flatMap_before hbalanced]
  exact balanced

end

/-- A gap text with a bracket too many in front of its field. -/
def threeBrackets : Text := "#gap[[[[x]]]]".toList

/-- How the gap text is closed. -/
def threeBracketsClosing : Closing where
  frame :=
    { descriptor := DirectiveKind.gap.descriptor
      start := 0
      content := [.source 11 [']'], .source 10 [']'], .source 9 [']'], .source 8 ['x'],
        .source 7 ['['], .source 6 ['['], .source 5 ['[']]
      filled := []
      slot := none
      groups := [] }
  outer := []

/-- The signs of the one field that is found in it. -/
def threeBracketsField : FieldSigns where
  before := []
  outerOpening := .opens .bracket ⟨.bracketOpen, 5, ['[']⟩
  innerOpening := .opens .bracket ⟨.bracketOpen, 6, ['[']⟩
  inner := [.opens .bracket ⟨.bracketOpen, 7, ['[']⟩, .plain 'x']
  innerClosing := .closes .bracket ⟨.bracketClose, 9, [']']⟩ ⟨.bracketOpen, 7, ['[']⟩
  outerClosing := .closes .bracket ⟨.bracketClose, 10, [']']⟩ ⟨.bracketOpen, 6, ['[']⟩

/-- The sign behind the field. -/
def threeBracketsRest : List Sign :=
  [.closes .bracket ⟨.bracketClose, 11, [']']⟩ ⟨.bracketOpen, 5, ['[']⟩]

theorem ofSource_threeBrackets :
    Extraction.ofSource threeBrackets = .ok ⟨.pair 0xE000, threeBrackets.map .letter⟩ :=
  Extraction.ofSource_of_isDelimiter (by decide) (by decide) (by decide)

theorem mem_signed_threeBrackets :
    (threeBracketsClosing, threeBracketsField.all ++ threeBracketsRest) ∈
      Reader.signed ⟨"d", .page, .standard, ⟨.pair 0xE000, threeBrackets.map .letter⟩⟩ .initial []
        (Lexeme.tokenize (Extraction.scrubbed ⟨.pair 0xE000, threeBrackets.map .letter⟩)) := by
  have hsigned : Reader.signed ⟨"d", .page, .standard, ⟨.pair 0xE000, threeBrackets.map .letter⟩⟩
      .initial [] (Lexeme.tokenize (Extraction.scrubbed ⟨.pair 0xE000, threeBrackets.map .letter⟩)) =
        [(threeBracketsClosing, threeBracketsField.all ++ threeBracketsRest)] := by
    cbv
  rw [hsigned]
  exact List.mem_singleton_self _

theorem marks_threeBrackets :
    FieldSigns.Marks ⟨.pair 0xE000, threeBrackets.map .letter⟩ threeBracketsClosing.frame.node.content
      (threeBracketsField.all ++ threeBracketsRest) [⟨[], ['[', 'x']⟩] [']'] [threeBracketsField]
      threeBracketsRest where
  peels := @DirectiveNode.Peels.of_cut? _ _ [']'] [']'] [] [] ['[', 'x', ']', ']', ']'] ['[', 'x']
    (by decide +kernel) (by decide +kernel) (by decide +kernel) (.done _)
  closed := by decide
  split := rfl
  writes := .cons ⟨by decide +kernel, by decide, by decide +kernel, by decide⟩ .nil
  looks := by decide +kernel

/-- Four brackets of the reader delimit the field. They do not belong together, since a bracket is open inside. -/
theorem DirectiveNode.gapTask_pairs_brackets_threeBrackets :
    Sign.Balanced (threeBracketsField.all ++ threeBracketsRest) ∧ threeBracketsField.IsDelimited ∧
      ¬threeBracketsField.IsEscaped ∧ ¬threeBracketsField.Agrees := by
  obtain ⟨_, balanced, _, hfields⟩ :=
    gapTask_pairs_brackets ofSource_threeBrackets mem_signed_threeBrackets rfl
  obtain ⟨hagrees, hescaped⟩ := (hfields _ _ _ _ marks_threeBrackets).1 _ List.mem_cons_self
  refine ⟨balanced, by simp [FieldSigns.IsDelimited, FieldSigns.delimiters, threeBracketsField, Sign.isToken],
    fun escaped => ?_, fun agrees => ?_⟩
  · exact absurd (hescaped.mp escaped) (by decide)
  · exact absurd (hagrees.mp agrees).2 (by decide)

/-- A gap text with a bracket that is escaped in front of its first field, and one that is escaped in its second
field. -/
def escapedBrackets : Text := "#gap[\\[[[x]] [[y\\]]]]".toList

/-- How the gap text is closed. -/
def escapedBracketsClosing : Closing where
  frame :=
    { descriptor := DirectiveKind.gap.descriptor
      start := 0
      content := [.source 19 [']'], .source 18 [']'], .source 16 ['\\', ']'], .source 15 ['y'],
        .source 14 ['['], .source 13 ['['], .source 12 [' '], .source 11 [']'], .source 10 [']'],
        .source 9 ['x'], .source 8 ['['], .source 7 ['['], .source 5 ['\\', '[']]
      filled := []
      slot := none
      groups := [] }
  outer := []

/-- The signs of the first field that is found in it. -/
def escapedOpeningField : FieldSigns where
  before := [.escape]
  outerOpening := .escaped '[' ⟨.escaped, 5, ['\\', '[']⟩
  innerOpening := .opens .bracket ⟨.bracketOpen, 7, ['[']⟩
  inner := [.opens .bracket ⟨.bracketOpen, 8, ['[']⟩, .plain 'x']
  innerClosing := .closes .bracket ⟨.bracketClose, 10, [']']⟩ ⟨.bracketOpen, 8, ['[']⟩
  outerClosing := .closes .bracket ⟨.bracketClose, 11, [']']⟩ ⟨.bracketOpen, 7, ['[']⟩

/-- The signs of the second one. -/
def escapedClosingField : FieldSigns where
  before := []
  outerOpening := .opens .bracket ⟨.bracketOpen, 13, ['[']⟩
  innerOpening := .opens .bracket ⟨.bracketOpen, 14, ['[']⟩
  inner := [.plain 'y', .escape]
  innerClosing := .escaped ']' ⟨.escaped, 16, ['\\', ']']⟩
  outerClosing := .closes .bracket ⟨.bracketClose, 18, [']']⟩ ⟨.bracketOpen, 14, ['[']⟩

/-- The sign behind the fields. -/
def escapedBracketsRest : List Sign :=
  [.closes .bracket ⟨.bracketClose, 19, [']']⟩ ⟨.bracketOpen, 13, ['[']⟩]

/-- A field may be opened by a bracket that is escaped, and closed by one. -/
theorem DirectiveNode.gapTask_takes_escaped_brackets :
    Extraction.ofSource escapedBrackets = .ok ⟨.pair 0xE000, escapedBrackets.map .letter⟩ ∧
      (escapedBracketsClosing, escapedOpeningField.all ++ escapedClosingField.all ++ escapedBracketsRest) ∈
        Reader.signed ⟨"d", .page, .standard, ⟨.pair 0xE000, escapedBrackets.map .letter⟩⟩ .initial []
          (Lexeme.tokenize (Extraction.scrubbed ⟨.pair 0xE000, escapedBrackets.map .letter⟩)) ∧
      FieldSigns.Marks ⟨.pair 0xE000, escapedBrackets.map .letter⟩ escapedBracketsClosing.frame.node.content
        (escapedOpeningField.all ++ escapedClosingField.all ++ escapedBracketsRest)
        [⟨['\\'], ['[', 'x']⟩, ⟨[' '], ['y', '\\']⟩] [']'] [escapedOpeningField, escapedClosingField]
        escapedBracketsRest ∧
      escapedBracketsClosing.frame.node.gapTask ⟨.pair 0xE000, escapedBrackets.map .letter⟩ =
        .ok (.gap [⟨[['[', 'x']]⟩, ⟨[['y', '\\']]⟩] [['\\'], [' '], [']']]) ∧
      escapedOpeningField.outerOpening.isEscaped = true ∧
      escapedClosingField.innerClosing.isEscaped = true := by
  have scanned : Piece.scan true [] escapedBrackets = .ok (escapedBrackets.map .letter) := by cbv
  refine ⟨Extraction.ofSource_eq_ok_iff.mpr ⟨Sentinels.choose?_eq_first (by decide) (by decide), scanned⟩,
    ?_, ?_, by decide +kernel, rfl, rfl⟩
  · have hsigned : Reader.signed ⟨"d", .page, .standard, ⟨.pair 0xE000, escapedBrackets.map .letter⟩⟩
        .initial [] (Lexeme.tokenize (Extraction.scrubbed ⟨.pair 0xE000, escapedBrackets.map .letter⟩)) =
          [(escapedBracketsClosing,
            escapedOpeningField.all ++ escapedClosingField.all ++ escapedBracketsRest)] := by
      cbv
    rw [hsigned]
    exact List.mem_singleton_self _
  · refine ⟨?_, by decide, rfl, ?_, by decide +kernel⟩
    · have second : Peels ⟨.pair 0xE000, escapedBrackets.map .letter⟩ " [[y\\]]]".toList
          [⟨[' '], ['y', '\\']⟩] [']'] :=
        @Peels.of_cut? _ _ [']'] [']'] [] [' '] "y\\]]]".toList ['y', '\\'] (by decide +kernel)
          (by decide +kernel) (by decide +kernel) (.done _)
      exact @Peels.of_cut? _ _ " [[y\\]]]".toList [']'] _ ['\\'] "[x]] [[y\\]]]".toList ['[', 'x']
        (by decide +kernel) (by decide +kernel) (by decide +kernel) second
    · exact .cons ⟨by decide +kernel, by decide, by decide +kernel, by decide⟩
        (.cons ⟨by decide +kernel, by decide, by decide +kernel, by decide⟩ .nil)

end Courseware
