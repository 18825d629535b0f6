import Courseware.Proofs.Markup.Effect
import Courseware.Proofs.Markup.Lexing
import Courseware.Proofs.Markup.Recognition
import Courseware.Proofs.Source.Position

/-!
# Faults name what stands at their position

A fault is reported with the offset of a lexeme: of the opening of the directive that it is about, of the
name that is unknown or out of place, or of the bracket or brace that has no partner. `Fault.FitsAt`
says, for every kind of fault, with what a text must begin for the fault to name it. The lexeme to which
a fault is charged fits it, wherever it is raised, and since no lexeme of this kind overlaps a
placeholder, so does the document at the position that is reported.
-/

namespace Courseware

/-- A text that begins with a number sign, a name and a bracket or brace. -/
def OpensWith (enclosure : Enclosure) (name : String) (text : Text) : Prop :=
  ∃ rest, text = '#' :: (name.toList ++ enclosure.opening :: rest)

theorem OpensWith.append {enclosure : Enclosure} {name : String} {text : Text}
    (opens : OpensWith enclosure name text) (more : Text) :
    OpensWith enclosure name (text ++ more) := by
  obtain ⟨rest, rfl⟩ := opens
  refine ⟨rest ++ more, ?_⟩
  rw [List.cons_append, List.append_assoc, List.cons_append]

namespace Lexeme

/-- Lexemes that open a block or a slot, or close something. -/
def IsMark (lexeme : Lexeme) : Prop :=
  ∃ enclosure, lexeme.token.names? = some enclosure ∨ lexeme.token.closes? = some enclosure

/-- What opens a block or a slot begins with the name that the lexeme has. -/
theorem Spelled.opensWith {lexeme : Lexeme} {enclosure : Enclosure} (spelled : Spelled lexeme)
    (named : lexeme.token.names? = some enclosure) :
    OpensWith enclosure lexeme.name lexeme.text :=
  ⟨[], spelled.text_of_names? named⟩

/-- A lexeme that opens or closes something begins with a character that stands in no placeholder, and
holds no sentinel. -/
theorem Spelled.exists_mark {sentinels : Sentinels} (reserved : sentinels.Reserved)
    {lexeme : Lexeme} (spelled : Spelled lexeme) (mark : lexeme.IsMark) :
    ∃ first others, lexeme.text = first :: others ∧ Sentinels.isOutside first = true ∧
      sentinels.opening ∉ first :: others := by
  have ne_opening : ∀ letter, Sentinels.isReserved letter = false → sentinels.opening ≠ letter := by
    rintro letter hletter rfl
    exact Bool.noConfusion (hletter.symm.trans reserved.opening)
  obtain ⟨enclosure, named | closing⟩ := mark
  · obtain ⟨letters, htext, hletters⟩ := spelled.names enclosure named
    refine ⟨'#', _, htext, by decide, ?_⟩
    rw [List.mem_cons, List.mem_append, List.mem_singleton]
    rintro (hsign | hletter | hbracket)
    · exact ne_opening '#' (by decide) hsign
    · have hname := hletters _ hletter
      rw [Token.isNameRest, Bool.or_eq_true, beq_iff_eq] at hname
      rcases hname with halphanum | hunderscore
      · exact ne_opening _ (Sentinels.isReserved_of_isAlphanum halphanum) rfl
      · exact ne_opening '_' (by decide) hunderscore
    · exact ne_opening enclosure.opening (by cases enclosure <;> decide) hbracket
  · refine ⟨enclosure.closing, [], spelled.closes enclosure closing, ?_, ?_⟩
    · cases enclosure <;> decide
    · rw [List.mem_singleton]
      exact ne_opening enclosure.closing (by cases enclosure <;> decide)

end Lexeme

namespace Fault

/-- With what a text begins that a fault names. A directive is named by its tag and a slot by its name;
brackets and braces without partner are named by the directive that they stand in, or stand there
themselves. -/
def FitsAt (text : Text) : Fault → Prop
  | unterminated _ => False
  | unknownDirective name => ∃ enclosure, OpensWith enclosure name text
  | missingSlot kind _ | notAllowed kind _ | emptyPart kind _ | unsupportedLanguage kind _
  | invalidContent kind _ => OpensWith .bracket kind.tag text
  | unexpectedSlot slot _ | duplicateSlot _ slot => ∃ enclosure, OpensWith enclosure slot text
  | unbalanced kind =>
    OpensWith .bracket kind.tag text ∨
      ∃ (enclosure : Enclosure) (rest : Text), text = enclosure.closing :: rest

/-- What a text begins with does not depend on what follows. -/
theorem FitsAt.append {fault : Fault} {text : Text} (fits : fault.FitsAt text) (more : Text) :
    fault.FitsAt (text ++ more) := by
  cases fault with
  | unterminated kind => exact fits
  | unknownDirective name | unexpectedSlot slot parent | duplicateSlot kind slot =>
    obtain ⟨enclosure, opens⟩ := fits
    exact ⟨enclosure, opens.append more⟩
  | unbalanced kind =>
    rcases fits with opens | ⟨enclosure, rest, rfl⟩
    · exact .inl (opens.append more)
    · exact .inr ⟨enclosure, rest ++ more, rfl⟩
  | _ => exact OpensWith.append fits more

/-- Faults in the content or the use of a directive of some kind. -/
def IsAbout (kind : DirectiveKind) : Fault → Prop
  | missingSlot other _ | notAllowed other _ | emptyPart other _ | unsupportedLanguage other _
  | invalidContent other _ => other = kind
  | _ => False

theorem IsAbout.fitsAt {kind : DirectiveKind} {fault : Fault} (about : fault.IsAbout kind)
    {text : Text} (opens : OpensWith .bracket kind.tag text) : fault.FitsAt text := by
  cases fault with
  | unterminated | unknownDirective | unexpectedSlot | duplicateSlot | unbalanced =>
    exact about.elim
  | _ =>
    obtain rfl := about
    exact opens

end Fault

/-! ## What builders refuse -/

namespace DirectiveNode

variable {node : DirectiveNode} {extraction : Extraction} {seed : String} {fault : Fault}

theorem isAbout_of_required {part : Part} {text : Text}
    (h : node.required extraction part text = .error fault) : fault.IsAbout node.kind := by
  unfold required at h
  split at h
  · cases h
    exact rfl
  · exact nomatch h

theorem isAbout_of_requiredSlot {name : String}
    (h : node.requiredSlot extraction name = .error fault) : fault.IsAbout node.kind := by
  unfold requiredSlot at h
  split at h
  · cases h
    exact rfl
  · exact isAbout_of_required h

theorem isAbout_of_codeTask (h : node.codeTask extraction = .error fault) :
    fault.IsAbout node.kind := by
  unfold codeTask at h
  rcases error_or_of_bind_eq_error h with hfault | ⟨instruction, _, h⟩
  · exact isAbout_of_required hfault
  · rcases error_or_of_bind_eq_error h with hfault | ⟨code, _, h⟩
    · exact isAbout_of_requiredSlot hfault
    · split at h
      · cases h
        exact rfl
      · simp only at h
        split at h
        · cases h
          exact rfl
        · exact nomatch h

theorem isAbout_of_choiceTask (h : node.choiceTask extraction seed = .error fault) :
    fault.IsAbout node.kind := by
  unfold choiceTask at h
  rcases error_or_of_bind_eq_error h with hfault | ⟨question, _, h⟩
  · exact isAbout_of_required hfault
  · split at h
    · cases h
      exact rfl
    · split at h
      · cases h
        exact rfl
      · split at h
        · cases h
          exact rfl
        · exact nomatch h

theorem isAbout_of_gapTask (h : node.gapTask extraction = .error fault) :
    fault.IsAbout node.kind := by
  unfold gapTask at h
  simp only at h
  split at h
  · cases h
    exact rfl
  · split at h <;> (cases h; exact rfl)
  · exact nomatch h

/-- A builder only finds faults in the directive that it builds. -/
theorem isAbout_of_build (h : node.build extraction seed = .error fault) :
    fault.IsAbout node.kind := by
  unfold build at h
  split at h
  · exact isAbout_of_required (error_of_map_eq_error h)
  · exact isAbout_of_required (error_of_map_eq_error h)
  · rcases error_or_of_bind_eq_error h with hfault | ⟨instruction, _, h⟩
    · exact isAbout_of_required hfault
    · exact nomatch h
  · rcases error_or_of_bind_eq_error h with hfault | ⟨instruction, _, h⟩
    · exact isAbout_of_required hfault
    · rcases error_or_of_bind_eq_error h with hfault | ⟨hint, _, h⟩
      · exact isAbout_of_requiredSlot hfault
      · rcases error_or_of_bind_eq_error h with hfault | ⟨solution, _, h⟩
        · exact isAbout_of_requiredSlot hfault
        · exact nomatch h
  · exact isAbout_of_codeTask (error_of_map_eq_error h)
  · exact isAbout_of_choiceTask (error_of_map_eq_error h)
  · exact isAbout_of_gapTask (error_of_map_eq_error h)

end DirectiveNode

theorem OpenDirective.isAbout_of_build {frame : OpenDirective} {extraction : Extraction}
    {seed : String} {fault : Fault} (h : frame.build extraction seed = .error fault) :
    fault.IsAbout frame.descriptor.kind := by
  unfold build at h
  split at h
  · cases h
    exact rfl
  · exact DirectiveNode.isAbout_of_build h

/-! ## What the reader refuses -/

namespace Reader

variable {scope : ReaderScope} {reader next : Reader} {lexeme : Lexeme} {report : FaultAt}

/-- A fault is charged to a lexeme that it names, which opens or closes something. -/
def Blames (lexemes : List Lexeme) (report : FaultAt) : Prop :=
  ∃ culprit ∈ lexemes, culprit.start = report.offset ∧ culprit.IsMark ∧
    report.fault.FitsAt culprit.text

theorem Blames.append {lexemes : List Lexeme} (blames : Blames lexemes report)
    (more : List Lexeme) : Blames (lexemes ++ more) report := by
  obtain ⟨culprit, hmem, hblame⟩ := blames
  exact ⟨culprit, List.mem_append_left more hmem, hblame⟩

/-- Every open directive has an opening among the lexemes that have been read. -/
def Rooted (lexemes : List Lexeme) (reader : Reader) : Prop :=
  ∀ site ∈ reader.sites, ∃ opening ∈ lexemes, opening.start = site.2 ∧ opening.IsMark ∧
    OpensWith .bracket site.1.tag opening.text

/-- A directive that has been read to its end and is refused, or whose brackets have no partner. -/
theorem Rooted.blames {lexemes : List Lexeme} (rooted : Rooted lexemes reader)
    {frame : OpenDirective} (h : frame ∈ reader.frames) {fault : Fault}
    (fits : ∀ text, OpensWith .bracket frame.descriptor.kind.tag text → fault.FitsAt text) :
    Blames lexemes ⟨frame.start, fault⟩ := by
  obtain ⟨opening, hmem, hstart, mark, opens⟩ := rooted frame.site (List.mem_map_of_mem h)
  exact ⟨opening, hmem, hstart, mark, fits _ opens⟩

/-- Openings are read before what they open. -/
theorem Walk.rooted {lexemes : List Lexeme} (walk : Walk scope .initial lexemes next)
    (spelled : ∀ lexeme ∈ lexemes, lexeme.Spelled) : Rooted lexemes next := by
  refine walk.invariant
    (fun done reached => (∀ lexeme ∈ done, lexeme.Spelled) → Rooted done reached)
    (fun _ site hsite => absurd hsite List.not_mem_nil) ?_ spelled
  intro before middle lexeme after _ ih step hspelled
  have hbefore := ih fun earlier hearlier => hspelled earlier (List.mem_append_left _ hearlier)
  have hlexeme := hspelled lexeme (List.mem_append_right _ (List.mem_singleton_self _))
  have keeps : ∀ site ∈ middle.sites, ∃ opening ∈ before ++ [lexeme], opening.start = site.2 ∧
      opening.IsMark ∧ OpensWith .bracket site.1.tag opening.text := by
    intro site hsite
    obtain ⟨opening, hmem, hopening⟩ := hbefore site hsite
    exact ⟨opening, List.mem_append_left _ hmem, hopening⟩
  cases step.effect with
  | prose outside unnamed => exact keeps
  | @opens descriptor named registered allowed =>
    intro site hsite
    rcases List.mem_cons.mp hsite with rfl | hrest
    · refine ⟨lexeme, List.mem_append_right _ (List.mem_singleton_self _), rfl,
        ⟨.bracket, .inl named⟩, ?_⟩
      show OpensWith .bracket descriptor.tag lexeme.text
      rw [(Registry.spec_of_get? registered).2]
      exact hlexeme.opensWith named
    · exact keeps site hrest
  | rests inside same slot open_ =>
    intro site hsite
    apply keeps
    rw [← same]
    exact hsite
  | closes inside closing closed built =>
    intro site hsite
    rw [sites_place] at hsite
    apply keeps
    rw [sites, inside]
    exact List.mem_cons_of_mem _ hsite

/-- A fault that is charged to the lexeme that is being read. -/
theorem blames_of_fitsAt {lexemes : List Lexeme} {fault : Fault} (mark : lexeme.IsMark)
    (fits : fault.FitsAt lexeme.text) : Blames (lexemes ++ [lexeme]) ⟨lexeme.start, fault⟩ :=
  ⟨lexeme, List.mem_append_right _ (List.mem_singleton_self _), rfl, mark, fits⟩

theorem blames_of_opened {lexemes : List Lexeme} {descriptor : Descriptor}
    (spelled : lexeme.Spelled) (named : lexeme.token.names? = some .bracket)
    (registered : scope.registry.get? lexeme.name = some descriptor)
    (h : opened scope reader descriptor lexeme.start = .error report) :
    Blames (lexemes ++ [lexeme]) report := by
  unfold opened at h
  split at h
  · exact nomatch h
  · cases h
    apply blames_of_fitsAt ⟨.bracket, .inl named⟩
    show OpensWith .bracket descriptor.tag lexeme.text
    rw [(Registry.spec_of_get? registered).2]
    exact spelled.opensWith named

theorem blames_of_namedInProse {lexemes : List Lexeme} {enclosure : Enclosure}
    (spelled : lexeme.Spelled) (named : lexeme.token.names? = some enclosure)
    (h : reader.namedInProse scope enclosure lexeme = .error report) :
    Blames (lexemes ++ [lexeme]) report := by
  unfold namedInProse at h
  simp only at h
  split at h
  · cases h
    exact blames_of_fitsAt ⟨_, .inl named⟩ ⟨_, spelled.opensWith named⟩
  · split at h
    · next descriptor registered => exact blames_of_opened spelled named registered h
    · split at h <;>
      · cases h
        exact blames_of_fitsAt ⟨_, .inl named⟩ ⟨_, spelled.opensWith named⟩

theorem blames_of_named {lexemes : List Lexeme} {frame : OpenDirective}
    {outer : List OpenDirective} {enclosure : Enclosure} (spelled : lexeme.Spelled)
    (named : lexeme.token.names? = some enclosure)
    (h : reader.named scope frame outer enclosure lexeme = .error report) :
    Blames (lexemes ++ [lexeme]) report := by
  unfold Reader.named at h
  simp only at h
  split at h
  · split at h
    · cases h
      exact blames_of_fitsAt ⟨_, .inl named⟩ ⟨_, spelled.opensWith named⟩
    · exact nomatch h
  · split at h
    · next descriptor registered => exact blames_of_opened spelled named registered h
    · split at h <;>
      · cases h
        exact blames_of_fitsAt ⟨_, .inl named⟩ ⟨_, spelled.opensWith named⟩

theorem blames_of_closed {lexemes : List Lexeme} {frame : OpenDirective}
    {outer : List OpenDirective} {enclosure : Enclosure} (rooted : Rooted lexemes reader)
    (inside : reader.frames = frame :: outer) (spelled : lexeme.Spelled)
    (closing : lexeme.token.closes? = some enclosure)
    (h : reader.closed scope frame outer enclosure lexeme = .error report) :
    Blames (lexemes ++ [lexeme]) report := by
  have unbalanced : Blames (lexemes ++ [lexeme])
      ⟨lexeme.start, .unbalanced frame.descriptor.kind⟩ :=
    blames_of_fitsAt ⟨enclosure, .inr closing⟩ (.inr ⟨enclosure, [], spelled.closes enclosure closing⟩)
  unfold closed at h
  simp only at h
  split at h
  · split at h
    · exact nomatch h
    · cases h
      exact unbalanced
  · split at h
    · exact nomatch h
    · cases h
      exact unbalanced
  · split at h
    · split at h
      · next fault built =>
        cases h
        have hmem : frame ∈ reader.frames := by
          rw [inside]
          exact List.mem_cons_self
        exact (rooted.blames hmem fun text opens =>
          (OpenDirective.isAbout_of_build built).fitsAt opens).append [lexeme]
      · exact nomatch h
    · cases h
      exact unbalanced

/-- What a reader refuses is charged to a lexeme that has been read. -/
theorem blames_of_read {lexemes : List Lexeme} (rooted : Rooted lexemes reader)
    (spelled : lexeme.Spelled) (h : read scope reader lexeme = .error report) :
    Blames (lexemes ++ [lexeme]) report := by
  cases hnames : lexeme.token.names? with
  | some enclosure =>
    rw [read_of_names hnames] at h
    split at h
    · exact blames_of_namedInProse spelled hnames h
    · exact blames_of_named spelled hnames h
  | none =>
    cases hframes : reader.frames with
    | nil =>
      rw [read_of_step (.prose hframes hnames)] at h
      exact nomatch h
    | cons frame outer =>
      cases hcloses : lexeme.token.closes? with
      | some enclosure =>
        rw [read_of_closes hframes hcloses] at h
        exact blames_of_closed rooted hframes spelled hcloses h
      | none =>
        unfold read at h
        simp only [hframes] at h
        cases htoken : lexeme.token <;> simp_all [Token.names?, Token.closes?]

end Reader

namespace ParsedDocument

/-- What is refused while the lexemes of a document are read, or at their end, is charged to one of
them. -/
theorem blames_of_segmentsOf {scope : ReaderScope} {lexemes : List Lexeme} {report : FaultAt}
    (spelled : ∀ lexeme ∈ lexemes, lexeme.Spelled)
    (h : segmentsOf scope lexemes = .error report) : Reader.Blames lexemes report := by
  rw [segmentsOf] at h
  rcases error_or_of_bind_eq_error h with hfault | ⟨reader, hread, hfinish⟩
  · obtain ⟨before, lexeme, after, middle, rfl, hbefore, hlexeme⟩ := exists_of_foldlM_eq_error hfault
    have walk := Reader.foldlM_eq_ok_iff.mp hbefore
    have rooted := walk.rooted fun earlier hearlier =>
      spelled earlier (List.mem_append_left _ hearlier)
    rw [List.append_cons]
    apply Reader.Blames.append
    exact Reader.blames_of_read rooted
      (spelled lexeme (List.mem_append_right _ List.mem_cons_self)) hlexeme
  · have rooted := (Reader.foldlM_eq_ok_iff.mp hread).rooted spelled
    unfold Reader.finish at hfinish
    split at hfinish
    · cases hfinish
    · next frame outer hframes =>
      cases hfinish
      apply rooted.blames
      · rw [hframes]
        exact List.mem_cons_self
      · exact fun text opens => .inl opens

/-- A fault in a document whose literals have been extracted is reported with the document's name, and
its position is a place in the document: the document is cut there between two characters, the line is
one more than the line feeds before it, and what follows begins with what the fault names. -/
theorem ofSource_blames_text {document : String} {context : Context} {registry : Registry}
    {source : Text} {extraction : Extraction}
    (extracted : Extraction.ofSource source = .ok extraction) {name : String}
    {position : Position} {fault : Fault}
    (refused : ofSource document context source registry = .error (.fault name position fault)) :
    name = document ∧ ∃ written rest, source = written ++ rest ∧
      position.offset = Text.width written ∧ position.line = written.count '\n' + 1 ∧
      fault.FitsAt rest := by
  have reserved := Extraction.reserved_of_ofSource extracted
  rw [ofSource_of_extraction extracted] at refused
  split at refused
  · next report hreport =>
    cases refused
    obtain ⟨culprit, hmem, hoffset, mark, fits⟩ :=
      blames_of_segmentsOf (fun lexeme => Lexeme.spelled_of_mem_scan) hreport
    obtain ⟨before, after, hsplit, hstart⟩ := Lexeme.exists_split_of_mem_tokenize hmem
    obtain ⟨first, others, htext, houtside, hopening⟩ :=
      (Lexeme.spelled_of_mem_scan hmem).exists_mark reserved mark
    rw [htext] at hsplit
    obtain ⟨written, rest, hsource, hlocate⟩ :=
      Extraction.exists_position_of_mark reserved hsplit houtside hopening
    rw [Extraction.source_of_ofSource extracted] at hsource
    rw [← hoffset, hstart, hlocate]
    refine ⟨rfl, written, _, hsource, rfl, rfl, ?_⟩
    rw [← htext]
    exact fits.append rest
  · exact nomatch refused

/-- An unknown name behind inline code is reported where the document has it, on the line on which the
code ends. -/
theorem ofSource_blames_text_unknown :
    ∃ extraction,
      Extraction.ofSource "a`x\ny`#foo[z]".toList = .ok extraction ∧
      ofSource "d" .page "a`x\ny`#foo[z]".toList .standard =
        .error (.fault "d" ⟨6, 2⟩ (.unknownDirective "foo")) ∧
      ∃ written rest, "a`x\ny`#foo[z]".toList = written ++ rest ∧ 6 = Text.width written ∧
        2 = written.count '\n' + 1 ∧ (Fault.unknownDirective "foo").FitsAt rest := by
  have extracted : Extraction.ofSource "a`x\ny`#foo[z]".toList = .ok ⟨.pair 0xE000,
      .letter 'a' :: .literal (.inlineCode "`x\ny`".toList) :: "#foo[z]".toList.map .letter⟩ :=
    @Extraction.ofSource_of_readLiteral? 'a' [] "#foo[z]".toList [] (.inlineCode "`x\ny`".toList)
      (by decide) (by decide) (by cbv) (by decide) (by cbv) (by decide)
  have refused : ofSource "d" .page "a`x\ny`#foo[z]".toList .standard =
      .error (.fault "d" ⟨6, 2⟩ (.unknownDirective "foo")) := by
    rw [ofSource_of_extraction extracted]
    cbv
  exact ⟨_, extracted, refused, (ofSource_blames_text extracted refused).2⟩

end ParsedDocument
end Courseware
