import Courseware.Proofs.Markup.Nesting
import Courseware.Proofs.Task.Texts

/-!
# Reading cuts no placeholder

Lexemes begin and end beside delimiters, which stand in no placeholder, so whatever is put together of
lexemes cuts none. A nested note leaves text in which all literals have been restored, and this has no
sentinel to be cut. Hence the content of every directive is intact when it is built, and so is the prose
between directives.
-/

namespace Courseware

/-! ## Lexemes -/

section
variable {sentinels : Sentinels} {count : Nat}

theorem Token.isOutside_of_isDelimiter {letter : Char} (h : isDelimiter letter = true) :
    Sentinels.isOutside letter = true := by
  simp only [isDelimiter, Bool.or_eq_true, beq_iff_eq] at h
  rcases h with ((((rfl | rfl) | rfl) | rfl) | rfl) | rfl <;> decide

theorem Sentinels.Reserved.intact_singleton (reserved : sentinels.Reserved) {letter : Char}
    (h : Sentinels.isOutside letter = true) : sentinels.Intact count [letter] :=
  .of_isOutside reserved (List.forall_mem_singleton.mpr h)

/-- A lexeme ends beside a delimiter or where the text ends. -/
theorem Token.intact_read (reserved : sentinels.Reserved) {first : Char} {rest : Text}
    (intact : sentinels.Intact count (first :: rest)) :
    sentinels.Intact count (read first rest).2.1 ∧ sentinels.Intact count (read first rest).2.2 := by
  have single : ∀ letter, isDelimiter letter = true → first = letter →
      sentinels.Intact count [letter] ∧ sentinels.Intact count rest := by
    rintro letter hletter rfl
    have houtside := isOutside_of_isDelimiter hletter
    exact ⟨reserved.intact_singleton houtside, intact.tail reserved houtside⟩
  unfold read
  split
  · exact single '[' rfl rfl
  · exact single ']' rfl rfl
  · exact single '{' rfl rfl
  · exact single '}' rfl rfl
  · split
    · next token name after hopening =>
      obtain ⟨letters, enclosure, _, _, rfl, _⟩ := spec_of_readOpening? hopening
      have houtside : Sentinels.isOutside enclosure.opening = true := by cases enclosure <;> decide
      rw [← append_of_readOpening? hopening, List.append_assoc, ← List.cons_append] at intact
      obtain ⟨hname, hafter⟩ := intact.cut reserved houtside
      exact ⟨hname.append (reserved.intact_singleton houtside), hafter⟩
    · exact single '#' rfl rfl
  · split
    · next next after =>
      obtain ⟨hfirst, hrest⟩ := single '\\' rfl rfl
      split
      · next hdelimiter =>
        have houtside := isOutside_of_isDelimiter hdelimiter
        exact ⟨hfirst.append (reserved.intact_singleton houtside), hrest.tail reserved houtside⟩
      · exact ⟨hfirst, hrest⟩
    · exact single '\\' rfl rfl
  · next hopen hclose hbrace hbraceClose hsign hbackslash =>
    have hkeep : (!isDelimiter first) = true := by
      simp only [isDelimiter, Bool.not_eq_true', Bool.or_eq_false_iff, beq_eq_false_iff_ne]
      exact ⟨⟨⟨⟨⟨hsign, hopen⟩, hclose⟩, hbrace⟩, hbraceClose⟩, hbackslash⟩
    have hsplit := intact.splitWhile reserved fun letter (hletter : (!isDelimiter letter) = false) =>
      isOutside_of_isDelimiter (by simpa using hletter)
    rw [List.takeWhile_cons_of_pos (p := fun letter => !isDelimiter letter) hkeep,
      List.dropWhile_cons_of_pos (p := fun letter => !isDelimiter letter) hkeep] at hsplit
    exact hsplit

theorem Lexeme.intact_of_mem_scan (reserved : sentinels.Reserved) {start : Nat} {text : Text}
    (intact : sentinels.Intact count text) {lexeme : Lexeme} (h : lexeme ∈ scan start text) :
    sentinels.Intact count lexeme.text := by
  fun_induction scan start text with
  | case1 => exact absurd h List.not_mem_nil
  | case2 start first rest reading ih =>
    obtain ⟨hlexeme, hrest⟩ := Token.intact_read reserved intact
    rcases List.mem_cons.mp h with rfl | hmem
    · exact hlexeme
    · exact ih hrest hmem

end

/-! ## Directives and segments -/

variable {extraction : Extraction}

/-- Fragments that cut no placeholder. -/
def Fragment.Intact (extraction : Extraction) (fragments : List Fragment) : Prop :=
  ∀ fragment ∈ fragments, extraction.sentinels.Intact extraction.literals.length fragment.text

theorem Fragment.Intact.join {fragments : List Fragment}
    (intact : Fragment.Intact extraction fragments) :
    extraction.sentinels.Intact extraction.literals.length (Fragment.join fragments) := by
  rw [Fragment.join, List.flatMap_def]
  apply Sentinels.Intact.flatten
  intro part hpart
  obtain ⟨fragment, hfragment, rfl⟩ := List.mem_map.mp hpart
  exact intact fragment (List.mem_reverse.mp hfragment)

theorem Fragment.Intact.cons {fragment : Fragment} {fragments : List Fragment}
    (intact : Fragment.Intact extraction fragments)
    (h : extraction.sentinels.Intact extraction.literals.length fragment.text) :
    Fragment.Intact extraction (fragment :: fragments) :=
  List.forall_mem_cons.mpr ⟨h, intact⟩

/-- An open directive of which no placeholder has been cut. -/
structure OpenDirective.Intact (extraction : Extraction) (frame : OpenDirective) : Prop where
  content : Fragment.Intact extraction frame.content
  filled : ∀ slot ∈ frame.filled,
    extraction.sentinels.Intact extraction.literals.length slot.2
  slot : ∀ slot ∈ frame.slot, Fragment.Intact extraction slot.content

namespace OpenDirective.Intact

variable {frame : OpenDirective}

theorem begin (descriptor : Descriptor) (start : Nat) :
    (OpenDirective.begin descriptor start).Intact extraction :=
  ⟨nofun, nofun, nofun⟩

theorem add (intact : frame.Intact extraction) {fragment : Fragment}
    (h : extraction.sentinels.Intact extraction.literals.length fragment.text) :
    (frame.add fragment).Intact extraction := by
  unfold OpenDirective.add
  split
  · exact ⟨intact.content.cons h, intact.filled, intact.slot⟩
  · next slot hslot =>
    refine ⟨intact.content, intact.filled, ?_⟩
    rintro other ⟨⟩
    exact (intact.slot slot hslot).cons h

theorem node (intact : frame.Intact extraction) : frame.node.Intact extraction :=
  ⟨intact.content.join, intact.filled⟩

end OpenDirective.Intact

/-- A segment that cuts no placeholder, if it is prose, and that holds no sentinel, if it is a
directive. -/
def Segment.Intact (extraction : Extraction) : Segment → Prop
  | prose _ text => extraction.sentinels.Intact extraction.literals.length text
  | directive _ content => extraction.sentinels.Absent content.texts

theorem Segment.intact_ofProse {fragments : List Fragment}
    (intact : Fragment.Intact extraction fragments) :
    ∀ segment ∈ Segment.ofProse fragments, segment.Intact extraction := by
  unfold Segment.ofProse
  split
  · exact fun segment h => absurd h List.not_mem_nil
  · split
    · exact List.forall_mem_singleton.mpr intact.join
    · exact fun segment h => absurd h List.not_mem_nil

namespace Reader

/-- A reader that has cut no placeholder. -/
structure Intact (extraction : Extraction) (reader : Reader) : Prop where
  segments : ∀ segment ∈ reader.segments, segment.Intact extraction
  prose : Fragment.Intact extraction reader.prose
  frames : ∀ frame ∈ reader.frames, frame.Intact extraction
  hoisted : ∀ directive ∈ reader.hoisted, extraction.sentinels.Absent directive.texts

variable {scope : ReaderScope} {reader next : Reader} {lexeme : Lexeme} {lexemes : List Lexeme}

namespace Intact

theorem initial : Reader.initial.Intact extraction := ⟨nofun, nofun, nofun, nofun⟩

/-- A change of the innermost directive that cuts no placeholder. -/
theorem reframe (intact : reader.Intact extraction) {frame changed : OpenDirective}
    {outer : List OpenDirective} (inside : reader.frames = frame :: outer)
    (h : frame.Intact extraction → changed.Intact extraction) :
    Intact extraction { reader with frames := changed :: outer } := by
  have hframes := intact.frames
  rw [inside, List.forall_mem_cons] at hframes
  exact ⟨intact.segments, intact.prose, List.forall_mem_cons.mpr ⟨h hframes.1, hframes.2⟩,
    intact.hoisted⟩

/-- Placing a directive that holds no sentinel. -/
theorem place (intact : reader.Intact extraction) {outer : List OpenDirective}
    (frames : ∀ frame ∈ outer, frame.Intact extraction) (span : Span) {directive : Directive}
    (h : extraction.sentinels.Absent directive.texts) :
    (reader.place span directive outer).Intact extraction := by
  cases outer with
  | nil =>
    refine ⟨?_, nofun, nofun, nofun⟩
    intro segment hsegment
    rw [← List.mem_reverse, reverse_segments_place, List.mem_append, List.mem_append] at hsegment
    rcases hsegment with (hold | hprose) | hdirective
    · exact intact.segments segment (List.mem_reverse.mp hold)
    · exact Segment.intact_ofProse intact.prose segment (List.mem_reverse.mp hprose)
    · obtain ⟨placed, hplaced, rfl⟩ := List.mem_map.mp hdirective
      rcases List.mem_cons.mp hplaced with rfl | hhoisted
      · exact h
      · exact intact.hoisted placed (List.mem_reverse.mp hhoisted)
  | cons parent outer =>
    obtain ⟨hparent, houter⟩ := List.forall_mem_cons.mp frames
    cases directive with
    | note content =>
      have hcontent := (h content (List.mem_singleton_self _)).mono
        (Nat.zero_le extraction.literals.length)
      exact ⟨intact.segments, intact.prose,
        List.forall_mem_cons.mpr ⟨hparent.add hcontent, houter⟩, intact.hoisted⟩
    | presenterNote content | task content =>
      exact ⟨intact.segments, intact.prose, frames, List.forall_mem_cons.mpr ⟨h, intact.hoisted⟩⟩

/-- Reading a lexeme that cuts no placeholder. -/
theorem step (intact : reader.Intact scope.extraction) (hwell : scope.extraction.WellFormed)
    (reserved : scope.extraction.sentinels.Reserved)
    (h : scope.extraction.sentinels.Intact scope.extraction.literals.length lexeme.text)
    (step : Step scope reader lexeme next) : next.Intact scope.extraction := by
  cases step with
  | prose outside unnamed =>
    exact ⟨intact.segments, intact.prose.cons h, intact.frames, intact.hoisted⟩
  | directive named registered allowed noSlot =>
    exact ⟨intact.segments, intact.prose,
      List.forall_mem_cons.mpr ⟨.begin _ _, intact.frames⟩, intact.hoisted⟩
  | slot inside named opens unfilled =>
    apply intact.reframe inside
    intro whole
    refine ⟨whole.content, whole.filled, ?_⟩
    rintro slot ⟨⟩
    exact nofun
  | plain inside plain => exact intact.reframe inside fun whole => whole.add h
  | group inside grouped =>
    apply intact.reframe inside
    intro whole
    have added := @OpenDirective.Intact.add _ _ whole (.source lexeme.start lexeme.text) h
    exact ⟨added.content, added.filled, added.slot⟩
  | @closeGroup frame outer enclosure groups inside closing grouped =>
    apply intact.reframe inside
    intro whole
    have regrouped : OpenDirective.Intact scope.extraction { frame with groups := groups } :=
      ⟨whole.content, whole.filled, whole.slot⟩
    exact regrouped.add h
  | @closeSlot frame outer slot inside closing ungrouped filling =>
    apply intact.reframe inside
    intro whole
    refine ⟨whole.content, List.forall_mem_cons.mpr ⟨?_, whole.filled⟩, nofun⟩
    exact (whole.slot slot filling).join
  | @closeDirective frame outer directive inside closing ungrouped unfilling built =>
    have hframes := intact.frames
    rw [inside, List.forall_mem_cons] at hframes
    apply intact.place hframes.2
    exact DirectiveNode.absent_of_build hwell reserved hframes.1.node
      (OpenDirective.node_build_of_build built)

end Intact

/-- Reading lexemes that cut no placeholder. -/
theorem Walk.intact (walk : Walk scope .initial lexemes next) (hwell : scope.extraction.WellFormed)
    (reserved : scope.extraction.sentinels.Reserved)
    (h : ∀ lexeme ∈ lexemes,
      scope.extraction.sentinels.Intact scope.extraction.literals.length lexeme.text) :
    next.Intact scope.extraction := by
  refine walk.invariant (fun done reader => (∀ lexeme ∈ done,
    scope.extraction.sentinels.Intact scope.extraction.literals.length lexeme.text) →
      reader.Intact scope.extraction) (fun _ => .initial) ?_ h
  intro before middle lexeme after _ ih step hlexemes
  rw [List.forall_mem_append, List.forall_mem_singleton] at hlexemes
  exact (ih hlexemes.1).step hwell reserved hlexemes.2 step

/-- Every directive holds no sentinel when it has been read to its end, also a note that is pasted into
another directive then. -/
theorem Walk.absent_written (walk : Walk scope .initial lexemes next)
    (hwell : scope.extraction.WellFormed) (reserved : scope.extraction.sentinels.Reserved)
    (h : ∀ lexeme ∈ lexemes,
      scope.extraction.sentinels.Intact scope.extraction.literals.length lexeme.text) :
    ∀ item ∈ written scope .initial lexemes,
      scope.extraction.sentinels.Absent item.directive.texts := by
  refine walk.invariant (fun done _ => (∀ lexeme ∈ done,
    scope.extraction.sentinels.Intact scope.extraction.literals.length lexeme.text) →
      ∀ item ∈ written scope .initial done,
        scope.extraction.sentinels.Absent item.directive.texts) ?_ ?_ h
  · exact fun _ item hitem => absurd hitem List.not_mem_nil
  · intro before middle lexeme after hwalk ih step hlexemes
    rw [List.forall_mem_append, List.forall_mem_singleton] at hlexemes
    rw [hwalk.written_concat step, List.forall_mem_append]
    refine ⟨ih hlexemes.1, ?_⟩
    have intact := hwalk.intact hwell reserved hlexemes.1
    intro item hitem
    cases step.effect with
    | prose outside unnamed =>
      rw [written?_of_outside outside] at hitem
      exact absurd hitem List.not_mem_nil
    | opens named registered allowed =>
      rw [written?_of_names? named] at hitem
      exact absurd hitem List.not_mem_nil
    | rests inside same slot open_ =>
      rw [written?_of_open open_] at hitem
      exact absurd hitem List.not_mem_nil
    | @closes frame outer directive inside closing closed built =>
      rw [written?_of_closed closed built] at hitem
      obtain rfl := List.mem_singleton.mp hitem
      have hframe : frame ∈ middle.frames := by
        rw [inside]
        exact List.mem_cons_self
      exact DirectiveNode.absent_of_build hwell reserved (intact.frames frame hframe).node
        (OpenDirective.node_build_of_build built)

end Reader

namespace ParsedDocument

section
variable {document : String} {context : Context} {registry : Registry} {source : Text}
  {extraction : Extraction} {parsed : ParsedDocument}

/-- In a document that is read, prose cuts no placeholder and directives hold no sentinel. -/
theorem intact_of_ofSource (extracted : Extraction.ofSource source = .ok extraction)
    (read : ofSource document context source registry = .ok parsed) :
    ∀ segment ∈ parsed.segments, segment.Intact extraction := by
  have hwell := Extraction.wellFormed_of_ofSource extracted
  have reserved := Extraction.reserved_of_ofSource extracted
  obtain ⟨reader, walk, outside, hsegments⟩ := exists_walk_of_ofSource extracted read
  have intact := walk.intact hwell reserved fun lexeme hlexeme =>
    Lexeme.intact_of_mem_scan reserved hwell.intact_scrubbed hlexeme
  intro segment hsegment
  rw [hsegments, List.mem_reverse, List.mem_append] at hsegment
  rcases hsegment with hprose | hsegment
  · exact Segment.intact_ofProse intact.prose segment hprose
  · exact intact.segments segment hsegment

/-- In a document that is read, no directive holds a sentinel, whether it becomes a segment or not. -/
theorem absent_written_of_ofSource (extracted : Extraction.ofSource source = .ok extraction)
    (read : ofSource document context source registry = .ok parsed) :
    ∀ item ∈ Reader.written ⟨document, context, registry, extraction⟩ .initial
        (Lexeme.tokenize extraction.scrubbed),
      extraction.sentinels.Absent item.directive.texts := by
  have hwell := Extraction.wellFormed_of_ofSource extracted
  have reserved := Extraction.reserved_of_ofSource extracted
  obtain ⟨reader, walk, _⟩ := exists_walk_of_ofSource extracted read
  exact walk.absent_written hwell reserved fun lexeme hlexeme =>
    Lexeme.intact_of_mem_scan reserved hwell.intact_scrubbed hlexeme

end
end ParsedDocument
end Courseware
