import Courseware.Proofs.Except
import Courseware.Proofs.Source.Placeholder
import Courseware.Proofs.Task.Marks

/-!
# The texts of a directive

A builder cuts the content of a directive and its slots into parts, and restores each part on its way into
the result. Every cut is made beside a bracket, a bar, a blank or a line end, so it goes through no
placeholder, and what is restored holds no sentinel. `DirectiveNode.absent_of_build` says so of all texts
that a directive has when it is built.
-/

namespace Courseware

/-! ## All texts of a directive -/

/-- The texts of a task. -/
def Task.texts : Task → List Text
  | text instruction hint solution => instruction :: (hint.toList ++ solution.toList)
  | math instruction hint solution => [instruction, hint, solution]
  | code instruction _ lines solution => instruction :: lines :: solution.toList
  | choice question choices _ => question :: choices.map Choice.text
  | gap fields parts => fields.flatMap GapField.answers ++ parts

/-- The texts of a directive. -/
def Directive.texts : Directive → List Text
  | note content | presenterNote content => [content]
  | task content => content.texts

namespace Extraction

variable {extraction : Extraction} {text rest : Text} {number : Nat} {literal : Literal}

theorem mem_literals_of_soleLiteral? (h : extraction.soleLiteral? text = some literal) :
    literal ∈ extraction.literals := by
  obtain ⟨⟨number, found⟩, hsole, rfl⟩ := Option.map_eq_some_iff.mp h
  unfold soleNumbered? at hsole
  split at hsole
  · cases hsole
  · split at hsole
    · split at hsole
      · next hread =>
        cases hsole
        exact mem_literals_of_readNumber? hread
      · cases hsole
    · cases hsole

end Extraction

namespace DirectiveNode

/-- A directive of which no placeholder has been cut. -/
structure Intact (extraction : Extraction) (node : DirectiveNode) : Prop where
  content : extraction.sentinels.Intact extraction.literals.length node.content
  slots : ∀ slot ∈ node.slots, extraction.sentinels.Intact extraction.literals.length slot.2

variable {node : DirectiveNode} {extraction : Extraction} {seed : String} {text written : Text}

/-- The text in a slot cuts no placeholder. -/
theorem Intact.of_slot? (intact : node.Intact extraction) {name : String}
    (h : node.slot? name = some text) :
    extraction.sentinels.Intact extraction.literals.length text := by
  obtain ⟨before, after, hslots, _⟩ := List.lookup_eq_some_iff.mp h
  apply intact.slots (name, text)
  rw [hslots]
  exact List.mem_append_right _ List.mem_cons_self

/-! ## Cuts -/

/-- The text of a choice follows its check box. -/
theorem intact_of_readChoice? {count : Nat} {sentinels : Sentinels} (reserved : sentinels.Reserved)
    {line : Text} {correct : Bool} (intact : sentinels.Intact count line)
    (h : readChoice? line = some (correct, text)) : sentinels.Intact count text := by
  have htrim := intact.trimStart reserved
  unfold readChoice? at h
  split at h
  · next marker mark rest hline =>
    rw [hline] at htrim
    have hrest : sentinels.Intact count rest :=
      (@Sentinels.Intact.cut sentinels count [marker, ' ', '[', mark] rest reserved ']' htrim
        (by decide)).2
    split at h
    · exact nomatch h
    · split at h
      · cases h
        exact hrest
      · split at h
        · cases h
          exact hrest
        · exact nomatch h
  · exact nomatch h

/-- What stands before and after brackets. -/
theorem intact_of_cut? {sentinels : Sentinels} (reserved : sentinels.Reserved) {count : Nat}
    {needle before after : Text} (full : needle ≠ [])
    (outside : needle.all Sentinels.isOutside = true) (intact : sentinels.Intact count text)
    (h : Text.cut? needle text = some (before, after)) :
    sentinels.Intact count before ∧ sentinels.Intact count after := by
  rw [← Text.append_of_cut? h] at intact
  exact intact.around reserved full outside

section
variable (hwell : extraction.WellFormed) (reserved : extraction.sentinels.Reserved)
include hwell reserved

/-! ## Markdown -/

theorem intact_markdown (intact : extraction.sentinels.Intact extraction.literals.length text) :
    extraction.sentinels.Intact 0 (markdown extraction text) :=
  ((hwell.intact_restore intact).dedent reserved).trim reserved

theorem intact_of_required {part : Part}
    (intact : extraction.sentinels.Intact extraction.literals.length text)
    (h : node.required extraction part text = .ok written) :
    extraction.sentinels.Intact 0 written := by
  unfold required at h
  split at h
  · exact nomatch h
  · obtain rfl := Except.ok.inj h
    exact intact_markdown hwell reserved intact

theorem intact_of_requiredSlot (intact : node.Intact extraction) {name : String}
    (h : node.requiredSlot extraction name = .ok written) :
    extraction.sentinels.Intact 0 written := by
  unfold requiredSlot at h
  split at h
  · exact nomatch h
  · next text hslot => exact intact_of_required hwell reserved (intact.of_slot? hslot) h

theorem intact_of_optionalSlot (intact : node.Intact extraction) {name : String}
    (h : written ∈ node.optionalSlot extraction name) : extraction.sentinels.Intact 0 written := by
  have hmap := (Option.filter_eq_some_iff.mp h).1
  obtain ⟨text, hslot, rfl⟩ := Option.map_eq_some_iff.mp hmap
  exact intact_markdown hwell reserved (intact.of_slot? hslot)

/-! ## Code -/

/-- The code of a fence is a part of the document. -/
theorem intact_of_soleFence? {info code : Text}
    (h : soleFence? extraction text = some (info, code)) :
    extraction.sentinels.Intact 0 code := by
  unfold soleFence? at h
  split at h
  · next found opening fenced closing hsole =>
    cases h
    have hliteral := Extraction.mem_literals_of_soleLiteral? hsole
    have hfenced : extraction.sentinels.Intact 0 fenced := by
      apply hwell.intact
      intro letter hletter
      apply Extraction.mem_source_of_mem_literals hliteral
      exact List.mem_append_left _ (List.mem_append_right _ hletter)
    apply (hfenced.dedent reserved).dropTrailing reserved
    intro letter hletter
    rw [Bool.or_eq_true, beq_iff_eq, beq_iff_eq] at hletter
    rcases hletter with rfl | rfl <;> decide
  · exact nomatch h

theorem absent_of_codeTask (intact : node.Intact extraction) {task : Task}
    (h : node.codeTask extraction = .ok task) :
    extraction.sentinels.Absent task.texts := by
  unfold codeTask at h
  obtain ⟨instruction, hinstruction, h⟩ := exists_of_bind_eq_ok h
  obtain ⟨code, _, h⟩ := exists_of_bind_eq_ok h
  split at h
  · exact nomatch h
  · next info fenced hfence =>
    simp only at h
    split at h
    · exact nomatch h
    · obtain rfl := Except.ok.inj h
      rw [Task.texts, Sentinels.absent_cons_iff, Sentinels.absent_cons_iff]
      refine ⟨intact_of_required hwell reserved intact.content hinstruction,
        intact_of_soleFence? hwell reserved hfence, ?_⟩
      intro text htext
      rw [Option.mem_toList] at htext
      split at htext
      · next other solution hsolution =>
        obtain rfl := Option.some.inj htext
        obtain ⟨_, _, hsole⟩ := Option.bind_eq_some_iff.mp hsolution
        exact intact_of_soleFence? hwell reserved hsole
      · exact intact_of_optionalSlot hwell reserved intact htext

/-! ## Questions -/

theorem absent_of_choiceTask (intact : node.Intact extraction) {task : Task}
    (h : node.choiceTask extraction seed = .ok task) :
    extraction.sentinels.Absent task.texts := by
  have hlines := intact.content.lines reserved
  unfold choiceTask at h
  obtain ⟨question, hquestion, h⟩ := exists_of_bind_eq_ok h
  have hquestionIntact : extraction.sentinels.Intact 0 question := by
    refine intact_of_required hwell reserved (.join ?_ ?_) hquestion
    · exact .of_isOutside reserved (List.forall_mem_singleton.mpr (by decide))
    · intro line hline
      exact hlines line (List.mem_of_mem_filter hline)
  split at h
  · exact nomatch h
  · split at h
    · exact nomatch h
    · split at h
      · exact nomatch h
      · obtain rfl := Except.ok.inj h
        rw [Task.texts, Sentinels.absent_cons_iff]
        refine ⟨hquestionIntact, ?_⟩
        intro text htext
        obtain ⟨choice, hchoice, rfl⟩ := List.mem_map.mp htext
        rw [(perm_shuffle _ seed).mem_iff] at hchoice
        obtain ⟨⟨correct, answer⟩, hanswer, rfl⟩ := List.mem_map.mp hchoice
        obtain ⟨line, hline, hread⟩ := List.mem_filterMap.mp hanswer
        exact (hwell.intact_restore
          (intact_of_readChoice? reserved (hlines line hline) hread)).trim reserved

/-! ## Gap texts -/

theorem intact_of_readAnswers {inner : Text}
    (intact : extraction.sentinels.Intact extraction.literals.length inner) :
    ∀ answer ∈ readAnswers extraction inner, extraction.sentinels.Intact 0 answer := by
  intro answer hanswer
  obtain ⟨part, hpart, rfl⟩ := List.mem_map.mp (List.mem_of_mem_filter hanswer)
  exact (hwell.intact_restore (intact.split reserved (by decide) part hpart)).trim reserved

/-- The answers of the fields, and the parts around them. -/
theorem intact_of_readFields {fields : List GapField} {parts : List Text}
    (intact : extraction.sentinels.Intact extraction.literals.length text)
    (h : readFields extraction text = .ok (fields, parts)) :
    (∀ field ∈ fields, extraction.sentinels.Absent field.answers) ∧ extraction.sentinels.Absent parts := by
  fun_induction readFields extraction text generalizing fields parts with
  | case1 text _ =>
    cases h
    have hlast := (hwell.intact_restore intact).dropTrailing reserved fun _ => Sentinels.isOutside_of_isBlank
    exact ⟨fun field hfield => absurd hfield List.not_mem_nil, List.forall_mem_singleton.mpr hlast⟩
  | case2 => cases h
  | case3 => cases h
  | case4 => cases h
  | case5 text before inside hopen inner rest hclose fields parts hrest _ ih =>
    cases h
    obtain ⟨hbefore, hinside⟩ :=
      intact_of_cut? reserved (List.cons_ne_nil _ _) (by decide) intact hopen
    obtain ⟨hinner, hafter⟩ :=
      intact_of_cut? reserved (List.cons_ne_nil _ _) (by decide) hinside hclose
    obtain ⟨hfields, hparts⟩ := ih hafter hrest
    exact ⟨List.forall_mem_cons.mpr ⟨intact_of_readAnswers hwell reserved hinner, hfields⟩,
      List.forall_mem_cons.mpr ⟨hwell.intact_restore hbefore, hparts⟩⟩

theorem absent_of_gapTask (intact : node.Intact extraction) {task : Task}
    (h : node.gapTask extraction = .ok task) :
    extraction.sentinels.Absent task.texts := by
  unfold gapTask at h
  simp only at h
  split at h
  · exact nomatch h
  · split at h <;> exact nomatch h
  · next fields parts _ hread =>
    obtain rfl := Except.ok.inj h
    obtain ⟨hfields, hparts⟩ :=
      intact_of_readFields hwell reserved (intact.content.dedent reserved) hread
    rw [Task.texts, Sentinels.absent_append_iff, Sentinels.absent_flatMap_iff]
    refine ⟨hfields, ?_⟩
    cases parts with
    | nil => exact hparts
    | cons first rest =>
      obtain ⟨hfirst, hrest⟩ := Sentinels.absent_cons_iff.mp hparts
      exact Sentinels.absent_cons_iff.mpr ⟨hfirst.trimStart reserved, hrest⟩

/-! ## All kinds -/

/-- Where no placeholder has been cut of a directive, the texts that it is built of hold no sentinel. -/
theorem absent_of_build (intact : node.Intact extraction) {directive : Directive}
    (h : node.build extraction seed = .ok directive) :
    extraction.sentinels.Absent directive.texts := by
  have hrequired : ∀ {part : Part} {written : Text},
      node.required extraction part node.content = .ok written →
        extraction.sentinels.Intact 0 written :=
    fun hwritten => intact_of_required hwell reserved intact.content hwritten
  unfold build at h
  split at h
  · obtain ⟨content, hcontent, rfl⟩ := exists_of_map_eq_ok h
    exact List.forall_mem_singleton.mpr (hrequired hcontent)
  · obtain ⟨content, hcontent, rfl⟩ := exists_of_map_eq_ok h
    exact List.forall_mem_singleton.mpr (hrequired hcontent)
  · obtain ⟨instruction, hinstruction, h⟩ := exists_of_bind_eq_ok h
    obtain rfl := Except.ok.inj h
    rw [Directive.texts, Task.texts, Sentinels.absent_cons_iff, Sentinels.absent_append_iff]
    refine ⟨hrequired hinstruction, ?_, ?_⟩ <;>
    · intro text htext
      exact intact_of_optionalSlot hwell reserved intact (Option.mem_toList.mp htext)
  · obtain ⟨instruction, hinstruction, h⟩ := exists_of_bind_eq_ok h
    obtain ⟨hint, hhint, h⟩ := exists_of_bind_eq_ok h
    obtain ⟨solution, hsolution, h⟩ := exists_of_bind_eq_ok h
    obtain rfl := Except.ok.inj h
    rw [Directive.texts, Task.texts, Sentinels.absent_cons_iff, Sentinels.absent_cons_iff,
      Sentinels.absent_cons_iff]
    exact ⟨hrequired hinstruction, intact_of_requiredSlot hwell reserved intact hhint,
      intact_of_requiredSlot hwell reserved intact hsolution, Sentinels.absent_nil⟩
  · obtain ⟨task, htask, rfl⟩ := exists_of_map_eq_ok h
    exact absent_of_codeTask hwell reserved intact htask
  · obtain ⟨task, htask, rfl⟩ := exists_of_map_eq_ok h
    exact absent_of_choiceTask hwell reserved intact htask
  · obtain ⟨task, htask, rfl⟩ := exists_of_map_eq_ok h
    exact absent_of_gapTask hwell reserved intact htask

end
end DirectiveNode
end Courseware
