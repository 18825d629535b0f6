import Courseware.Proofs.Markup.Closing
import Courseware.Proofs.Task.Choices

/-!
# Taking turns

Every directive is built with an index, which goes into the seed that orders the choices of a question. The
index is no property of the directive: it is the number of directives that have been built before. As a
directive is built at its closing bracket, a nested directive has its turn before the one around it.

`turns` records, for a run over lexemes, which directives are handed to their builders, at which brackets and
with which indices, whether the run ends well or not. It leaves no call of a builder out, since a lexeme that
takes no turn is read in the same way whatever literals there are (`read_of_no_turn`). The indices of the turns
are 0, 1, 2 and so on (`index_turns`), so no two directives of a document share a seed.
-/

namespace Courseware

/-- A directive that is handed to its builder: the bracket that closes it, what has been read of it, and its
index. -/
structure Turn where
  bracket : Lexeme
  node : DirectiveNode
  index : Nat

namespace Reader

variable {scope : ReaderScope} {reader next : Reader} {lexeme : Lexeme} {lexemes : List Lexeme}

/-- The turn that a lexeme takes: it closes a directive of which all required slots are filled. -/
def turn? (reader : Reader) (lexeme : Lexeme) : Option Turn :=
  match reader.closing? lexeme with
  | none => none
  | some closing =>
    if closing.frame.missingSlot? = none then
      some ⟨lexeme, closing.frame.node, reader.built⟩
    else
      none

/-- The turns that are taken while lexemes are read, up to the first fault. -/
def turns (scope : ReaderScope) (reader : Reader) : List Lexeme → List Turn
  | [] => []
  | lexeme :: rest =>
    (reader.turn? lexeme).toList ++
      match read scope reader lexeme with
      | .error _ => []
      | .ok next => turns scope next rest

/-! ## What it is to take a turn -/

theorem turn?_eq_some_iff {turn : Turn} :
    reader.turn? lexeme = some turn ↔ ∃ frame outer, reader.closing? lexeme = some ⟨frame, outer⟩ ∧
      frame.missingSlot? = none ∧ turn = ⟨lexeme, frame.node, reader.built⟩ := by
  unfold turn?
  cases hclosing : reader.closing? lexeme with
  | none => simp
  | some closing =>
    obtain ⟨frame, outer⟩ := closing
    by_cases hmissing : frame.missingSlot? = none
    · simp [hmissing, eq_comm]
    · simp only [if_neg hmissing, reduceCtorEq, false_iff]
      rintro ⟨_, _, heq, hnone, _⟩
      cases heq
      exact hmissing hnone

/-- A turn is decided by the builder of the directive, which is given the index of the turn. -/
theorem read_of_turn {turn : Turn} (h : reader.turn? lexeme = some turn) :
    ∃ frame outer, reader.frames = frame :: outer ∧ frame.node = turn.node ∧
      read scope reader lexeme =
        match turn.node.build scope.extraction s!"{scope.document}#{turn.index}" with
        | .error fault => .error ⟨frame.start, fault⟩
        | .ok directive => .ok (reader.place ⟨frame.start, lexeme.stop⟩ directive outer) := by
  obtain ⟨frame, outer, hclosing, hmissing, rfl⟩ := turn?_eq_some_iff.mp h
  obtain ⟨inside, closes, ungrouped, unfilling⟩ := closing?_eq_some_iff.mp hclosing
  refine ⟨frame, outer, inside, rfl, ?_⟩
  have hbuild : frame.build scope.extraction s!"{scope.document}#{reader.built}" =
      frame.node.build scope.extraction s!"{scope.document}#{reader.built}" := by
    rw [OpenDirective.build, hmissing]
  rw [read_of_closes inside closes, closed, ungrouped, unfilling]
  exact hbuild ▸ rfl

/-- Where no turn is taken no builder is called: the lexeme is read in the same way in every document. -/
theorem read_of_no_turn (h : reader.turn? lexeme = none) (document : String) (extraction : Extraction) :
    read scope reader lexeme =
      read ⟨document, scope.context, scope.registry, extraction⟩ reader lexeme := by
  cases hclosing : reader.closing? lexeme with
  | some closing =>
    obtain ⟨frame, outer⟩ := closing
    obtain ⟨inside, closes, ungrouped, unfilling⟩ := closing?_eq_some_iff.mp hclosing
    -- A required slot is missing, which is reported before the builder is asked.
    obtain ⟨slot, hslot⟩ : ∃ slot, frame.missingSlot? = some slot := by
      rw [← Option.isSome_iff_exists, ← Option.ne_none_iff_isSome]
      intro hnone
      cases h.symm.trans (turn?_eq_some_iff.mpr ⟨_, _, hclosing, hnone, rfl⟩)
    rw [read_of_closes inside closes, read_of_closes inside closes]
    simp only [closed, ungrouped, unfilling, if_true, OpenDirective.build, hslot]
  | none =>
    cases hframes : reader.frames with
    | nil =>
      unfold read
      simp only [hframes]
      rfl
    | cons frame outer =>
      cases hcloses : lexeme.token.closes? with
      | none =>
        unfold read
        simp only [hframes]
        cases htoken : lexeme.token <;> rw [htoken] at hcloses <;> first | rfl | cases hcloses
      | some enclosure =>
        rw [read_of_closes hframes hcloses, read_of_closes hframes hcloses]
        unfold closed
        cases hgroups : frame.groups with
        | cons group groups => rfl
        | nil =>
          cases hslot : frame.slot with
          | some slot => rfl
          | none =>
            -- This is no bracket, or the directive would be closed.
            have hbracket : enclosure ≠ .bracket := by
              rintro rfl
              have closing : reader.closing? lexeme = some ⟨frame, outer⟩ :=
                closing?_eq_some_iff.mpr ⟨hframes, hcloses, hgroups, hslot⟩
              cases hclosing.symm.trans closing
            simp only [if_neg hbracket]

/-! ## Indices -/

theorem built_place (reader : Reader) (span : Span) (directive : Directive)
    (outer : List OpenDirective) : (reader.place span directive outer).built = reader.built + 1 := by
  cases outer with
  | nil => rfl
  | cons parent outer => cases directive <;> rfl

/-- A step counts one directive more exactly when a turn is taken. -/
theorem built_of_read (h : read scope reader lexeme = .ok next) :
    next.built = reader.built + (reader.turn? lexeme).toList.length := by
  cases hturn : reader.turn? lexeme with
  | some turn =>
    obtain ⟨frame, outer, _, _, hread⟩ := @read_of_turn scope reader lexeme turn hturn
    rw [h] at hread
    split at hread
    · exact nomatch hread
    · rw [Except.ok.inj hread, built_place]
      rfl
  | none =>
    cases step_of_read h with
    | @closeDirective frame outer directive inside closing ungrouped unfilling built =>
      -- What is built has all its slots, so this would be a turn.
      have hmissing : frame.missingSlot? = none := by
        unfold OpenDirective.build at built
        split at built
        · exact nomatch built
        · next hnone => exact hnone
      exact nomatch hturn.symm.trans (turn?_eq_some_iff.mpr
        ⟨frame, outer, closing?_of_closing inside closing ungrouped unfilling, hmissing, rfl⟩)
    | _ => rfl

/-- The indices of turns go up by one from the number of directives that have been built. -/
theorem index_turns_from (scope : ReaderScope) (reader : Reader) (lexemes : List Lexeme) :
    (turns scope reader lexemes).map Turn.index =
      List.range' reader.built (turns scope reader lexemes).length := by
  induction lexemes generalizing reader with
  | nil => rfl
  | cons lexeme rest ih =>
    have hturn : ∀ turn ∈ (reader.turn? lexeme).toList, turn.index = reader.built := by
      intro turn h
      obtain ⟨_, _, _, _, rfl⟩ := turn?_eq_some_iff.mp (Option.mem_toList.mp h)
      rfl
    have hfirst : (reader.turn? lexeme).toList.map Turn.index =
        List.range' reader.built (reader.turn? lexeme).toList.length := by
      cases hcase : reader.turn? lexeme with
      | none => rfl
      | some turn =>
        rw [hcase] at hturn
        exact congrArg ([·]) (hturn turn List.mem_cons_self)
    rw [turns, List.map_append, hfirst, List.length_append]
    cases hread : read scope reader lexeme with
    | error fault => exact List.append_nil _
    | ok next =>
      dsimp only
      rw [ih next, built_of_read hread, List.range'_append_1]

/-- The indices of turns are 0, 1, 2 and so on. -/
theorem index_turns (scope : ReaderScope) (lexemes : List Lexeme) :
    (turns scope .initial lexemes).map Turn.index =
      List.range (turns scope .initial lexemes).length := by
  rw [index_turns_from, List.range_eq_range']
  rfl

/-- Turns are taken in the order of the brackets at which they are taken. -/
theorem bracket_turns_sublist (scope : ReaderScope) (reader : Reader) (lexemes : List Lexeme) :
    ((turns scope reader lexemes).map Turn.bracket).Sublist lexemes := by
  induction lexemes generalizing reader with
  | nil => exact List.Sublist.slnil
  | cons lexeme rest ih =>
    have hrest : ((match read scope reader lexeme with
        | .error _ => []
        | .ok next => turns scope next rest).map Turn.bracket).Sublist rest := by
      cases read scope reader lexeme with
      | error fault => exact List.nil_sublist rest
      | ok next => exact ih next
    rw [turns, List.map_append]
    cases hturn : reader.turn? lexeme with
    | none => exact hrest.cons lexeme
    | some turn =>
      obtain ⟨_, _, _, _, rfl⟩ := turn?_eq_some_iff.mp hturn
      exact hrest.cons_cons lexeme

/-- Every turn is taken somewhere on the way. -/
theorem exists_of_mem_turns {turn : Turn} (h : turn ∈ turns scope reader lexemes) :
    ∃ before middle after, lexemes = before ++ turn.bracket :: after ∧
      Walk scope reader before middle ∧ middle.turn? turn.bracket = some turn := by
  induction lexemes generalizing reader with
  | nil => exact absurd h List.not_mem_nil
  | cons lexeme rest ih =>
    rw [turns, List.mem_append] at h
    rcases h with hfirst | hrest
    · have hturn := Option.mem_toList.mp hfirst
      obtain ⟨_, _, _, _, rfl⟩ := turn?_eq_some_iff.mp hturn
      exact ⟨[], reader, rest, rfl, .done reader, hturn⟩
    · cases hread : read scope reader lexeme with
      | error fault =>
        rw [hread] at hrest
        exact absurd hrest List.not_mem_nil
      | ok next =>
        rw [hread] at hrest
        obtain ⟨before, middle, after, rfl, walk, hturn⟩ := ih hrest
        exact ⟨lexeme :: before, middle, after, rfl, .step (step_of_read hread) walk, hturn⟩

end Reader

namespace DirectiveNode

open Reader

/-- A question that is built keeps every line of its content, as a part of the question or as a choice with
its own flag. The choices are put into an order that depends on their number, on the document and on the index
of the question only. That index is the place of the question among all the directives of the document that
are handed to builders, in the order of their closing brackets. -/
theorem choiceTask_keeps_lines :
    (∃ order : (document : String) → (index count : Nat) → Equiv.Perm (Fin count),
      ∀ (node : DirectiveNode) (extraction : Extraction) (document : String) (index : Nat) (task : Task),
        node.choiceTask extraction s!"{document}#{index}" = .ok task →
          ∃ offered asked choices, Sorts (Text.lines node.content) offered asked ∧
            task = .choice (Text.trim (Text.dedent (extraction.restore (Text.join ['\n'] asked)))) choices
              (1 < (offered.map (choiceOf extraction)).countP Choice.correct) ∧
            choices.Perm (offered.map (choiceOf extraction)) ∧
            choices = List.ofFn fun place =>
              (offered.map (choiceOf extraction)).get (order document index _ place)) ∧
    ∀ (scope : ReaderScope) (lexemes : List Lexeme),
      (turns scope .initial lexemes).map Turn.index =
          List.range (turns scope .initial lexemes).length ∧
        ((turns scope .initial lexemes).map Turn.bracket).Sublist lexemes ∧
        (∀ turn ∈ turns scope .initial lexemes, ∃ before after reader frame outer,
          lexemes = before ++ turn.bracket :: after ∧ Walk scope .initial before reader ∧
            reader.frames = frame :: outer ∧ frame.node = turn.node ∧
            read scope reader turn.bracket =
              match turn.node.build scope.extraction s!"{scope.document}#{turn.index}" with
              | .error fault => .error ⟨frame.start, fault⟩
              | .ok directive => .ok (reader.place ⟨frame.start, turn.bracket.stop⟩ directive outer)) ∧
        ∀ (reader : Reader) (lexeme : Lexeme), reader.turn? lexeme = none →
          ∀ (document : String) (extraction : Extraction), read scope reader lexeme =
            read ⟨document, scope.context, scope.registry, extraction⟩ reader lexeme := by
  constructor
  · choose order horder using exists_order_shuffle
    refine ⟨fun document index => order s!"{document}#{index}", ?_⟩
    intro node extraction document index task built
    obtain ⟨offered, asked, sorted, htask⟩ := sorts_of_choiceTask built
    exact ⟨offered, asked, _, sorted, htask, perm_shuffle _ _, horder _ _ _⟩
  · intro scope lexemes
    refine ⟨index_turns scope lexemes, bracket_turns_sublist scope .initial lexemes, ?_, ?_⟩
    · intro turn taken
      obtain ⟨before, reader, after, hlexemes, walk, hturn⟩ := exists_of_mem_turns taken
      obtain ⟨frame, outer, inside, hnode, hread⟩ := @read_of_turn scope _ _ _ hturn
      exact ⟨before, after, reader, frame, outer, hlexemes, walk, inside, hnode, hread⟩
    · intro reader lexeme untaken document extraction
      exact read_of_no_turn untaken document extraction

/-- A question with two choices. -/
def twoChoices : DirectiveNode := ⟨.choice, "Q\n- [x] a\n- [ ] b".toList, []⟩

/-- The question as the first directive of its document. Its choices are `a` and `b` in some order. -/
theorem choiceTask_keeps_lines_twoChoices :
    ∃ offered asked choices, Sorts (Text.lines twoChoices.content) offered asked ∧
      twoChoices.choiceTask ⟨.pair 0xE000, []⟩ "d#0" = .ok (.choice ['Q'] choices false) ∧
      choices.Perm (offered.map (choiceOf ⟨.pair 0xE000, []⟩)) := by
  have built : twoChoices.choiceTask ⟨.pair 0xE000, []⟩ "d#0" =
      .ok (.choice ['Q'] [⟨['b'], false⟩, ⟨['a'], true⟩] false) := by
    decide +kernel
  obtain ⟨_, keeps⟩ := choiceTask_keeps_lines.1
  obtain ⟨offered, asked, choices, sorted, htask, perm, _⟩ := keeps twoChoices _ "d" 0 _ built
  rw [← (Task.choice.inj htask).2.1] at perm
  exact ⟨offered, asked, _, sorted, built, perm⟩

end DirectiveNode
end Courseware
