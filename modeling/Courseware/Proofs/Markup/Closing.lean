import Courseware.Proofs.Markup.Step
import Courseware.Proofs.Task.Marks

/-!
# The directives that are closed

A directive has an effect when it is closed: it is built, and what it becomes is placed. Of all other
steps the segments know nothing. This module lists the directives that are closed while lexemes are
read, with the directives around each, and shows that a step either closes the directive that it is
said to close or leaves all segments alone.
-/

namespace Courseware

/-- A directive at its closing bracket, with the directives around it, innermost first. -/
structure Closing where
  frame : OpenDirective
  outer : List OpenDirective
deriving DecidableEq, Repr

/-- The marks in the content of a directive that is closed. -/
def Closing.marks (closing : Closing) : List Bool := closing.frame.node.marks

namespace Token

variable {token : Token} {enclosure : Enclosure}

theorem closes?_of_names? (named : token.names? = some enclosure) : token.closes? = none := by
  cases token <;> first | rfl | exact nomatch named

theorem closes?_of_groups? (grouped : token.groups? = some enclosure) : token.closes? = none := by
  cases token <;> first | rfl | exact nomatch grouped

theorem closes?_of_isPlain (plain : token.isPlain = true) : token.closes? = none := by
  cases token <;> first | rfl | exact nomatch plain

end Token

namespace Reader

variable {scope : ReaderScope} {reader next other : Reader} {lexeme : Lexeme}

/-- The directive that a lexeme closes, if it closes one. -/
def closing? (reader : Reader) (lexeme : Lexeme) : Option Closing :=
  match reader.frames with
  | [] => none
  | frame :: outer =>
    if lexeme.token.closes? = some .bracket ∧ frame.groups = [] ∧ frame.slot = none then
      some ⟨frame, outer⟩
    else
      none

/-- The directives that are closed while lexemes are read, in the order of their closing brackets. -/
def closings (scope : ReaderScope) (reader : Reader) : List Lexeme → List Closing
  | [] => []
  | lexeme :: rest =>
    match read scope reader lexeme with
    | .error _ => []
    | .ok next => (reader.closing? lexeme).toList ++ closings scope next rest

theorem closing?_of_inside {frame : OpenDirective} {outer : List OpenDirective}
    (inside : reader.frames = frame :: outer) :
    reader.closing? lexeme =
      if lexeme.token.closes? = some .bracket ∧ frame.groups = [] ∧ frame.slot = none then
        some ⟨frame, outer⟩
      else none := by
  rw [closing?, inside]

theorem closing?_of_closing {frame : OpenDirective} {outer : List OpenDirective}
    (inside : reader.frames = frame :: outer) (closing : lexeme.token.closes? = some .bracket)
    (ungrouped : frame.groups = []) (unfilling : frame.slot = none) :
    reader.closing? lexeme = some ⟨frame, outer⟩ := by
  rw [closing?_of_inside inside, if_pos ⟨closing, ungrouped, unfilling⟩]

/-- A lexeme that closes a directive is a bracket, and nothing else is open in the directive. -/
theorem closing?_eq_some_iff {frame : OpenDirective} {outer : List OpenDirective} :
    reader.closing? lexeme = some ⟨frame, outer⟩ ↔
      reader.frames = frame :: outer ∧ lexeme.token.closes? = some .bracket ∧
        frame.groups = [] ∧ frame.slot = none := by
  unfold closing?
  split
  · next outside => simp [outside]
  · next first others inside =>
    rw [inside]
    constructor
    · intro h
      split at h
      · next hcloses =>
        cases h
        exact ⟨rfl, hcloses⟩
      · exact nomatch h
    · rintro ⟨hframes, hcloses⟩
      obtain ⟨rfl, rfl⟩ := List.cons.inj hframes
      exact if_pos hcloses

/-- A lexeme that closes nothing at all closes no directive. -/
theorem closing?_of_closes (closes : lexeme.token.closes? = none) :
    reader.closing? lexeme = none := by
  unfold closing?
  split
  · rfl
  · exact if_neg fun h => Option.some_ne_none _ (h.1.symm.trans closes)

/-- What a step does to the segments: nothing, or it closes a directive and places what it becomes. -/
theorem Step.rests_or_closes (step : Step scope reader lexeme next) :
    (reader.closing? lexeme = none ∧ next.segments = reader.segments ∧
      next.hoisted = reader.hoisted) ∨
    ∃ frame outer directive, reader.closing? lexeme = some ⟨frame, outer⟩ ∧
      frame.build scope.extraction s!"{scope.document}#{reader.built}" = .ok directive ∧
      next = reader.place ⟨frame.start, lexeme.stop⟩ directive outer := by
  cases step with
  | prose outside unnamed =>
    left
    refine ⟨?_, rfl, rfl⟩
    rw [closing?, outside]
  | directive named registered allowed noSlot =>
    exact .inl ⟨closing?_of_closes (Token.closes?_of_names? named), rfl, rfl⟩
  | slot inside named opens unfilled =>
    exact .inl ⟨closing?_of_closes (Token.closes?_of_names? named), rfl, rfl⟩
  | plain inside plain =>
    exact .inl ⟨closing?_of_closes (Token.closes?_of_isPlain plain), rfl, rfl⟩
  | group inside grouped =>
    exact .inl ⟨closing?_of_closes (Token.closes?_of_groups? grouped), rfl, rfl⟩
  | closeGroup inside closing grouped =>
    left
    refine ⟨?_, rfl, rfl⟩
    rw [closing?_of_inside inside, if_neg]
    rintro ⟨_, ungrouped, _⟩
    exact nomatch grouped.symm.trans ungrouped
  | closeSlot inside closing ungrouped filling =>
    left
    refine ⟨?_, rfl, rfl⟩
    rw [closing?_of_inside inside, if_neg]
    rintro ⟨_, _, unfilling⟩
    exact nomatch filling.symm.trans unfilling
  | @closeDirective frame outer directive inside closing ungrouped unfilling built =>
    right
    exact ⟨frame, outer, directive,
      closing?_of_closing inside closing ungrouped unfilling, built, rfl⟩

/-- A step that closes no directive leaves the segments alone. -/
theorem Step.rests (step : Step scope reader lexeme next) (h : reader.closing? lexeme = none) :
    next.segments = reader.segments ∧ next.hoisted = reader.hoisted := by
  rcases step.rests_or_closes with ⟨_, rests⟩ | ⟨_, _, _, hclosing, _, _⟩
  · exact rests
  · exact nomatch h.symm.trans hclosing

/-- A step that closes a directive places what it becomes. -/
theorem Step.closes {frame : OpenDirective} {outer : List OpenDirective}
    (step : Step scope reader lexeme next) (h : reader.closing? lexeme = some ⟨frame, outer⟩) :
    ∃ directive,
      frame.build scope.extraction s!"{scope.document}#{reader.built}" = .ok directive ∧
      next = reader.place ⟨frame.start, lexeme.stop⟩ directive outer := by
  rcases step.rests_or_closes with ⟨hnone, _⟩ | ⟨_, _, directive, hclosing, built, hnext⟩
  · exact nomatch h.symm.trans hnone
  · obtain ⟨rfl, rfl⟩ := Closing.mk.inj (Option.some.inj (h.symm.trans hclosing))
    exact ⟨directive, built, hnext⟩

/-- A lexeme is read in one way only. -/
theorem Step.unique (first : Step scope reader lexeme next)
    (second : Step scope reader lexeme other) : next = other :=
  Except.ok.inj ((read_of_step first).symm.trans (read_of_step second))

theorem closings_cons (step : Step scope reader lexeme next) (rest : List Lexeme) :
    closings scope reader (lexeme :: rest) =
      (reader.closing? lexeme).toList ++ closings scope next rest := by
  rw [closings, read_of_step step]

end Reader
end Courseware
