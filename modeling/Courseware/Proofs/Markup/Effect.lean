import Courseware.Proofs.Markup.Closing

/-!
# What a step does to the open directives

For the places of directives the contents do not matter. Seen from there, a step gathers prose outside
of all directives, opens a directive, changes something inside the innermost one, or closes it.
`Reader.Effect` has one constructor for each, and `Reader.Step.effect` reduces a step to its effect. A
directive is known by its site, which is its descriptor and the offset at which it starts.
-/

namespace Courseware

namespace Token

variable {token : Token} {enclosure : Enclosure}

theorem names?_of_isPlain (plain : token.isPlain = true) : token.names? = none := by
  cases token <;> first | rfl | exact nomatch plain

theorem names?_of_groups? (grouped : token.groups? = some enclosure) : token.names? = none := by
  cases token <;> first | rfl | exact nomatch grouped

theorem names?_of_closes? (closing : token.closes? = some enclosure) : token.names? = none := by
  cases token <;> first | rfl | exact nomatch closing

end Token

/-- What an open directive keeps from its opening: its descriptor and the offset at which it starts. -/
def OpenDirective.site (frame : OpenDirective) : Descriptor × Nat := (frame.descriptor, frame.start)

@[simp]
theorem OpenDirective.site_add (frame : OpenDirective) (fragment : Fragment) :
    (frame.add fragment).site = frame.site := by
  rw [site, add_descriptor, add_start]
  rfl

namespace Reader

/-- The sites of the open directives, innermost first. -/
def sites (reader : Reader) : List (Descriptor × Nat) := reader.frames.map OpenDirective.site

variable {scope : ReaderScope} {reader next : Reader} {lexeme : Lexeme}

@[simp]
theorem sites_place (reader : Reader) (span : Span) (directive : Directive)
    (outer : List OpenDirective) :
    (reader.place span directive outer).sites = outer.map OpenDirective.site := by
  cases outer with
  | nil => rfl
  | cons parent outer =>
    cases directive with
    | note content => simp [place, sites]
    | presenterNote content => rfl
    | task task => rfl

/-- When an outermost directive is closed, the prose before it becomes a segment, and it is placed with
those that were waiting. -/
theorem reverse_segments_place (reader : Reader) (span : Span) (directive : Directive) :
    (reader.place span directive []).segments.reverse =
      reader.segments.reverse ++ (Segment.ofProse reader.prose).reverse ++
        (directive :: reader.hoisted.reverse).map (.directive span) := by
  simp [place]

/-- Closing a nested directive leaves the segments and the prose alone. -/
theorem place_inner (reader : Reader) (span : Span) (directive : Directive)
    (parent : OpenDirective) (outer : List OpenDirective) :
    (reader.place span directive (parent :: outer)).segments = reader.segments ∧
      (reader.place span directive (parent :: outer)).prose = reader.prose ∧
      (reader.place span directive (parent :: outer)).frames ≠ [] := by
  cases directive <;> exact ⟨rfl, rfl, List.cons_ne_nil _ _⟩

/-- What a step does to the open directives. -/
inductive Effect (scope : ReaderScope) (reader : Reader) (lexeme : Lexeme) : Reader → Prop
  /-- Outside all directives, prose is gathered. -/
  | prose (outside : reader.frames = []) (unnamed : lexeme.token.names? = none) :
      Effect scope reader lexeme
        { reader with prose := .source lexeme.start lexeme.text :: reader.prose }
  /-- A directive is opened. -/
  | opens {descriptor : Descriptor} (named : lexeme.token.names? = some .bracket)
      (registered : scope.registry.get? lexeme.name = some descriptor)
      (allowed : descriptor.allows scope.context = true) :
      Effect scope reader lexeme
        { reader with frames := .begin descriptor lexeme.start :: reader.frames }
  /-- The innermost directive is changed and stays open. What is named here is a slot of it. -/
  | rests {frames : List OpenDirective} {frame : OpenDirective} {outer : List OpenDirective}
      (inside : reader.frames = frame :: outer)
      (same : frames.map OpenDirective.site = reader.sites)
      (slot : lexeme.token.names? ≠ none → frame.descriptor.hasSlot lexeme.name = true)
      (open_ : reader.closing? lexeme = none) :
      Effect scope reader lexeme { reader with frames := frames }
  /-- The innermost directive is closed. -/
  | closes {frame : OpenDirective} {outer : List OpenDirective} {directive : Directive}
      (inside : reader.frames = frame :: outer)
      (closing : lexeme.token.closes? = some .bracket)
      (closed : reader.closing? lexeme = some ⟨frame, outer⟩)
      (built : frame.build scope.extraction s!"{scope.document}#{reader.built}" =
        .ok directive) :
      Effect scope reader lexeme (reader.place ⟨frame.start, lexeme.stop⟩ directive outer)

/-- A change of the innermost directive that closes no directive. -/
theorem effect_of_inside {frame changed : OpenDirective} {outer : List OpenDirective}
    (inside : reader.frames = frame :: outer) (same : changed.site = frame.site)
    (slot : lexeme.token.names? ≠ none → frame.descriptor.hasSlot lexeme.name = true)
    (open_ : reader.closing? lexeme = none) :
    Effect scope reader lexeme { reader with frames := changed :: outer } := by
  refine .rests inside ?_ slot open_
  rw [sites, inside, List.map_cons, List.map_cons, same]

/-- Every step has one of these effects. -/
theorem Step.effect (step : Step scope reader lexeme next) : Effect scope reader lexeme next := by
  cases step with
  | prose outside unnamed => exact .prose outside unnamed
  | directive named registered allowed noSlot => exact .opens named registered allowed
  | @slot frame outer enclosure inside named opens unfilled =>
    rw [OpenDirective.opensSlot, Bool.and_eq_true] at opens
    exact effect_of_inside inside rfl (fun _ => opens.2)
      (closing?_of_closes (Token.closes?_of_names? named))
  | plain inside plain =>
    exact effect_of_inside inside (OpenDirective.site_add _ _)
      (fun named => absurd (Token.names?_of_isPlain plain) named)
      (closing?_of_closes (Token.closes?_of_isPlain plain))
  | group inside grouped =>
    exact effect_of_inside inside (OpenDirective.site_add _ (.source lexeme.start lexeme.text))
      (fun named => absurd (Token.names?_of_groups? grouped) named)
      (closing?_of_closes (Token.closes?_of_groups? grouped))
  | @closeGroup frame outer enclosure groups inside closing grouped =>
    refine effect_of_inside inside (OpenDirective.site_add { frame with groups := groups } _)
      (fun named => absurd (Token.names?_of_closes? closing) named) ?_
    rw [closing?_of_inside inside, if_neg]
    rintro ⟨_, ungrouped, _⟩
    exact nomatch grouped.symm.trans ungrouped
  | @closeSlot frame outer slot inside closing ungrouped filling =>
    refine effect_of_inside inside rfl
      (fun named => absurd (Token.names?_of_closes? closing) named) ?_
    rw [closing?_of_inside inside, if_neg]
    rintro ⟨_, _, unfilling⟩
    exact nomatch filling.symm.trans unfilling
  | closeDirective inside closing ungrouped unfilling built =>
    exact .closes inside closing (closing?_of_closing inside closing ungrouped unfilling) built

end Reader
end Courseware
