import Courseware.Proofs.Markup.Alike
import Courseware.Proofs.Markup.Effect
import Courseware.Proofs.Markup.Lexing
import Courseware.Proofs.Markup.Recognition

/-!
# Where nested directives go

A directive is built when its closing bracket is read, so directives are built from the inside to the
outside. The segments do not stand in this order. An outermost directive comes before all that is nested
in it; what is nested in it follows in the order of closing brackets, except for the notes, which are
pasted into the content around them. So a directive that is nested itself comes after the directives that
are nested in it.

`Written` records what is known of a directive at its closing bracket. `Nested` says how the places of
directives are related, `Written.Before` is the order of the segments, and `Arranged` says that a reader
has placed in this order whatever has been written.
-/

namespace Courseware

/-- A directive that has been read to its end: its span in the scrubbed text, the offsets at which the
directives around it start, innermost first, and what it has become. -/
structure Written where
  span : Span
  around : List Nat
  directive : Directive
deriving DecidableEq, Repr

namespace Written

/-- No segment is made of a note inside another directive. -/
def isInlined (written : Written) : Bool :=
  !written.around.isEmpty && written.directive.kind == .note

/-- The offset at which the outermost directive starts that a directive belongs to. -/
def root (written : Written) : Nat := written.around.getLast?.getD written.span.start

/-- One directive stands inside another. -/
def Encloses (outer inner : Written) : Prop :=
  outer.span.start < inner.span.start ∧ inner.span.stop < outer.span.stop

/-- The order of segments. What belongs to different outermost directives is ordered by these. The
outermost directive comes first, and what is nested in it is ordered by closing brackets. -/
def Before (first second : Written) : Prop :=
  first.root < second.root ∨
    first.root = second.root ∧ second.around ≠ [] ∧
      (first.around = [] ∨ first.span.stop < second.span.stop)

/-- What holds of two directives of which the first is closed earlier: it stands inside the second, or
before it. -/
def Under (earlier later : Written) : Prop :=
  earlier.span.start ∉ later.around ∧
    (later.span.start ∈ earlier.around ∧ earlier.span.stop < later.span.stop ∨
      later.span.start ∉ earlier.around ∧ earlier.span.stop ≤ later.span.start)

theorem root_of_around_nil {written : Written} (h : written.around = []) :
    written.root = written.span.start := by
  rw [root, h]
  rfl

theorem getLast?_around {written : Written} (h : written.around ≠ []) :
    written.around.getLast? = some written.root := by
  rw [root, List.getLast?_eq_getLast_of_ne_nil h, Option.getD_some]

theorem root_mem_around {written : Written} (h : written.around ≠ []) :
    written.root ∈ written.around :=
  List.mem_of_getLast? (getLast?_around h)

/-- Directives are in one order only. -/
theorem Before.asymm {first second : Written} (before : first.Before second) :
    ¬second.Before first := by
  rintro (hroot | ⟨hroot, nested, hlast⟩) <;>
    rcases before with hroot' | ⟨hroot', nested', hlast'⟩
  · omega
  · omega
  · omega
  · rcases hlast with outermost | hstop
    · exact nested' outermost
    · rcases hlast' with outermost | hstop'
      · exact nested outermost
      · omega

/-- In a list in this order one directive follows another exactly when it comes after it. -/
theorem sublist_iff_before {placed : List Written} (ordered : placed.Pairwise Before)
    {first second : Written} (hfirst : first ∈ placed) (hsecond : second ∈ placed) :
    [first, second].Sublist placed ↔ first.Before second := by
  constructor
  · exact List.pairwise_iff_forall_sublist.mp ordered
  · intro before
    obtain ⟨earlier, later, rfl⟩ := List.append_of_mem hfirst
    obtain ⟨_, _, hcross⟩ := List.pairwise_append.mp ordered
    rcases List.mem_append.mp hsecond with hearlier | hlater
    · exact absurd (hcross second hearlier first List.mem_cons_self) before.asymm
    · rcases List.mem_cons.mp hlater with rfl | hlater
      · exact absurd before before.asymm
      · exact ((List.singleton_sublist.mpr hlater).cons_cons first).trans
          (List.sublist_append_right earlier _)

end Written

/-- The span and the content of a segment that is a directive. -/
def Segment.directive? : Segment → Option (Span × Directive)
  | prose .. => none
  | directive span content => some (span, content)

theorem Segment.filterMap_directive?_ofProse (fragments : List Fragment) :
    (Segment.ofProse fragments).reverse.filterMap Segment.directive? = [] := by
  unfold Segment.ofProse
  split
  · rfl
  · split <;> rfl

/-- Directives that are given one span. -/
theorem Segment.filterMap_directive?_map (span : Span) (directives : List Directive) :
    (directives.map (Segment.directive span)).filterMap Segment.directive? =
      directives.map (span, ·) := by
  rw [List.filterMap_map, ← List.filterMap_eq_map]
  rfl

namespace Reader

variable {scope : ReaderScope} {reader next : Reader} {lexeme : Lexeme}

/-- The directive that is read to its end with a lexeme, if there is one. -/
def written? (scope : ReaderScope) (reader : Reader) (lexeme : Lexeme) : Option Written :=
  match reader.closing? lexeme with
  | none => none
  | some closing =>
    match closing.frame.build scope.extraction s!"{scope.document}#{reader.built}" with
    | .error _ => none
    | .ok directive =>
      some ⟨⟨closing.frame.start, lexeme.stop⟩, closing.outer.map OpenDirective.start, directive⟩

/-- The directives that are read to their ends, in the order of their closing brackets. -/
def written (scope : ReaderScope) (reader : Reader) : List Lexeme → List Written
  | [] => []
  | lexeme :: rest =>
    match read scope reader lexeme with
    | .error _ => []
    | .ok next => (written? scope reader lexeme).toList ++ written scope next rest

/-- The offsets at which the open directives start, innermost first. -/
def starts (reader : Reader) : List Nat := reader.sites.map Prod.snd

theorem starts_of_outside (outside : reader.frames = []) : reader.starts = [] := by
  rw [starts, sites, outside]
  rfl

theorem starts_of_inside {frame : OpenDirective} {outer : List OpenDirective}
    (inside : reader.frames = frame :: outer) :
    reader.starts = frame.start :: outer.map OpenDirective.start := by
  rw [starts, sites, inside, List.map_map]
  rfl

theorem starts_place (reader : Reader) (span : Span) (directive : Directive)
    (outer : List OpenDirective) :
    (reader.place span directive outer).starts = outer.map OpenDirective.start := by
  rw [starts, sites_place, List.map_map]
  rfl

theorem written?_of_open (h : reader.closing? lexeme = none) : written? scope reader lexeme = none := by
  rw [written?, h]

theorem written?_of_outside (outside : reader.frames = []) : written? scope reader lexeme = none :=
  written?_of_open (by rw [closing?, outside])

theorem written?_of_names? {enclosure : Enclosure} (named : lexeme.token.names? = some enclosure) :
    written? scope reader lexeme = none :=
  written?_of_open (closing?_of_closes (Token.closes?_of_names? named))

theorem written?_of_closed {frame : OpenDirective} {outer : List OpenDirective}
    {directive : Directive} (closed : reader.closing? lexeme = some ⟨frame, outer⟩)
    (built : frame.build scope.extraction s!"{scope.document}#{reader.built}" = .ok directive) :
    written? scope reader lexeme =
      some ⟨⟨frame.start, lexeme.stop⟩, outer.map OpenDirective.start, directive⟩ := by
  rw [written?, closed]
  simp only [built]

/-- What is read to its end after others are. -/
theorem Walk.written_concat {before : List Lexeme} (walk : Walk scope reader before next)
    {after : Reader} (step : Step scope next lexeme after) :
    written scope reader (before ++ [lexeme]) =
      written scope reader before ++ (written? scope next lexeme).toList := by
  induction walk with
  | done reader =>
    simp only [List.nil_append, written, read_of_step step, List.append_nil]
  | step first _ ih =>
    simp only [List.cons_append, written, read_of_step first, ih step, List.append_assoc]

end Reader

/-! ## How directives are nested -/

/-- How directives are nested in a text that has been read up to an offset. `starts` are the offsets at
which the open directives start, innermost first. -/
structure Nested (position : Nat) (starts : List Nat) (written : List Written) : Prop where
  decreasing : starts.Pairwise (· > ·)
  started : ∀ start ∈ starts, start < position
  extent : ∀ item ∈ written, item.span.start < item.span.stop ∧ item.span.stop ≤ position
  around : ∀ item ∈ written, ∀ start ∈ item.around, start < item.span.start
  apart : ∀ item ∈ written, ∀ start ∈ starts, start ∈ item.around ∨ item.span.stop ≤ start
  under : written.Pairwise Written.Under
  rooted : ∀ item ∈ written, item.around ≠ [] → starts.getLast? = some item.root ∨
    ∃ top ∈ written, top.around = [] ∧ top.span.start = item.root

namespace Nested

variable {position more : Nat} {starts : List Nat} {written : List Written}

/-- Reading on changes nothing. -/
theorem mono (nested : Nested position starts written) (h : position ≤ more) :
    Nested more starts written where
  decreasing := nested.decreasing
  started := fun start hstart => Nat.lt_of_lt_of_le (nested.started start hstart) h
  extent := fun item hitem =>
    ⟨(nested.extent item hitem).1, Nat.le_trans (nested.extent item hitem).2 h⟩
  around := nested.around
  apart := nested.apart
  under := nested.under
  rooted := nested.rooted

/-- A directive is opened where the text has been read to. -/
theorem opens (nested : Nested position starts written) (h : position < more) :
    Nested more (position :: starts) written where
  decreasing := List.pairwise_cons.mpr ⟨nested.started, nested.decreasing⟩
  started := by
    intro start hstart
    rcases List.mem_cons.mp hstart with rfl | hrest
    · exact h
    · exact (nested.started start hrest).trans h
  extent := (nested.mono (Nat.le_of_lt h)).extent
  around := nested.around
  apart := by
    intro item hitem start hstart
    rcases List.mem_cons.mp hstart with rfl | hrest
    · exact .inr (nested.extent item hitem).2
    · exact nested.apart item hitem start hrest
  under := nested.under
  rooted := by
    intro item hitem hnested
    apply (nested.rooted item hitem hnested).imp_left
    intro hroot
    rw [List.getLast?_cons, hroot, Option.getD_some]

/-- The innermost open directive is closed. -/
theorem closes {start : Nat} {around : List Nat}
    (nested : Nested position (start :: around) written) (h : position < more)
    (directive : Directive) :
    Nested more around (written ++ [⟨⟨start, more⟩, around, directive⟩]) := by
  obtain ⟨hinner, hdecreasing⟩ := List.pairwise_cons.mp nested.decreasing
  have hstart : start < position := nested.started start List.mem_cons_self
  have under : ∀ item ∈ written, item.Under ⟨⟨start, more⟩, around, directive⟩ := by
    intro item hitem
    obtain ⟨hextent, hstop⟩ := nested.extent item hitem
    constructor
    · intro hmem
      rcases nested.apart item hitem _ (List.mem_cons_of_mem start hmem) with haround | hbefore
      · exact absurd (nested.around item hitem _ haround) (Nat.lt_irrefl _)
      · omega
    · by_cases haround : start ∈ item.around
      · exact .inl ⟨haround, Nat.lt_of_le_of_lt hstop h⟩
      · exact .inr ⟨haround,
          (nested.apart item hitem start List.mem_cons_self).resolve_left haround⟩
  constructor
  case decreasing => exact hdecreasing
  case started =>
    intro outer houter
    exact (nested.started outer (List.mem_cons_of_mem start houter)).trans h
  case extent =>
    rw [List.forall_mem_append, List.forall_mem_singleton]
    exact ⟨(nested.mono (Nat.le_of_lt h)).extent, hstart.trans h, Nat.le_refl more⟩
  case around =>
    rw [List.forall_mem_append, List.forall_mem_singleton]
    exact ⟨nested.around, hinner⟩
  case apart =>
    rw [List.forall_mem_append, List.forall_mem_singleton]
    constructor
    · intro item hitem outer houter
      exact nested.apart item hitem outer (List.mem_cons_of_mem start houter)
    · intro outer houter
      exact .inl houter
  case under =>
    rw [List.pairwise_append]
    refine ⟨nested.under, List.pairwise_singleton _ _, ?_⟩
    intro item hitem last hlast
    obtain rfl := List.mem_singleton.mp hlast
    exact under item hitem
  case rooted =>
    rw [List.forall_mem_append, List.forall_mem_singleton]
    constructor
    · intro item hitem hnested
      rcases nested.rooted item hitem hnested with hroot | ⟨top, htop, houtermost, hroot⟩
      · cases around with
        | nil =>
          right
          refine ⟨_, List.mem_append_right _ (List.mem_singleton_self _), rfl, ?_⟩
          exact Option.some.inj hroot
        | cons outer others =>
          left
          rwa [List.getLast?_cons_cons] at hroot
      · exact .inr ⟨top, List.mem_append_left _ htop, houtermost, hroot⟩
    · intro hnested
      exact .inl (Written.getLast?_around hnested)

theorem root_lt (nested : Nested position starts written) {item : Written}
    (h : item ∈ written) : item.root < position := by
  obtain ⟨hextent, hstop⟩ := nested.extent item h
  by_cases houtermost : item.around = []
  · rw [Written.root_of_around_nil houtermost]
    omega
  · have hroot := nested.around item h _ (Written.root_mem_around houtermost)
    omega

/-- Of two directives one is closed earlier. -/
theorem under_or_under (nested : Nested position starts written) {first second : Written}
    (hfirst : first ∈ written) (hsecond : second ∈ written) :
    first = second ∨ first.Under second ∨ second.Under first := by
  have related := List.Pairwise.forall_of_forall_of_flip
    (R := fun first second : Written => first = second ∨ first.Under second ∨ second.Under first)
    (fun item _ => .inl rfl) (nested.under.imp fun under => .inr (.inl under))
    (nested.under.imp fun under => .inr (.inr under))
  exact related hfirst hsecond

/-- Two directives stand one inside the other or one before the other. -/
theorem encloses_or_stop_le (nested : Nested position starts written) {first second : Written}
    (hfirst : first ∈ written) (hsecond : second ∈ written) :
    first = second ∨ first.Encloses second ∨ second.Encloses first ∨
      first.span.stop ≤ second.span.start ∨ second.span.stop ≤ first.span.start := by
  rcases nested.under_or_under hfirst hsecond with
    rfl | ⟨_, ⟨hin, hstop⟩ | ⟨_, hstop⟩⟩ | ⟨_, ⟨hin, hstop⟩ | ⟨_, hstop⟩⟩
  · exact .inl rfl
  · exact .inr (.inr (.inl ⟨nested.around first hfirst _ hin, hstop⟩))
  · exact .inr (.inr (.inr (.inl hstop)))
  · exact .inr (.inl ⟨nested.around second hsecond _ hin, hstop⟩)
  · exact .inr (.inr (.inr (.inr hstop)))

/-- What is around a directive are the directives that it stands in. -/
theorem mem_around_iff (nested : Nested position starts written) {outer inner : Written}
    (houter : outer ∈ written) (hinner : inner ∈ written) :
    outer.span.start ∈ inner.around ↔ outer.Encloses inner := by
  obtain ⟨hlt, _⟩ := nested.extent outer houter
  obtain ⟨hlt', _⟩ := nested.extent inner hinner
  rw [Written.Encloses]
  rcases nested.under_or_under houter hinner with
    rfl | ⟨hout, ⟨hin, hstop⟩ | ⟨_, hstop⟩⟩ | ⟨_, ⟨hin, hstop⟩ | ⟨hout, hstop⟩⟩
  · exact iff_of_false (fun h => Nat.lt_irrefl _ (nested.around outer hinner _ h)) (by omega)
  · have hstart := nested.around outer houter _ hin
    exact iff_of_false hout (by omega)
  · exact iff_of_false hout (by omega)
  · exact iff_of_true hin ⟨nested.around inner hinner _ hin, hstop⟩
  · exact iff_of_false hout (by omega)

/-- When no directive is open, each nested directive stands in the outermost one that it belongs to. -/
theorem exists_top (nested : Nested position [] written) {item : Written} (h : item ∈ written)
    (hnested : item.around ≠ []) :
    ∃ top ∈ written, top.around = [] ∧ top.span.start = item.root ∧ top.Encloses item := by
  rcases nested.rooted item h hnested with hopen | ⟨top, htop, houtermost, hroot⟩
  · exact nomatch hopen
  · refine ⟨top, htop, houtermost, hroot, (nested.mem_around_iff htop h).mp ?_⟩
    rw [hroot]
    exact Written.root_mem_around hnested

/-- Directives are nested when they stand in others. -/
theorem around_ne_nil_iff (nested : Nested position [] written) {item : Written}
    (h : item ∈ written) : item.around ≠ [] ↔ ∃ outer ∈ written, outer.Encloses item := by
  constructor
  · intro hnested
    obtain ⟨top, htop, _, _, encloses⟩ := nested.exists_top h hnested
    exact ⟨top, htop, encloses⟩
  · rintro ⟨outer, houter, encloses⟩ houtermost
    have hmem := (nested.mem_around_iff houter h).mpr encloses
    rw [houtermost] at hmem
    exact List.not_mem_nil hmem

/-- What stands in an outermost directive belongs to it. -/
theorem root_eq_of_outermost (nested : Nested position [] written) {outer inner : Written}
    (houter : outer ∈ written) (hinner : inner ∈ written) (outermost : outer.around = [])
    (encloses : outer.Encloses inner) : inner.root = outer.span.start := by
  have hnested : inner.around ≠ [] := (nested.around_ne_nil_iff hinner).mpr ⟨outer, houter, encloses⟩
  obtain ⟨top, htop, htopOutermost, hroot, htopEncloses⟩ := nested.exists_top hinner hnested
  obtain ⟨hlt, _⟩ := nested.extent inner hinner
  have notInside : ∀ other ∈ written, ∀ item ∈ written, item.around = [] → ¬other.Encloses item := by
    intro other hother item hitem hout hin
    exact (nested.around_ne_nil_iff hitem).mpr ⟨other, hother, hin⟩ hout
  obtain ⟨hstart, hstop⟩ := encloses
  obtain ⟨htopStart, htopStop⟩ := htopEncloses
  rcases nested.encloses_or_stop_le houter htop with rfl | h | h | h | h
  · exact hroot.symm
  · exact absurd h (notInside outer houter top htop htopOutermost)
  · exact absurd h (notInside top htop outer houter outermost)
  · omega
  · omega

/-- A directive belongs to the same outermost one as those that stand in it. -/
theorem root_eq_of_encloses (nested : Nested position [] written) {outer inner : Written}
    (houter : outer ∈ written) (hinner : inner ∈ written) (encloses : outer.Encloses inner) :
    inner.root = outer.root := by
  by_cases outermost : outer.around = []
  · rw [Written.root_of_around_nil outermost]
    exact nested.root_eq_of_outermost houter hinner outermost encloses
  · obtain ⟨top, htop, htopOutermost, hroot, htopEncloses⟩ := nested.exists_top houter outermost
    rw [← hroot]
    apply nested.root_eq_of_outermost htop hinner htopOutermost
    exact ⟨htopEncloses.1.trans encloses.1, encloses.2.trans htopEncloses.2⟩

/-- What stands in a directive comes after it if the directive is an outermost one, and before it if
not. -/
theorem before_iff_of_encloses (nested : Nested position [] written) {outer inner : Written}
    (houter : outer ∈ written) (hinner : inner ∈ written) (encloses : outer.Encloses inner) :
    (outer.Before inner ↔ outer.around = []) ∧ (inner.Before outer ↔ outer.around ≠ []) := by
  have hroot := nested.root_eq_of_encloses houter hinner encloses
  have hinside : inner.around ≠ [] :=
    (nested.around_ne_nil_iff hinner).mpr ⟨outer, houter, encloses⟩
  have hbefore : outer.around = [] → outer.Before inner := fun outermost =>
    .inr ⟨hroot.symm, hinside, .inl outermost⟩
  have hafter : outer.around ≠ [] → inner.Before outer := fun hnested =>
    .inr ⟨hroot, hnested, .inr encloses.2⟩
  constructor
  · refine ⟨fun before => ?_, hbefore⟩
    by_contra hnested
    exact before.asymm (hafter hnested)
  · refine ⟨fun before hnested => ?_, hafter⟩
    exact before.asymm (hbefore hnested)

/-- Directives that stand in the same directives are ordered by where they start. -/
theorem before_of_siblings (nested : Nested position [] written) {first second : Written}
    (hfirst : first ∈ written) (hsecond : second ∈ written)
    (siblings : ∀ outer ∈ written, outer.Encloses first ↔ outer.Encloses second)
    (h : first.span.start < second.span.start) : first.Before second := by
  have hstop : first.span.stop ≤ second.span.start := by
    obtain ⟨hlt, _⟩ := nested.extent second hsecond
    rcases nested.encloses_or_stop_le hfirst hsecond with rfl | h | h | h | h
    · omega
    · exact absurd ((siblings first hfirst).mpr h).1 (Nat.lt_irrefl _)
    · exact absurd ((siblings second hsecond).mp h).1 (Nat.lt_irrefl _)
    · exact h
    · omega
  by_cases outermost : first.around = []
  · have houtermost : second.around = [] := by
      by_contra hnested
      obtain ⟨outer, houter, encloses⟩ := (nested.around_ne_nil_iff hsecond).mp hnested
      exact (nested.around_ne_nil_iff hfirst).mpr ⟨outer, houter, (siblings outer houter).mpr encloses⟩
        outermost
    left
    rwa [Written.root_of_around_nil outermost, Written.root_of_around_nil houtermost]
  · obtain ⟨top, htop, htopOutermost, hroot, encloses⟩ := nested.exists_top hfirst outermost
    have hsecondEncloses := (siblings top htop).mp encloses
    right
    refine ⟨?_, ?_, .inr ?_⟩
    · rw [← hroot]
      exact (nested.root_eq_of_outermost htop hsecond htopOutermost hsecondEncloses).symm
    · exact (nested.around_ne_nil_iff hsecond).mpr ⟨top, htop, hsecondEncloses⟩
    · obtain ⟨hlt, _⟩ := nested.extent second hsecond
      omega

end Nested

namespace Reader

variable {scope : ReaderScope} {reader next : Reader} {lexeme : Lexeme} {lexemes : List Lexeme}

/-- Reading keeps track of how directives are nested. -/
theorem Walk.nested (walk : Walk scope .initial lexemes next) (adjoin : Lexeme.Adjoin 0 lexemes) :
    Nested (Text.width (Lexeme.join lexemes)) next.starts (written scope .initial lexemes) := by
  refine walk.invariant_of_adjoin (fun done reader =>
    Nested (Text.width (Lexeme.join done)) reader.starts (written scope .initial done)) adjoin ?_ ?_
  · constructor <;> simp [starts, sites, initial, written]
  · intro before middle lexeme after hadjoin hwalk ih step
    obtain ⟨_, hstart, hstop, hlt⟩ := hadjoin.spec
    rw [← hstart] at ih
    rw [← hstop, hwalk.written_concat step]
    cases step.effect with
    | prose outside unnamed =>
      rw [written?_of_outside outside, Option.toList_none, List.append_nil]
      exact ih.mono (Nat.le_of_lt hlt)
    | opens named registered allowed =>
      rw [written?_of_names? named, Option.toList_none, List.append_nil]
      exact ih.opens hlt
    | rests inside same slot open_ =>
      rw [written?_of_open open_, Option.toList_none, List.append_nil, starts, sites, same]
      exact ih.mono (Nat.le_of_lt hlt)
    | closes inside closing closed built =>
      rw [written?_of_closed closed built, Option.toList_some, starts_place]
      rw [starts_of_inside inside] at ih
      exact ih.closes hlt _

/-! ## Where directives are placed -/

/-- How what has been written is placed among the segments. `placed` holds the directives of the
segments with the spans that these have, and `waiting` those that follow the outermost open directive
when it is closed. -/
structure Arranged (reader : Reader) (written : List Written) (placed : List (Span × Written))
    (waiting : List Written) : Prop where
  segments : reader.segments.reverse.filterMap Segment.directive? =
    placed.map fun item => (item.1, item.2.directive)
  hoisted : reader.hoisted.reverse = waiting.map Written.directive
  complete : (placed.map Prod.snd ++ waiting).Perm (written.filter fun item => !item.isInlined)
  ordered : (placed.map Prod.snd).Pairwise Written.Before
  settled : ∀ item ∈ placed, ∀ start ∈ reader.starts, item.2.root < start
  spans : ∀ item ∈ placed, ∃ top ∈ written, top.around = [] ∧ top.span.start = item.2.root ∧
    item.1 = top.span
  waits : waiting.Pairwise Written.Before
  rooted : ∀ item ∈ waiting, item.around ≠ [] ∧ reader.starts.getLast? = some item.root

namespace Arranged

variable {written : List Written} {placed : List (Span × Written)} {waiting : List Written}

/-- Where no directive is opened or closed, nothing is placed. -/
theorem congr (arranged : Arranged reader written placed waiting)
    (segments : next.segments = reader.segments) (hoisted : next.hoisted = reader.hoisted)
    (starts : next.starts = reader.starts) : Arranged next written placed waiting where
  segments := by rw [segments, arranged.segments]
  hoisted := by rw [hoisted, arranged.hoisted]
  complete := arranged.complete
  ordered := arranged.ordered
  settled := by rw [starts]; exact arranged.settled
  spans := arranged.spans
  waits := arranged.waits
  rooted := by rw [starts]; exact arranged.rooted

theorem mem_written (arranged : Arranged reader written placed waiting)
    {item : Written} (h : item ∈ placed.map Prod.snd ++ waiting) : item ∈ written :=
  List.mem_of_mem_filter (arranged.complete.mem_iff.mp h)

/-- A directive is opened. -/
theorem opens {position : Nat} (arranged : Arranged reader written placed waiting)
    (nested : Nested position reader.starts written) (descriptor : Descriptor) :
    Arranged { reader with frames := .begin descriptor position :: reader.frames } written placed
      waiting where
  segments := arranged.segments
  hoisted := arranged.hoisted
  complete := arranged.complete
  ordered := arranged.ordered
  settled := by
    intro item hitem start hstart
    rcases List.mem_cons.mp hstart with rfl | hrest
    · exact nested.root_lt
        (arranged.mem_written (List.mem_append_left _ (List.mem_map_of_mem hitem)))
    · exact arranged.settled item hitem start hrest
  spans := arranged.spans
  waits := arranged.waits
  rooted := by
    intro item hitem
    obtain ⟨hnested, hroot⟩ := arranged.rooted item hitem
    refine ⟨hnested, ?_⟩
    show (position :: reader.starts).getLast? = some item.root
    rw [List.getLast?_cons, hroot, Option.getD_some]

/-- The spans of what has been placed stay when more is written. -/
theorem spans_append (arranged : Arranged reader written placed waiting) (more : List Written) :
    ∀ item ∈ placed, ∃ top ∈ written ++ more, top.around = [] ∧ top.span.start = item.2.root ∧
      item.1 = top.span := by
  intro item hitem
  obtain ⟨top, htop, hspan⟩ := arranged.spans item hitem
  exact ⟨top, List.mem_append_left more htop, hspan⟩

/-- When a nested directive is closed, the ones around it stay open. -/
theorem inner (arranged : Arranged reader written placed waiting) {frame parent : OpenDirective}
    {outer : List OpenDirective} (inside : reader.frames = frame :: parent :: outer) :
    (∀ item ∈ placed, ∀ start ∈ parent.start :: outer.map OpenDirective.start,
      item.2.root < start) ∧
    ∀ item ∈ waiting, item.around ≠ [] ∧
      (parent.start :: outer.map OpenDirective.start).getLast? = some item.root := by
  have starts : reader.starts = frame.start :: parent.start :: outer.map OpenDirective.start :=
    starts_of_inside inside
  constructor
  · intro item hitem start hstart
    apply arranged.settled item hitem
    rw [starts]
    exact List.mem_cons_of_mem _ hstart
  · intro item hitem
    obtain ⟨hnested, hroot⟩ := arranged.rooted item hitem
    rw [starts, List.getLast?_cons_cons] at hroot
    exact ⟨hnested, hroot⟩

/-- A nested note is closed. -/
theorem inlines (arranged : Arranged reader written placed waiting) {frame parent : OpenDirective}
    {outer : List OpenDirective} (inside : reader.frames = frame :: parent :: outer) (span : Span)
    {directive : Directive} (note : directive.kind = .note) :
    Arranged (reader.place span directive (parent :: outer))
      (written ++ [⟨span, parent.start :: outer.map OpenDirective.start, directive⟩]) placed
      waiting := by
  obtain ⟨settled, rooted⟩ := arranged.inner inside
  obtain ⟨content, rfl⟩ := Directive.exists_of_kind_eq_note note
  constructor
  case segments => exact arranged.segments
  case hoisted => exact arranged.hoisted
  case complete =>
    rw [List.filter_append]
    exact (List.append_nil (written.filter _)).symm ▸ arranged.complete
  case ordered => exact arranged.ordered
  case settled =>
    rw [starts_place]
    exact settled
  case spans => exact arranged.spans_append _
  case waits => exact arranged.waits
  case rooted =>
    rw [starts_place]
    exact rooted

/-- A nested directive is closed that is no note. -/
theorem hoists (arranged : Arranged reader written placed waiting) {frame parent : OpenDirective}
    {outer : List OpenDirective} (inside : reader.frames = frame :: parent :: outer) {span : Span}
    (last : ∀ item ∈ written, item.span.stop < span.stop)
    {directive : Directive} (other : directive.kind ≠ .note) :
    Arranged (reader.place span directive (parent :: outer))
      (written ++ [⟨span, parent.start :: outer.map OpenDirective.start, directive⟩]) placed
      (waiting ++ [⟨span, parent.start :: outer.map OpenDirective.start, directive⟩]) := by
  obtain ⟨settled, rooted⟩ := arranged.inner inside
  generalize hitem : Written.mk span (parent.start :: outer.map OpenDirective.start) directive =
    item
  have haround : item.around = parent.start :: outer.map OpenDirective.start := by rw [← hitem]
  have hnested : item.around ≠ [] := by
    rw [haround]
    exact List.cons_ne_nil _ _
  have hroot : (parent.start :: outer.map OpenDirective.start).getLast? = some item.root := by
    rw [← haround]
    exact Written.getLast?_around hnested
  constructor
  case segments =>
    rw [place_of_kind reader span other]
    exact arranged.segments
  case hoisted =>
    rw [place_of_kind reader span other, List.reverse_cons, arranged.hoisted, List.map_append, ← hitem]
    rfl
  case complete =>
    have hkeep : item.isInlined = false := by
      rw [← hitem, Written.isInlined, beq_false_of_ne other, Bool.and_false]
    rw [List.filter_append, List.filter_cons_of_pos (by rw [hkeep]; rfl), List.filter_nil,
      ← List.append_assoc]
    exact arranged.complete.append_right [item]
  case ordered => exact arranged.ordered
  case settled =>
    rw [starts_place]
    exact settled
  case spans => exact arranged.spans_append _
  case waits =>
    rw [List.pairwise_append]
    refine ⟨arranged.waits, List.pairwise_singleton _ _, ?_⟩
    intro first hfirst second hsecond
    obtain rfl := List.mem_singleton.mp hsecond
    right
    refine ⟨?_, hnested, ?_⟩
    · exact Option.some.inj ((rooted first hfirst).2.symm.trans hroot)
    · right
      rw [← hitem]
      exact last first (arranged.mem_written (List.mem_append_right _ hfirst))
  case rooted =>
    rw [starts_place, List.forall_mem_append, List.forall_mem_singleton]
    exact ⟨rooted, hnested, hroot⟩

/-- What waits for an outermost directive belongs to it. -/
theorem root_of_waiting (arranged : Arranged reader written placed waiting) {frame : OpenDirective}
    (inside : reader.frames = [frame]) :
    ∀ item ∈ waiting, item.around ≠ [] ∧ item.root = frame.start := by
  intro item hitem
  obtain ⟨hnested, hroot⟩ := arranged.rooted item hitem
  rw [starts_of_inside inside] at hroot
  exact ⟨hnested, (Option.some.inj hroot).symm⟩

/-- An outermost directive comes after what has been placed and before what waits for it. -/
theorem ordered_cons (arranged : Arranged reader written placed waiting) {frame : OpenDirective}
    (inside : reader.frames = [frame]) {top : Written} (outermost : top.around = [])
    (start : top.root = frame.start) :
    (placed.map Prod.snd ++ top :: waiting).Pairwise Written.Before := by
  have hwaiting := arranged.root_of_waiting inside
  rw [List.pairwise_append]
  refine ⟨arranged.ordered, List.pairwise_cons.mpr ⟨?_, arranged.waits⟩, ?_⟩
  · intro item hitem
    obtain ⟨hnested, hroot⟩ := hwaiting item hitem
    exact .inr ⟨start.trans hroot.symm, hnested, .inl outermost⟩
  · intro first hfirst second hsecond
    obtain ⟨pair, hpair, rfl⟩ := List.mem_map.mp hfirst
    have hsettled : pair.2.root < frame.start := by
      apply arranged.settled pair hpair
      rw [starts_of_inside inside]
      exact List.mem_cons_self
    left
    rcases List.mem_cons.mp hsecond with rfl | hmem
    · rwa [start]
    · rwa [(hwaiting second hmem).2]

/-- An outermost directive is closed, and what has been waiting follows it. -/
theorem places (arranged : Arranged reader written placed waiting) {frame : OpenDirective}
    (inside : reader.frames = [frame]) (stop : Nat) (directive : Directive) :
    Arranged (reader.place ⟨frame.start, stop⟩ directive [])
      (written ++ [⟨⟨frame.start, stop⟩, [], directive⟩])
      (placed ++ (⟨⟨frame.start, stop⟩, [], directive⟩ :: waiting).map (⟨frame.start, stop⟩, ·))
      [] := by
  generalize htop : Written.mk ⟨frame.start, stop⟩ [] directive = top
  have houtermost : top.around = [] := by rw [← htop]
  have hstart : top.root = frame.start := by
    rw [Written.root_of_around_nil houtermost, ← htop]
  have hplaced : ((top :: waiting).map fun item =>
      ((⟨frame.start, stop⟩ : Span), item)).map Prod.snd = top :: waiting := by
    rw [List.map_map]
    exact List.map_id _
  constructor
  case segments =>
    rw [reverse_segments_place, List.filterMap_append, List.filterMap_append,
      Segment.filterMap_directive?_ofProse, Segment.filterMap_directive?_map, arranged.segments,
      arranged.hoisted, ← htop, List.append_nil, List.map_append, List.map_map,
      List.map_cons, List.map_cons, List.map_map]
    rfl
  case hoisted => rfl
  case complete =>
    have hkeep : top.isInlined = false := by
      rw [Written.isInlined, houtermost]
      rfl
    rw [List.filter_append, List.filter_cons_of_pos (by rw [hkeep]; rfl), List.filter_nil,
      List.append_nil, List.map_append, hplaced]
    refine List.perm_middle.trans ?_
    refine (List.Perm.cons top arranged.complete).trans ?_
    exact (List.perm_append_singleton top _).symm
  case ordered =>
    rw [List.map_append, hplaced]
    exact arranged.ordered_cons inside houtermost hstart
  case settled => exact fun _ _ start hstart => absurd hstart List.not_mem_nil
  case spans =>
    rw [List.forall_mem_append]
    refine ⟨arranged.spans_append _, ?_⟩
    intro pair hpair
    obtain ⟨item, hitem, rfl⟩ := List.mem_map.mp hpair
    refine ⟨top, List.mem_append_right _ (List.mem_singleton_self _), houtermost, ?_, ?_⟩
    · rw [← Written.root_of_around_nil houtermost, hstart]
      rcases List.mem_cons.mp hitem with rfl | hmem
      · exact hstart.symm
      · exact (arranged.root_of_waiting inside item hmem).2.symm
    · rw [← htop]
  case waits => exact .nil
  case rooted => exact fun item hitem => absurd hitem List.not_mem_nil

end Arranged

/-- Reading keeps the directives in order. -/
theorem Walk.arranged (walk : Walk scope .initial lexemes next) (adjoin : Lexeme.Adjoin 0 lexemes) :
    ∃ placed waiting, Arranged next (written scope .initial lexemes) placed waiting := by
  refine walk.invariant_of_adjoin (fun done reader =>
    ∃ placed waiting, Arranged reader (written scope .initial done) placed waiting) adjoin ?_ ?_
  · refine ⟨[], [], ?_⟩
    constructor <;> simp [initial, written]
  · rintro before middle lexeme after hadjoin hwalk ⟨placed, waiting, arranged⟩ step
    obtain ⟨hbefore, hstart, hstop, hlt⟩ := hadjoin.spec
    have nested := hwalk.nested hbefore
    rw [← hstart] at nested
    rw [hwalk.written_concat step]
    cases step.effect with
    | prose outside unnamed =>
      rw [written?_of_outside outside, Option.toList_none, List.append_nil]
      exact ⟨placed, waiting, arranged.congr rfl rfl rfl⟩
    | @opens descriptor named registered allowed =>
      rw [written?_of_names? named, Option.toList_none, List.append_nil]
      exact ⟨placed, waiting, arranged.opens nested descriptor⟩
    | rests inside same slot open_ =>
      rw [written?_of_open open_, Option.toList_none, List.append_nil]
      refine ⟨placed, waiting, arranged.congr rfl rfl ?_⟩
      rw [starts, sites, same, ← starts]
    | @closes frame outer directive inside closing closed built =>
      rw [written?_of_closed closed built, Option.toList_some]
      cases outer with
      | nil => exact ⟨_, _, arranged.places inside lexeme.stop directive⟩
      | cons parent outer =>
        by_cases note : directive.kind = .note
        · exact ⟨_, _, arranged.inlines inside _ note⟩
        · refine ⟨_, _, arranged.hoists inside ?_ note⟩
          intro item hitem
          exact Nat.lt_of_le_of_lt (nested.extent item hitem).2 hlt

end Reader

namespace ParsedDocument

/-- How the directives of a document are placed among its segments. -/
structure Arrangement (segments : List Segment) (written : List Written)
    (placed : List (Span × Written)) : Prop where
  segments : segments.filterMap Segment.directive? = placed.map fun item => (item.1, item.2.directive)
  complete : (placed.map Prod.snd).Perm (written.filter fun item => !item.isInlined)
  ordered : (placed.map Prod.snd).Pairwise Written.Before
  spans : ∀ item ∈ placed, ∃ top ∈ written, top.around = [] ∧ top.span.start = item.2.root ∧
    item.1 = top.span

/-- The directives of a document that is read are nested and placed. -/
theorem exists_arrangement_of_ofSource {document : String} {context : Context}
    {registry : Registry} {source : Text} {extraction : Extraction} {parsed : ParsedDocument}
    (extracted : Extraction.ofSource source = .ok extraction)
    (read : ofSource document context source registry = .ok parsed) :
    Nested (Text.width extraction.scrubbed) []
        (Reader.written ⟨document, context, registry, extraction⟩ .initial
          (Lexeme.tokenize extraction.scrubbed)) ∧
      ∃ placed, Arrangement parsed.segments
        (Reader.written ⟨document, context, registry, extraction⟩ .initial
          (Lexeme.tokenize extraction.scrubbed)) placed := by
  obtain ⟨reader, walk, outside, hsegments⟩ := exists_walk_of_ofSource extracted read
  have adjoin := Lexeme.adjoin_tokenize extraction.scrubbed
  have nested := walk.nested adjoin
  obtain ⟨placed, waiting, arranged⟩ := walk.arranged adjoin
  have starts := Reader.starts_of_outside outside
  have hwaiting : waiting = [] := by
    rw [List.eq_nil_iff_forall_not_mem]
    intro item hitem
    obtain ⟨_, hroot⟩ := arranged.rooted item hitem
    rw [starts] at hroot
    exact nomatch hroot
  subst hwaiting
  constructor
  · rw [starts, Lexeme.join_tokenize] at nested
    exact nested
  · refine ⟨placed, ?_, ?_, arranged.ordered, arranged.spans⟩
    · rw [hsegments, List.reverse_append, List.filterMap_append,
        Segment.filterMap_directive?_ofProse, List.append_nil]
      exact arranged.segments
    · have hcomplete := arranged.complete
      rwa [List.append_nil] at hcomplete

/-- How the segments of a document are ordered. Its segments are made of the directives that are written
in it, apart from notes inside other directives. Where one directive stands in another, it comes after
that one exactly when the other is an outermost one; in a directive that is nested itself, it comes
before it. Directives that stand in the same directives come in the order in which they are written. -/
theorem ofSource_nests_iff {document : String} {context : Context} {registry : Registry}
    {source : Text} {extraction : Extraction} {parsed : ParsedDocument}
    (extracted : Extraction.ofSource source = .ok extraction)
    (read : ofSource document context source registry = .ok parsed) {written : List Written}
    (closed : Reader.written ⟨document, context, registry, extraction⟩ .initial
      (Lexeme.tokenize extraction.scrubbed) = written) :
    (∀ item ∈ written, item.around ≠ [] ↔ ∃ outer ∈ written, outer.Encloses item) ∧
    ∃ placed : List Written,
      (parsed.segments.filterMap Segment.directive?).map Prod.snd = placed.map Written.directive ∧
      placed.Perm (written.filter fun item => !item.isInlined) ∧
      (∀ outer ∈ placed, ∀ inner ∈ placed, outer.Encloses inner →
        ([outer, inner].Sublist placed ↔ outer.around = []) ∧
        ([inner, outer].Sublist placed ↔ outer.around ≠ [])) ∧
      ∀ first ∈ placed, ∀ second ∈ placed,
        (∀ outer ∈ written, outer.Encloses first ↔ outer.Encloses second) →
        first.span.start < second.span.start → [first, second].Sublist placed := by
  subst closed
  obtain ⟨nested, placed, arrangement⟩ := exists_arrangement_of_ofSource extracted read
  have hwritten : ∀ item ∈ placed.map Prod.snd, item ∈ Reader.written _ _ _ := fun item hitem =>
    List.mem_of_mem_filter (arrangement.complete.mem_iff.mp hitem)
  refine ⟨fun item => nested.around_ne_nil_iff, placed.map Prod.snd, ?_, arrangement.complete,
    ?_, ?_⟩
  · rw [arrangement.segments, List.map_map, List.map_map]
    rfl
  · intro outer houter inner hinner encloses
    rw [Written.sublist_iff_before arrangement.ordered houter hinner,
      Written.sublist_iff_before arrangement.ordered hinner houter]
    exact nested.before_iff_of_encloses (hwritten outer houter) (hwritten inner hinner) encloses
  · intro first hfirst second hsecond siblings hstart
    rw [Written.sublist_iff_before arrangement.ordered hfirst hsecond]
    exact nested.before_of_siblings (hwritten first hfirst) (hwritten second hsecond) siblings hstart

/-- A task in a task in a task. -/
def nestedTasks : Text := "#textTask[a #textTask[b #textTask[c]]]".toList

/-- The task with an instruction and nothing else. -/
def plainTask (instruction : Text) : Directive := .task (.text instruction none none)

/-- How the nested tasks are written, in the order of their closing brackets. -/
def nestedTasksWritten : List Written :=
  [⟨⟨24, 36⟩, [12, 0], plainTask ['c']⟩, ⟨⟨12, 37⟩, [0], plainTask ['b']⟩,
    ⟨⟨0, 38⟩, [], plainTask ['a']⟩]

/-- How the nested tasks are read: the outermost comes first, and the others from the inside to the
outside. -/
theorem ofSource_nestedTasks :
    Extraction.ofSource nestedTasks = .ok ⟨.pair 0xE000, nestedTasks.map .letter⟩ ∧
      ofSource "d" .page nestedTasks .standard =
        .ok ⟨"d", .page, ⟨.pair 0xE000, nestedTasks.map .letter⟩,
          [plainTask ['a'], plainTask ['c'], plainTask ['b']].map (.directive ⟨0, 38⟩)⟩ ∧
      Reader.written ⟨"d", .page, .standard, ⟨.pair 0xE000, nestedTasks.map .letter⟩⟩ .initial
        (Lexeme.tokenize (Extraction.scrubbed ⟨.pair 0xE000, nestedTasks.map .letter⟩)) =
          nestedTasksWritten := by
  have extracted : Extraction.ofSource nestedTasks =
      .ok ⟨.pair 0xE000, nestedTasks.map .letter⟩ :=
    Extraction.ofSource_of_isDelimiter (by decide) (by decide) (by decide)
  refine ⟨extracted, ?_, ?_⟩
  · rw [ofSource_of_extraction extracted]
    cbv
  · cbv

/-- Of the tasks that stand in the outermost one, the middle one comes after it but the innermost comes
before the middle one. -/
theorem ofSource_nests_iff_tasks :
    ∃ parsed placed, ofSource "d" .page nestedTasks .standard = .ok parsed ∧
      (parsed.segments.filterMap Segment.directive?).map Prod.snd = placed.map Written.directive ∧
      [⟨⟨0, 38⟩, [], plainTask ['a']⟩, ⟨⟨12, 37⟩, [0], plainTask ['b']⟩].Sublist placed ∧
      [⟨⟨24, 36⟩, [12, 0], plainTask ['c']⟩, ⟨⟨12, 37⟩, [0], plainTask ['b']⟩].Sublist placed := by
  obtain ⟨extracted, read, closed⟩ := ofSource_nestedTasks
  obtain ⟨_, placed, hdirectives, hplaced, hnests, _⟩ := ofSource_nests_iff extracted read closed
  have hmem : ∀ item ∈ nestedTasksWritten, item ∈ placed := fun item hitem =>
    hplaced.mem_iff.mpr (List.mem_filter.mpr ⟨hitem, by revert item; decide⟩)
  refine ⟨_, placed, read, hdirectives, ?_, ?_⟩
  · exact (hnests _ (hmem _ (by decide)) _ (hmem _ (by decide)) ⟨by decide, by decide⟩).1.mpr rfl
  · exact (hnests _ (hmem _ (by decide)) _ (hmem _ (by decide)) ⟨by decide, by decide⟩).2.mpr
      (List.cons_ne_nil 0 [])

/-- A directive that stands in another does not always come after it. -/
theorem ofSource_reverses_nested :
    ¬∀ (document : String) (context : Context) (registry : Registry) (source : Text)
      (extraction : Extraction) (parsed : ParsedDocument),
      Extraction.ofSource source = .ok extraction →
      ofSource document context source registry = .ok parsed →
      ∃ placed : List Written,
        (parsed.segments.filterMap Segment.directive?).map Prod.snd =
          placed.map Written.directive ∧
        placed.Perm ((Reader.written ⟨document, context, registry, extraction⟩ .initial
          (Lexeme.tokenize extraction.scrubbed)).filter fun item => !item.isInlined) ∧
        ∀ outer ∈ placed, ∀ inner ∈ placed, outer.Encloses inner →
          [outer, inner].Sublist placed := by
  intro follows
  obtain ⟨extracted, read, closed⟩ := ofSource_nestedTasks
  obtain ⟨placed, hdirectives, hplaced, hfollows⟩ := follows _ _ _ _ _ _ extracted read
  rw [closed] at hplaced
  have hmem : ∀ item ∈ nestedTasksWritten, item ∈ placed := fun item hitem =>
    hplaced.mem_iff.mpr (List.mem_filter.mpr ⟨hitem, by revert item; decide⟩)
  have hsublist := (hfollows ⟨⟨12, 37⟩, [0], plainTask ['b']⟩ (hmem _ (by decide))
    ⟨⟨24, 36⟩, [12, 0], plainTask ['c']⟩ (hmem _ (by decide)) ⟨by decide, by decide⟩).map
      Written.directive
  rw [← hdirectives] at hsublist
  exact absurd hsublist (by decide)

end ParsedDocument
end Courseware
