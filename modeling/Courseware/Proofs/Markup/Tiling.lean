import Courseware.Proofs.Markup.Nesting

/-!
# Segments tile a document

Every character of the scrubbed text belongs to the prose between the outermost directives or to one of
these. The segments go through it from its start to its end, and the directives that were nested in an
outermost one share its span. Every lexeme that opens a directive has a segment of its own, unless it
opens a note inside another directive.

`Reader.Laid` is the invariant for places: it says how the lexemes that have been read are divided among
the segments, the prose that is being gathered and the open directives. `Reader.Walk.openings_perm` is
the one for numbers: what has been opened is what has been written and what is still open.
-/

namespace Courseware

namespace Span

/-- Spans that follow one another from one offset to another, without gap or overlap, none of them
empty. -/
def Tile (start : Nat) : List Span → Nat → Prop
  | [], stop => start = stop
  | span :: rest, stop => span.start = start ∧ span.start < span.stop ∧ Tile span.stop rest stop

variable {start middle stop : Nat} {spans more : List Span}

theorem tile_singleton {span : Span} :
    Tile start [span] stop ↔ span.start = start ∧ span.start < span.stop ∧ span.stop = stop :=
  Iff.rfl

theorem Tile.append (first : Tile start spans middle) (second : Tile middle more stop) :
    Tile start (spans ++ more) stop := by
  induction spans generalizing start with
  | nil =>
    obtain rfl := first
    exact second
  | cons span rest ih =>
    obtain ⟨hstart, hlt, hrest⟩ := first
    exact ⟨hstart, hlt, ih hrest⟩

theorem Tile.le (tile : Tile start spans stop) : start ≤ stop := by
  induction spans generalizing start with
  | nil => exact Nat.le_of_eq tile
  | cons span rest ih =>
    obtain ⟨rfl, hlt, hrest⟩ := tile
    exact (Nat.le_of_lt hlt).trans (ih hrest)

/-- The spans lie between the two offsets. -/
theorem Tile.mem (tile : Tile start spans stop) {span : Span} (h : span ∈ spans) :
    start ≤ span.start ∧ span.start < span.stop ∧ span.stop ≤ stop := by
  induction spans generalizing start with
  | nil => exact absurd h List.not_mem_nil
  | cons first rest ih =>
    obtain ⟨rfl, hlt, hrest⟩ := tile
    rcases List.mem_cons.mp h with rfl | hmem
    · exact ⟨Nat.le_refl _, hlt, hrest.le⟩
    · obtain ⟨hstart, hspan, hstop⟩ := ih hrest hmem
      exact ⟨by omega, hspan, hstop⟩

end Span

namespace Segment

/-- The part of the scrubbed text that a segment belongs to. -/
def span : Segment → Span
  | prose start text => ⟨start, start + Text.width text⟩
  | directive span _ => span

/-- Whether a segment and the first of those behind it are directives of one span. -/
def sharesSpan : Segment → List Segment → Bool
  | directive span _, directive next _ :: _ => span == next
  | _, _ => false

/-- The spans of segments in their order, where directives that follow one another and have one span count
once. Prose always counts. -/
def spans : List Segment → List Span
  | [] => []
  | segment :: rest => if segment.sharesSpan rest then spans rest else segment.span :: spans rest

variable {segment : Segment} {segments more : List Segment} {start middle stop : Nat}

theorem spans_singleton (segment : Segment) : spans [segment] = [segment.span] := by
  cases segment <;> rfl

/-- The spans begin with that of the first segment. -/
theorem exists_spans_cons (segment : Segment) (rest : List Segment) :
    ∃ others, spans (segment :: rest) = segment.span :: others := by
  induction rest generalizing segment with
  | nil => exact ⟨_, spans_singleton segment⟩
  | cons next rest ih =>
    rw [spans]
    split
    · next shared =>
      cases segment with
      | prose => cases shared
      | directive span _ =>
        cases next with
        | prose => cases shared
        | directive other _ =>
          obtain rfl : span = other := beq_iff_eq.mp shared
          exact ih _
    · exact ⟨_, rfl⟩

/-- The span of each segment counts. -/
theorem mem_spans (h : segment ∈ segments) : segment.span ∈ spans segments := by
  induction segments with
  | nil => cases h
  | cons first rest ih =>
    rcases List.mem_cons.mp h with rfl | hrest
    · obtain ⟨others, hspans⟩ := exists_spans_cons segment rest
      rw [hspans]
      exact List.mem_cons_self
    · rw [spans]
      split
      · exact ih hrest
      · exact List.mem_cons_of_mem _ (ih hrest)

/-- Directives of one span count once. -/
theorem spans_map_directive (span : Span) (first : Directive) (others : List Directive) :
    spans ((first :: others).map (directive span)) = [span] := by
  induction others generalizing first with
  | nil => rfl
  | cons second others ih =>
    rw [List.map_cons, spans, if_pos]
    · exact ih second
    · exact beq_iff_eq.mpr rfl

/-- Segments that tile one part after the other share no span. -/
theorem sharesSpan_eq_false (first : Span.Tile start (spans [segment]) middle)
    (second : Span.Tile middle (spans more) stop) : segment.sharesSpan more = false := by
  cases segment with
  | prose => rfl
  | directive span _ =>
    cases more with
    | nil => rfl
    | cons next rest =>
      cases next with
      | prose => rfl
      | directive other _ =>
        obtain ⟨others, hspans⟩ := exists_spans_cons (directive other _) rest
        rw [hspans] at second
        obtain ⟨hstart, hlt, hstop⟩ := Span.tile_singleton.mp first
        obtain ⟨hnext, _, _⟩ := second
        rw [sharesSpan, beq_eq_false_iff_ne]
        rintro rfl
        exact absurd (hnext.trans hstop.symm) (Nat.ne_of_lt hlt)

/-- Segments tile one part after the other. -/
theorem tile_append (first : Span.Tile start (spans segments) middle)
    (second : Span.Tile middle (spans more) stop) : Span.Tile start (spans (segments ++ more)) stop := by
  induction segments generalizing start with
  | nil =>
    obtain rfl := first
    exact second
  | cons segment rest ih =>
    cases rest with
    | nil =>
      rw [List.singleton_append, spans, sharesSpan_eq_false first second, ← List.singleton_append]
      rw [spans_singleton] at first
      exact first.append second
    | cons next rest =>
      have hshares : segment.sharesSpan (next :: rest ++ more) = segment.sharesSpan (next :: rest) := by
        cases segment <;> cases next <;> rfl
      rw [List.cons_append, spans, hshares]
      rw [spans] at first
      split
      · next shared =>
        rw [if_pos shared] at first
        exact ih first
      · next apart =>
        rw [if_neg apart] at first
        obtain ⟨hstart, hlt, hrest⟩ := first
        exact ⟨hstart, hlt, ih hrest⟩

end Segment

/-- What a lexeme is in prose. -/
def Lexeme.fragment (lexeme : Lexeme) : Fragment := .source lexeme.start lexeme.text

/-- Prose that is gathered from lexemes is one segment with their text. -/
theorem Segment.ofProse_map_fragment (first : Lexeme) (rest : List Lexeme) :
    Segment.ofProse ((first :: rest).map Lexeme.fragment).reverse =
      [.prose first.start (Lexeme.join (first :: rest))] := by
  have hfragments : ((first :: rest).map Lexeme.fragment).reverse ≠ [] := by simp
  have hlast : ((first :: rest).map Lexeme.fragment).reverse.getLast? = some first.fragment := by
    simp
  have hjoin : Fragment.join ((first :: rest).map Lexeme.fragment).reverse =
      Lexeme.join (first :: rest) := by
    rw [Fragment.join, List.reverse_reverse, List.flatMap_map]
    rfl
  unfold Segment.ofProse
  split
  · next h => exact absurd h hfragments
  · rw [hlast, hjoin]
    rfl

/-- A part of the lexemes of a text that are next to one another and name nothing, by the offset at
which it starts and its text. -/
def Lexeme.IsRun (lexemes : List Lexeme) (start : Nat) (text : Text) : Prop :=
  ∃ before run after, lexemes = before ++ (run ++ after) ∧
    (∀ lexeme ∈ run, lexeme.token.names? = none) ∧ start = Text.width (join before) ∧
    text = join run

namespace Reader

variable {scope : ReaderScope} {reader next : Reader} {lexeme : Lexeme} {lexemes : List Lexeme}

/-- How the lexemes that have been read are divided: the segments cover the `settled` ones, the prose
that is being gathered consists of those in `run`, and the others belong to open directives. -/
structure Laid (done : List Lexeme) (reader : Reader) (settled run open_ : List Lexeme) : Prop where
  split : done = settled ++ (run ++ open_)
  unnamed : ∀ lexeme ∈ run, lexeme.token.names? = none
  prose : reader.prose = (run.map Lexeme.fragment).reverse
  outside : reader.frames = [] → open_ = []
  edge : ∀ start ∈ reader.starts.getLast?, start = Text.width (Lexeme.join (settled ++ run))
  tile : Span.Tile 0 (Segment.spans reader.segments.reverse) (Text.width (Lexeme.join settled))
  runs : ∀ start text, Segment.prose start text ∈ reader.segments → Lexeme.IsRun done start text

namespace Laid

variable {done settled run open_ : List Lexeme}

/-- The segment of the prose that is being gathered. -/
theorem tile_ofProse (laid : Laid done reader settled run open_) (adjoin : Lexeme.Adjoin 0 done) :
    Span.Tile (Text.width (Lexeme.join settled))
        (Segment.spans (Segment.ofProse reader.prose).reverse)
        (Text.width (Lexeme.join (settled ++ run))) ∧
      ∀ start text, Segment.prose start text ∈ Segment.ofProse reader.prose →
        Lexeme.IsRun done start text := by
  have hsplit := laid.split
  have hunnamed := laid.unnamed
  rw [laid.prose]
  cases run with
  | nil =>
    constructor
    · show Text.width (Lexeme.join settled) = Text.width (Lexeme.join (settled ++ []))
      rw [List.append_nil]
    · exact fun start text h => absurd h List.not_mem_nil
  | cons first rest =>
    have hfirst : Lexeme.Adjoin 0 (settled ++ [first]) := by
      rw [hsplit, List.cons_append, List.append_cons] at adjoin
      exact (Lexeme.adjoin_append_iff.mp adjoin).1
    obtain ⟨_, hstart, hstop, hlt⟩ := hfirst.spec
    rw [Segment.ofProse_map_fragment]
    constructor
    · refine Span.tile_singleton.mpr ⟨hstart, ?_, ?_⟩
      · simp only [Segment.span, Lexeme.join_cons, Text.width_append]
        rw [Lexeme.stop] at hlt
        omega
      · simp only [Segment.span, Lexeme.join_append, Text.width_append, hstart]
    · intro start text h
      obtain ⟨rfl, rfl⟩ := Segment.prose.inj (List.mem_singleton.mp h)
      exact ⟨settled, first :: rest, open_, hsplit, hunnamed, hstart, rfl⟩

theorem runs_append (laid : Laid done reader settled run open_) (more : List Lexeme) :
    ∀ start text, Segment.prose start text ∈ reader.segments →
      Lexeme.IsRun (done ++ more) start text := by
  intro start text h
  obtain ⟨before, part, after, rfl, hpart⟩ := laid.runs start text h
  refine ⟨before, part, after ++ more, ?_, hpart⟩
  rw [List.append_assoc, List.append_assoc]

/-- Outside all directives, a lexeme belongs to the prose. -/
theorem gathers (laid : Laid done reader settled run open_) (outside : reader.frames = [])
    (unnamed : lexeme.token.names? = none) :
    Laid (done ++ [lexeme]) { reader with prose := lexeme.fragment :: reader.prose } settled
      (run ++ [lexeme]) [] where
  split := by
    rw [laid.split, laid.outside outside, List.append_nil, List.append_nil, List.append_assoc]
  unnamed := by
    rw [List.forall_mem_append, List.forall_mem_singleton]
    exact ⟨laid.unnamed, unnamed⟩
  prose := by
    rw [laid.prose, List.map_append, List.reverse_append]
    rfl
  outside := fun _ => rfl
  edge := by
    show ∀ start ∈ reader.starts.getLast?, _
    rw [starts_of_outside outside]
    exact nofun
  tile := laid.tile
  runs := laid.runs_append [lexeme]

/-- A lexeme belongs to the open directives, also when it opens the first of them. -/
theorem goes (laid : Laid done reader settled run open_)
    (segments : next.segments = reader.segments) (prose : next.prose = reader.prose)
    (inside : next.frames ≠ [])
    (edge : ∀ start ∈ next.starts.getLast?, start = Text.width (Lexeme.join (settled ++ run))) :
    Laid (done ++ [lexeme]) next settled run (open_ ++ [lexeme]) where
  split := by rw [laid.split, List.append_assoc, List.append_assoc]
  unnamed := laid.unnamed
  prose := by rw [prose, laid.prose]
  outside := fun h => absurd h inside
  edge := edge
  tile := by rw [segments]; exact laid.tile
  runs := by rw [segments]; exact laid.runs_append [lexeme]

/-- An outermost directive is closed: it is a segment from where the prose before it ends, and those that
were waiting have its span. -/
theorem places (laid : Laid done reader settled run open_)
    (adjoin : Lexeme.Adjoin 0 (done ++ [lexeme])) {frame : OpenDirective}
    (inside : reader.frames = [frame]) (directive : Directive) :
    Laid (done ++ [lexeme]) (reader.place ⟨frame.start, lexeme.stop⟩ directive [])
      (done ++ [lexeme]) [] [] := by
  obtain ⟨hbefore, hstart, hstop, hlt⟩ := adjoin.spec
  obtain ⟨htile, hruns⟩ := laid.tile_ofProse hbefore
  have hedge : frame.start = Text.width (Lexeme.join (settled ++ run)) := by
    apply laid.edge
    rw [starts_of_inside inside]
    rfl
  have hopen : frame.start < lexeme.stop := by
    rw [laid.split, ← List.append_assoc, Lexeme.join_append, Text.width_append] at hstart
    omega
  constructor
  case split => rw [List.nil_append, List.append_nil]
  case unnamed => exact fun lexeme h => absurd h List.not_mem_nil
  case prose => rfl
  case outside => exact fun _ => rfl
  case edge =>
    rw [starts_place]
    exact nofun
  case tile =>
    rw [reverse_segments_place]
    apply Segment.tile_append (Segment.tile_append laid.tile htile)
    rw [Segment.spans_map_directive]
    exact Span.tile_singleton.mpr ⟨hedge, hopen, hstop⟩
  case runs =>
    intro start text h
    rw [← List.mem_reverse, reverse_segments_place, List.mem_append, List.mem_append] at h
    rcases h with (hsegment | hprose) | hdirective
    · exact laid.runs_append [lexeme] start text (List.mem_reverse.mp hsegment)
    · obtain ⟨before, part, after, rfl, hpart⟩ := hruns start text (List.mem_reverse.mp hprose)
      exact ⟨before, part, after ++ [lexeme], by rw [List.append_assoc, List.append_assoc], hpart⟩
    · obtain ⟨_, _, heq⟩ := List.mem_map.mp hdirective
      exact nomatch heq

end Laid

/-- Reading keeps the segments laid out. -/
theorem Walk.laid (walk : Walk scope .initial lexemes next) (adjoin : Lexeme.Adjoin 0 lexemes) :
    ∃ settled run open_, Laid lexemes next settled run open_ := by
  refine walk.invariant_of_adjoin (fun done reader => ∃ settled run open_,
    Laid done reader settled run open_) adjoin ?_ ?_
  · refine ⟨[], [], [], ?_⟩
    constructor
    case split => rfl
    case unnamed => exact fun lexeme h => absurd h List.not_mem_nil
    case prose => rfl
    case outside => exact fun _ => rfl
    case edge => exact fun start h => absurd h (Option.not_mem_none start)
    case tile => rfl
    case runs => exact fun start text h => absurd h List.not_mem_nil
  · rintro before middle lexeme after hadjoin hwalk ⟨settled, run, open_, laid⟩ step
    obtain ⟨hbefore, hstart, hstop, hlt⟩ := hadjoin.spec
    cases step.effect with
    | prose outside unnamed => exact ⟨_, _, _, laid.gathers outside unnamed⟩
    | opens named registered allowed =>
      refine ⟨_, _, _, laid.goes rfl rfl (List.cons_ne_nil _ _) ?_⟩
      show ∀ start ∈ (lexeme.start :: middle.starts).getLast?, _
      cases hframes : middle.frames with
      | nil =>
        rw [starts_of_outside hframes]
        rintro start ⟨⟩
        rw [hstart, laid.split, laid.outside hframes, List.append_nil]
        rfl
      | cons frame outer =>
        rw [starts_of_inside hframes, List.getLast?_cons_cons, ← starts_of_inside hframes]
        exact laid.edge
    | rests inside same slot open_ =>
      refine ⟨_, _, _, laid.goes rfl rfl ?_ ?_⟩
      · rintro rfl
        rw [sites, inside] at same
        cases same
      · rw [starts, sites, same]
        exact laid.edge
    | @closes frame outer directive inside closing closed built =>
      cases outer with
      | nil => exact ⟨_, _, _, laid.places hadjoin inside directive⟩
      | cons parent outer =>
        obtain ⟨hsegments, hprose, hframes⟩ :=
          place_inner middle ⟨frame.start, lexeme.stop⟩ directive parent outer
        refine ⟨_, _, _, laid.goes hsegments hprose hframes ?_⟩
        rw [starts_place, List.map_cons, ← List.getLast?_cons_cons, ← List.map_cons,
          ← starts_of_inside inside]
        exact laid.edge

end Reader

/-! ## What is opened -/

/-- Where a lexeme opens a directive, and its kind, if it opens one that the registry has. -/
def Lexeme.opening? (registry : Registry) (lexeme : Lexeme) : Option (Nat × DirectiveKind) :=
  if lexeme.token = .blockOpen then
    (registry.get? lexeme.name).map fun descriptor => (lexeme.start, descriptor.kind)
  else
    none

/-- Where a directive was opened that has been written, and its kind. -/
def Written.opening (written : Written) : Nat × DirectiveKind :=
  (written.span.start, written.directive.kind)

namespace Reader

variable {scope : ReaderScope} {reader next : Reader} {lexeme : Lexeme} {lexemes : List Lexeme}

theorem opening?_of_unnamed {registry : Registry} (unnamed : lexeme.token.names? = none) :
    lexeme.opening? registry = none := by
  rw [Lexeme.opening?, if_neg]
  intro h
  rw [h] at unnamed
  exact nomatch unnamed

theorem opening?_of_get?_eq_none {registry : Registry} (h : registry.get? lexeme.name = none) :
    lexeme.opening? registry = none := by
  rw [Lexeme.opening?, h, Option.map_none, ite_self]

theorem opening?_of_get? {registry : Registry} {descriptor : Descriptor}
    (named : lexeme.token.names? = some .bracket)
    (registered : registry.get? lexeme.name = some descriptor) :
    lexeme.opening? registry = some (lexeme.start, descriptor.kind) := by
  have htoken : lexeme.token = .blockOpen := by
    cases h : lexeme.token <;> rw [h] at named <;> first | rfl | exact nomatch named
  rw [Lexeme.opening?, if_pos htoken, registered, Option.map_some]

/-- A slot of an open directive opens no directive. -/
theorem opening?_of_hasSlot {registered : List Descriptor} {registry : Registry}
    (built : Registry.ofDescriptors registered = .ok registry) {descriptor : Descriptor}
    (known : descriptor ∈ registry.descriptors) (slot : descriptor.hasSlot lexeme.name = true) :
    lexeme.opening? registry = none := by
  apply opening?_of_get?_eq_none
  cases hfound : registry.get? lexeme.name with
  | none => rfl
  | some found =>
    exact Bool.noConfusion (slot.symm.trans (Registry.hasSlot_eq_false_of_get? built known hfound))

/-- Where the open directives were opened, and their kinds. -/
def openings (reader : Reader) : List (Nat × DirectiveKind) :=
  reader.sites.map fun site => (site.2, site.1.kind)

/-- Open directives are described in the registry. -/
theorem Walk.registered (walk : Walk scope .initial lexemes next) :
    ∀ site ∈ next.sites, site.1 ∈ scope.registry.descriptors := by
  refine walk.invariant (fun _ reader => ∀ site ∈ reader.sites,
    site.1 ∈ scope.registry.descriptors) (fun site h => absurd h List.not_mem_nil) ?_
  intro before middle lexeme after _ ih step
  cases step.effect with
  | prose outside unnamed => exact ih
  | opens named registered allowed =>
    intro site hsite
    rcases List.mem_cons.mp hsite with rfl | hrest
    · exact (Registry.spec_of_get? registered).1
    · exact ih site hrest
  | rests inside same slot open_ =>
    intro site hsite
    apply ih
    rw [← same]
    exact hsite
  | closes inside closing closed built =>
    intro site hsite
    rw [sites_place] at hsite
    apply ih
    rw [sites, inside]
    exact List.mem_cons_of_mem _ hsite

/-- What has been opened has been written or is still open. -/
theorem Walk.openings_perm {registered : List Descriptor}
    (built : Registry.ofDescriptors registered = .ok scope.registry)
    (walk : Walk scope .initial lexemes next) :
    (lexemes.filterMap (Lexeme.opening? scope.registry)).Perm
      ((written scope .initial lexemes).map Written.opening ++ next.openings) := by
  refine walk.invariant (fun done reader => (done.filterMap (Lexeme.opening? scope.registry)).Perm
    ((written scope .initial done).map Written.opening ++ reader.openings)) (.refl _) ?_
  intro before middle lexeme after hwalk ih step
  rw [hwalk.written_concat step, List.filterMap_append, List.map_append]
  cases step.effect with
  | prose outside unnamed =>
    rw [written?_of_outside outside,
      List.filterMap_cons_none (opening?_of_unnamed unnamed), List.filterMap_nil, List.append_nil,
      Option.toList_none, List.map_nil, List.append_nil]
    exact ih
  | @opens descriptor named registered allowed =>
    rw [written?_of_names? named,
      List.filterMap_cons_some (opening?_of_get? named registered), List.filterMap_nil,
      Option.toList_none, List.map_nil, List.append_nil]
    refine (ih.append_right _).trans ?_
    rw [List.append_assoc]
    exact (List.perm_append_singleton _ _).append_left _
  | @rests frames frame outer inside same slot open_ =>
    have hopening : lexeme.opening? scope.registry = none := by
      cases hnames : lexeme.token.names? with
      | none => exact opening?_of_unnamed hnames
      | some enclosure =>
        apply opening?_of_hasSlot built (hwalk.registered frame.site ?_) (slot ?_)
        · rw [sites, inside]
          exact List.mem_cons_self
        · rw [hnames]
          exact Option.some_ne_none enclosure
    rw [written?_of_open open_, List.filterMap_cons_none hopening, List.filterMap_nil,
      List.append_nil, Option.toList_none, List.map_nil, List.append_nil, openings, sites, same]
    exact ih
  | @closes frame outer directive inside closing closed built =>
    have hkind : directive.kind = frame.descriptor.kind :=
      (DirectiveNode.spec_of_build (OpenDirective.node_build_of_build built)).1
    have hnone := @opening?_of_unnamed lexeme scope.registry (Token.names?_of_closes? closing)
    rw [written?_of_closed closed built, List.filterMap_cons_none hnone, List.filterMap_nil,
      List.append_nil, List.append_assoc, openings, sites_place]
    rw [openings, sites, inside] at ih
    rw [Option.toList_some, List.map_singleton, Written.opening, hkind]
    exact ih

end Reader

/-! ## Documents -/

/-- Whether an offset lies inside a span, after its start. -/
def Span.holds (offset : Nat) (span : Span) : Bool := span.start < offset && offset < span.stop

/-- Whether something is opened that is a note inside a directive of some segments. -/
def opensInlined (segments : List Segment) (opening : Nat × DirectiveKind) : Bool :=
  opening.2 == .note &&
    (segments.filterMap Segment.directive?).any fun place => place.1.holds opening.1

/-- A run of lexemes is a part of the text, and no lexeme that names something overlaps it. -/
theorem Lexeme.IsRun.spec {text part : Text} {start : Nat}
    (run : Lexeme.IsRun (Lexeme.tokenize text) start part) :
    (∃ before after, text = before ++ (part ++ after) ∧ start = Text.width before) ∧
      ∀ lexeme ∈ Lexeme.tokenize text, lexeme.token.names? ≠ none →
        lexeme.stop ≤ start ∨ start + Text.width part ≤ lexeme.start := by
  obtain ⟨before, lexemes, after, hsplit, hunnamed, rfl, rfl⟩ := run
  have adjoin := Lexeme.adjoin_tokenize text
  have hjoin := Lexeme.join_tokenize text
  rw [hsplit] at adjoin hjoin
  constructor
  · refine ⟨Lexeme.join before, Lexeme.join after, ?_, rfl⟩
    rw [← hjoin, Lexeme.join_append, Lexeme.join_append]
  · intro lexeme hmem hnamed
    rw [hsplit] at hmem
    rcases List.mem_append.mp hmem with hbefore | hmem
    · left
      obtain ⟨first, rest, rfl⟩ := List.append_of_mem hbefore
      rw [List.append_assoc, List.cons_append, List.append_cons] at adjoin
      obtain ⟨_, _, hstop, _⟩ := (Lexeme.adjoin_append_iff.mp adjoin).1.spec
      rw [hstop]
      simp only [Lexeme.join_append, Lexeme.join_cons, Lexeme.join_nil, List.append_nil,
        Text.width_append]
      omega
    · rcases List.mem_append.mp hmem with hrun | hafter
      · exact absurd (hunnamed lexeme hrun) hnamed
      · right
        obtain ⟨first, rest, rfl⟩ := List.append_of_mem hafter
        rw [← List.append_assoc, ← List.append_assoc, List.append_cons] at adjoin
        obtain ⟨_, hstart, _, _⟩ := (Lexeme.adjoin_append_iff.mp adjoin).1.spec
        rw [hstart, Lexeme.join_append, Lexeme.join_append, Text.width_append, Text.width_append]
        exact Nat.le_add_right _ _

namespace ParsedDocument

variable {segments : List Segment} {written : List Written} {placed : List (Span × Written)}
  {position : Nat}

namespace Arrangement

theorem mem_written (arrangement : Arrangement segments written placed) {item : Span × Written}
    (h : item ∈ placed) : item.2 ∈ written :=
  List.mem_of_mem_filter (arrangement.complete.mem_iff.mp (List.mem_map_of_mem h))

/-- The span of a segment is that of an outermost directive, which the segment is made of or which its
directive stands in. -/
theorem exists_top (arrangement : Arrangement segments written placed)
    (nested : Nested position [] written) {item : Span × Written} (h : item ∈ placed) :
    ∃ top ∈ written, top.around = [] ∧ item.1 = top.span ∧
      (item.2 = top ∨ top.Encloses item.2) := by
  obtain ⟨top, htop, houtermost, hstart, hspan⟩ := arrangement.spans item h
  have hmem := arrangement.mem_written h
  refine ⟨top, htop, houtermost, hspan, ?_⟩
  by_cases hitem : item.2.around = []
  · left
    rw [Written.root_of_around_nil hitem] at hstart
    obtain ⟨hlt, _⟩ := nested.extent top htop
    obtain ⟨hlt', _⟩ := nested.extent item.2 hmem
    rcases nested.encloses_or_stop_le htop hmem with heq | h | h | h | h
    · exact heq.symm
    · exact absurd h.1 (by omega)
    · exact absurd h.1 (by omega)
    · omega
    · omega
  · right
    rw [← nested.mem_around_iff htop hmem, hstart]
    exact Written.root_mem_around hitem

/-- A directive stands in another exactly when it starts inside the span of a segment. -/
theorem any_holds_iff (arrangement : Arrangement segments written placed)
    (nested : Nested position [] written) {item : Written} (h : item ∈ written) :
    ((segments.filterMap Segment.directive?).any fun place => place.1.holds item.span.start) = true ↔
      item.around ≠ [] := by
  obtain ⟨hlt, _⟩ := nested.extent item h
  rw [arrangement.segments, List.any_map, List.any_eq_true]
  simp only [Function.comp_apply, Span.holds, Bool.and_eq_true, decide_eq_true_eq]
  constructor
  · rintro ⟨place, hplace, hstart, hstop⟩
    obtain ⟨top, htop, houtermost, hspan, _⟩ := arrangement.exists_top nested hplace
    rw [hspan] at hstart hstop
    apply (nested.around_ne_nil_iff h).mpr
    refine ⟨top, htop, ?_⟩
    rcases nested.encloses_or_stop_le htop h with rfl | h | h | h | h
    · omega
    · exact h
    · exact absurd h.1 (by omega)
    · omega
    · omega
  · intro hnested
    obtain ⟨top, htop, houtermost, _, encloses⟩ := nested.exists_top h hnested
    have hplaced : top ∈ placed.map Prod.snd := by
      rw [arrangement.complete.mem_iff, List.mem_filter, Written.isInlined, houtermost]
      exact ⟨htop, rfl⟩
    obtain ⟨place, hplace, rfl⟩ := List.mem_map.mp hplaced
    obtain ⟨other, hother, hotherOutermost, hspan, heq | hinside⟩ :=
      arrangement.exists_top nested hplace
    · refine ⟨place, hplace, ?_⟩
      obtain ⟨hstart, hstop⟩ := encloses
      rw [hspan, ← heq]
      omega
    · exact absurd houtermost ((nested.around_ne_nil_iff htop).mpr ⟨other, hother, hinside⟩)

/-- What is opened has a segment, apart from notes inside directives. -/
theorem countP_add_countP (arrangement : Arrangement segments written placed)
    (nested : Nested position [] written) {openings : List (Nat × DirectiveKind)}
    (opened : openings.Perm (written.map Written.opening)) :
    segments.countP (fun segment => segment.directive?.isSome) +
      openings.countP (opensInlined segments) = openings.length := by
  have hinlined : openings.countP (opensInlined segments) = written.countP Written.isInlined := by
    rw [opened.countP_eq, List.countP_map]
    apply List.countP_congr
    intro item hitem
    have hholds := arrangement.any_holds_iff nested hitem
    rw [Function.comp_apply, opensInlined, Written.opening, Written.isInlined, Bool.and_eq_true,
      Bool.and_eq_true, hholds, Bool.not_eq_true', List.isEmpty_eq_false_iff, and_comm]
  have hsegments : segments.countP (fun segment => segment.directive?.isSome) =
      (written.filter fun item => !item.isInlined).length := by
    rw [← List.length_filterMap_eq_countP, arrangement.segments, List.length_map,
      ← List.length_map Prod.snd, arrangement.complete.length_eq]
  rw [hinlined, hsegments, opened.length_eq, List.length_map, ← List.countP_eq_length_filter,
    Nat.add_comm, List.length_eq_countP_add_countP Written.isInlined]
  simp only [Bool.not_eq_true, Bool.decide_eq_false]

end Arrangement

/-- The segments of a document account for all of it. Their spans, where directives that follow one another
count once if they have one span, and prose always counts, go through the scrubbed text from its start to its
end. Prose is a part of the text that no opening of a block or a slot overlaps. There are as many directives
among the segments as are opened in the text, less the notes that are opened inside another directive; and
each has the span of an outermost directive, which it is itself or stands in. -/
theorem ofSource_tiles {registered : List Descriptor} {registry : Registry}
    (built : Registry.ofDescriptors registered = .ok registry) {document : String}
    {context : Context} {source : Text} {extraction : Extraction} {parsed : ParsedDocument}
    (extracted : Extraction.ofSource source = .ok extraction)
    (read : ofSource document context source registry = .ok parsed) {written : List Written}
    (closed : Reader.written ⟨document, context, registry, extraction⟩ .initial
      (Lexeme.tokenize extraction.scrubbed) = written)
    {openings : List (Nat × DirectiveKind)}
    (opened : (Lexeme.tokenize extraction.scrubbed).filterMap (Lexeme.opening? registry) =
      openings) :
    Span.Tile 0 (Segment.spans parsed.segments) (Text.width extraction.scrubbed) ∧
    (∀ start text, Segment.prose start text ∈ parsed.segments →
      (∃ before after, extraction.scrubbed = before ++ (text ++ after) ∧
        start = Text.width before) ∧
      ∀ lexeme ∈ Lexeme.tokenize extraction.scrubbed, lexeme.token.names? ≠ none →
        lexeme.stop ≤ start ∨ start + Text.width text ≤ lexeme.start) ∧
    parsed.segments.countP (fun segment => segment.directive?.isSome) +
      openings.countP (opensInlined parsed.segments) = openings.length ∧
    ∃ placed : List (Span × Written),
      parsed.segments.filterMap Segment.directive? =
        placed.map (fun item => (item.1, item.2.directive)) ∧
      (placed.map Prod.snd).Perm (written.filter fun item => !item.isInlined) ∧
      ∀ item ∈ placed, ∃ top ∈ written, top.around = [] ∧ item.1 = top.span ∧
        (item.2 = top ∨ top.Encloses item.2) := by
  obtain ⟨nested, placed, arrangement⟩ := exists_arrangement_of_ofSource extracted read
  obtain ⟨reader, walk, outside, hsegments⟩ := exists_walk_of_ofSource extracted read
  have adjoin := Lexeme.adjoin_tokenize extraction.scrubbed
  obtain ⟨settled, run, open_, laid⟩ := walk.laid adjoin
  obtain ⟨htile, hruns⟩ := laid.tile_ofProse adjoin
  have hopened : openings.Perm (written.map Written.opening) := by
    have hperm := walk.openings_perm built
    rw [opened, closed, Reader.openings, Reader.sites, outside, List.map_nil, List.map_nil,
      List.append_nil] at hperm
    exact hperm
  rw [closed] at nested arrangement
  refine ⟨?_, ?_, arrangement.countP_add_countP nested hopened, placed, arrangement.segments,
    arrangement.complete, fun item hitem => arrangement.exists_top nested hitem⟩
  · have hsettled : extraction.scrubbed = Lexeme.join (settled ++ run) := by
      rw [← Lexeme.join_tokenize extraction.scrubbed, laid.split, laid.outside outside,
        List.append_nil]
    rw [hsegments, hsettled, List.reverse_append]
    exact Segment.tile_append laid.tile htile
  · intro start text h
    rw [hsegments, List.mem_reverse, List.mem_append] at h
    rcases h with hprose | hsegment
    · exact (hruns start text hprose).spec
    · exact (laid.runs start text hsegment).spec

/-- A note and a task inside a task, between prose. -/
def mixedTasks : Text := "x #textTask[a #note[b] #textTask[c]] y".toList

/-- The segments of such a document tile it. Three directives are opened, and two of them have segments of
their own. -/
theorem ofSource_tiles_mixed :
    ∃ parsed, ofSource "d" .page mixedTasks .standard = .ok parsed ∧
      Span.Tile 0 (Segment.spans parsed.segments) 38 ∧
      Segment.spans parsed.segments = [⟨0, 2⟩, ⟨2, 36⟩, ⟨36, 38⟩] ∧
      parsed.segments.countP (fun segment => segment.directive?.isSome) + 1 = 3 := by
  have built : Registry.ofDescriptors (DirectiveKind.all.map DirectiveKind.descriptor) =
      .ok .standard := rfl
  have extracted : Extraction.ofSource mixedTasks = .ok ⟨.pair 0xE000, mixedTasks.map .letter⟩ :=
    Extraction.ofSource_of_isDelimiter (by decide) (by decide) (by decide)
  have read : ofSource "d" .page mixedTasks .standard =
      .ok ⟨"d", .page, ⟨.pair 0xE000, mixedTasks.map .letter⟩,
        [.prose 0 "x ".toList, .directive ⟨2, 36⟩ (plainTask "a b".toList),
          .directive ⟨2, 36⟩ (plainTask ['c']), .prose 36 " y".toList]⟩ := by
    rw [ofSource_of_extraction extracted]
    cbv
  have opened : (Lexeme.tokenize (Extraction.scrubbed ⟨.pair 0xE000, mixedTasks.map .letter⟩)).filterMap
      (Lexeme.opening? .standard) = [(2, .textTask), (14, .note), (23, .textTask)] := by
    cbv
  obtain ⟨tile, _, count, _⟩ := ofSource_tiles built extracted read rfl opened
  exact ⟨_, read, tile, by decide, count⟩

end ParsedDocument
end Courseware
