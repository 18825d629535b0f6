import Courseware.Proofs.Markup.Cuts

/-!
# The body of a directive is divided

A directive that is read consists of the lexeme that opens it, its body, and the bracket that closes it. The body
is divided into text, slots and the directives that are nested in it, and so is the inside of each slot, except
that there are no slots in slots. The content of the directive is the text of its body that belongs to none of
these, with what nested notes leave at their places. So nothing of what stands in a slot gets into the content.
The pieces of the content, and those of each slot, are the ones that are found from what has been cut out of the
body by the time the bracket or the slot is closed (`Courseware.Cut.pieces`).

While a document is read, the regions of each open directive can be followed beside it. `Layout.Follows` says
what a layout tells of its directive up to an offset, its edge: for the innermost directive this is the offset up
to which the text has been read, and for any other the one at which the directive inside it starts. Directives
that are nested in slots and those that are nested beside them do not come in one list, so a layout keeps the
regions of the open slot apart until the slot is closed.
-/

namespace Courseware

/-! ## Runs of lexemes -/

namespace Lexeme

variable {done : List Lexeme} {lexeme : Lexeme} {start : Nat} {text : Text}

theorem Adjoin.eq_nil_of_width {lexemes : List Lexeme} (adjoin : Adjoin start lexemes)
    (h : Text.width (join lexemes) = 0) : lexemes = [] := by
  cases lexemes with
  | nil => rfl
  | cons first rest =>
    have hfull := start_lt_stop adjoin.2.1
    rw [stop] at hfull
    rw [join_cons, Text.width_append] at h
    omega

namespace IsRun

theorem mono (run : IsRun done start text) (more : List Lexeme) : IsRun (done ++ more) start text := by
  obtain ⟨before, part, after, rfl, hpart⟩ := run
  exact ⟨before, part, after ++ more, by rw [List.append_assoc, List.append_assoc], hpart⟩

/-- A lexeme that names nothing is a run. -/
theorem single (adjoin : Adjoin 0 (done ++ [lexeme])) (unnamed : lexeme.token.names? = none) :
    IsRun (done ++ [lexeme]) lexeme.start lexeme.text :=
  ⟨done, [lexeme], [], rfl, List.forall_mem_singleton.mpr unnamed, adjoin.spec.2.1,
    (List.append_nil _).symm⟩

/-- A run that stops where a lexeme starts goes on with it. -/
theorem extend (run : IsRun done start text) (adjoin : Adjoin 0 (done ++ [lexeme]))
    (unnamed : lexeme.token.names? = none) (stop : start + Text.width text = lexeme.start) :
    IsRun (done ++ [lexeme]) start (text ++ lexeme.text) := by
  obtain ⟨before, part, after, rfl, hpart, rfl, rfl⟩ := run
  obtain ⟨hdone, hstart, _⟩ := adjoin.spec
  have hafter : after = [] := by
    rw [← List.append_assoc, adjoin_append_iff] at hdone
    apply hdone.2.eq_nil_of_width
    rw [join_append, join_append, Text.width_append, Text.width_append] at hstart
    omega
  refine ⟨before, part ++ [lexeme], [], ?_, ?_, rfl, ?_⟩
  · rw [hafter, List.append_nil, List.append_nil, List.append_assoc]
  · rw [List.forall_mem_append, List.forall_mem_singleton]
    exact ⟨hpart, unnamed⟩
  · rw [join_append, join_cons, join_nil, List.append_nil]

end IsRun
end Lexeme

/-! ## Layouts -/

/-- Whether a directive stands in the directive that starts at an offset, and in no other one inside that. -/
def Written.standsIn (start : Nat) (written : Written) : Bool := written.around.head? == some start

/-- That the reader fills a slot, in the directive that starts at an offset, when it reads a lexeme. -/
def Reader.Fills (scope : ReaderScope) (lexemes : List Lexeme) (start : Nat) (filling : OpenSlot)
    (closing : Lexeme) : Prop :=
  ∃ before after reader frame outer, lexemes = before ++ closing :: after ∧
    Walk scope .initial before reader ∧ reader.frames = frame :: outer ∧ frame.start = start ∧
    frame.slot = some filling ∧ frame.groups = [] ∧ closing.token.closes? = some filling.enclosure

/-- A slot among the regions of a directive has been filled by the reader, and what is inside it is divided. -/
def Region.Sound (scope : ReaderScope) (lexemes : List Lexeme) (start : Nat) : Region → Prop
  | slot opening filling closing inside =>
    opening ∈ lexemes ∧ opening.name = filling.name ∧
      Reader.Fills scope lexemes start filling closing ∧
      Divides filling.content opening.stop closing.start inside ∧
      ∀ region ∈ inside, region.isSlot = false
  | _ => True

/-- The regions of a slot that is open, with the lexeme that has opened it. -/
structure SlotLayout where
  opening : Lexeme
  inside : List Region

/-- The regions of a directive that is open, with the lexeme that has opened it, up to a slot that is open in
it. -/
structure Layout where
  opening : Lexeme
  regions : List Region
  slot : Option SlotLayout

/-- What a layout tells of the open slot of a directive. -/
structure SlotLayout.Follows (done : List Lexeme) (edge : Nat) (layout : SlotLayout) (slot : OpenSlot) :
    Prop where
  opened : layout.opening ∈ done
  name : layout.opening.name = slot.name
  divides : Divides slot.content layout.opening.stop edge layout.inside
  plain : ∀ region ∈ layout.inside, region.isSlot = false

namespace Layout

/-- The offset up to which the regions outside the open slot go. -/
def limit (edge : Nat) (layout : Layout) : Nat :=
  match layout.slot with
  | none => edge
  | some slot => slot.opening.start

/-- All regions of a layout, those inside slots in place of the slots. -/
def parts (layout : Layout) : List Region :=
  Region.parts layout.regions ++ layout.slot.toList.flatMap fun slot => Region.parts slot.inside

/-- What a layout tells of an open directive: how its content comes from the text, which slots are filled, and
which directives have been written in it. -/
structure Follows (scope : ReaderScope) (done : List Lexeme) (written : List Written) (edge : Nat)
    (layout : Layout) (frame : OpenDirective) : Prop where
  opened : layout.opening ∈ done
  starts : layout.opening.start = frame.start
  registered : scope.registry.get? layout.opening.name = some frame.descriptor
  divides : Divides frame.content layout.opening.stop (layout.limit edge) layout.regions
  slot : Option.Rel (SlotLayout.Follows done edge) layout.slot frame.slot
  filled : frame.filled.reverse = layout.regions.filterMap Region.filled?
  sound : ∀ region ∈ layout.regions, region.Sound scope done frame.start
  nested : written.filter (Written.standsIn frame.start) = layout.parts.filterMap Region.nested?
  runs : ∀ first content, Region.text first content ∈ layout.parts → Lexeme.IsRun done first content

end Layout

variable {scope : ReaderScope} {done more : List Lexeme} {written news : List Written} {edge stop start : Nat}
  {lexeme : Lexeme} {layout : Layout} {frame : OpenDirective} {regions : List Region}

namespace Layout

variable {slot : SlotLayout}

theorem limit_of_none (h : layout.slot = none) (edge : Nat) : layout.limit edge = edge := by
  rw [limit, h]

theorem limit_of_some (h : layout.slot = some slot) (edge : Nat) :
    layout.limit edge = slot.opening.start := by
  rw [limit, h]

theorem parts_of_none (h : layout.slot = none) : layout.parts = Region.parts layout.regions := by
  rw [parts, h, Option.toList_none, List.flatMap_nil, List.append_nil]

theorem parts_of_some (h : layout.slot = some slot) :
    layout.parts = Region.parts layout.regions ++ Region.parts slot.inside := by
  rw [parts, h, Option.toList_some, List.flatMap_singleton]

end Layout

theorem Reader.Fills.mono {filling : OpenSlot} {closing : Lexeme}
    (fills : Reader.Fills scope done start filling closing) (more : List Lexeme) :
    Reader.Fills scope (done ++ more) start filling closing := by
  obtain ⟨before, after, reader, frame, outer, rfl, hfills⟩ := fills
  refine ⟨before, after ++ more, reader, frame, outer, ?_, hfills⟩
  rw [List.append_assoc, List.cons_append]

theorem Region.Sound.mono {region : Region} (sound : region.Sound scope done start) (more : List Lexeme) :
    region.Sound scope (done ++ more) start := by
  cases region with
  | slot opening filling closing inside =>
    obtain ⟨hopening, hname, hfills, hinside⟩ := sound
    exact ⟨List.mem_append_left _ hopening, hname, hfills.mono more, hinside⟩
  | _ => trivial

theorem Region.Sound.filled {region : Region} (sound : region.Sound scope done start)
    (adjoin : Lexeme.Adjoin 0 done) : region.Filled := by
  cases region with
  | slot opening filling closing inside =>
    obtain ⟨hopening, _, ⟨before, after, _, _, _, rfl, _⟩, hinside, _⟩ := sound
    have hclosing : closing ∈ before ++ closing :: after := List.mem_append_right _ List.mem_cons_self
    exact ⟨adjoin.start_lt_stop_of_mem hopening, hinside.tile, adjoin.start_lt_stop_of_mem hclosing⟩
  | _ => trivial

/-- The pieces of a slot are found from the cuts in front of the slot and those inside it, which have been
recorded when the slot is closed. -/
theorem Divides.pieces_cuts_slot {content : List Fragment} {first last : Lexeme} {filling : OpenSlot}
    {scrubbed : Text} {earlier later inside : List Region}
    (divides : Divides content start stop (earlier ++ .slot first filling last inside :: later))
    (sound : ∀ region ∈ earlier ++ .slot first filling last inside :: later, region.Sound scope done edge)
    (adjoin : Lexeme.Adjoin 0 done)
    (texts : ∀ start text, Region.text start text ∈ inside →
      Text.slice scrubbed start (start + Text.width text) = text) :
    Cut.pieces scrubbed ⟨first.stop, last.start⟩ ((earlier ++ inside).flatMap Region.cuts) =
      (Fragment.pieces filling.content).reverse := by
  have htile := divides.tile
  rw [List.map_append, List.map_cons, Span.tile_append_cons_iff] at htile
  obtain ⟨hopening, _, _, hinside, hplain⟩ := sound _ (List.mem_append_right _ List.mem_cons_self)
  have hearlier := (Region.spec_of_tile htile.1 fun region hregion =>
    (sound region (List.mem_append_left _ hregion)).filled adjoin).1
  have hfilled : ∀ region ∈ inside, region.Filled := by
    intro region hregion
    cases region with
    | slot => exact absurd (hplain _ hregion) Bool.noConfusion
    | _ => trivial
  refine hinside.pieces_cuts hfilled texts (fun cut hcut => ?_) (.of_eq List.flatMap_append)
  obtain ⟨_, hfull, hstop⟩ := hearlier cut ((Region.perm_flatMap_orderedCuts earlier).mem_iff.mp hcut)
  exact hfull.trans_le (hstop.trans (Nat.le_of_lt (adjoin.start_lt_stop_of_mem hopening)))

theorem SlotLayout.Follows.mono {layout : SlotLayout} {slot : OpenSlot}
    (follows : layout.Follows done edge slot) (more : List Lexeme) :
    layout.Follows (done ++ more) edge slot :=
  ⟨List.mem_append_left _ follows.opened, follows.name, follows.divides, follows.plain⟩

/-! ### Growing regions -/

/-- The innermost enclosure of a directive grows: what is taken up into its content is a region, or belongs to
the last one. The regions grow from an edge to an offset, with a lexeme that has been read, and with them the
directives that have been written. -/
structure Grows (done : List Lexeme) (lexeme : Lexeme) (edge stop : Nat) (news : List Written)
    (take : List Fragment → List Fragment) (grow : List Region → List Region) : Prop where
  divides : ∀ content start regions, Divides content start edge regions →
    Divides (take content) start stop (grow regions)
  slots : ∀ regions, (grow regions).filter Region.isSlot = regions.filter Region.isSlot
  nested : ∀ regions, (Region.parts (grow regions)).filterMap Region.nested? =
    (Region.parts regions).filterMap Region.nested? ++ news
  runs : ∀ content start regions, Divides content start edge regions →
    (∀ first text, Region.text first text ∈ Region.parts regions → Lexeme.IsRun done first text) →
    ∀ first text, Region.text first text ∈ Region.parts (grow regions) →
      Lexeme.IsRun (done ++ [lexeme]) first text

/-- Text grows by a lexeme. -/
theorem grows_addText (adjoin : Lexeme.Adjoin 0 (done ++ [lexeme])) (unnamed : lexeme.token.names? = none) :
    Grows done lexeme lexeme.start lexeme.stop [] (lexeme.fragment :: ·) (Region.addText · lexeme) := by
  constructor
  case divides => exact fun content start regions divides => divides.addText adjoin.spec.2.2.2
  case slots =>
    intro regions
    rcases Region.exists_text_or_textless regions with ⟨before, first, text, rfl⟩ | textless
    · rw [Region.addText_concat_text, List.filter_append, List.filter_append]
      rfl
    · rw [Region.addText_of_textless textless, List.filter_append]
      exact List.append_nil _
  case nested =>
    intro regions
    rcases Region.exists_text_or_textless regions with ⟨before, first, text, rfl⟩ | textless
    · rw [Region.addText_concat_text, Region.parts_append, Region.parts_append, List.filterMap_append,
        List.filterMap_append, List.append_nil]
      rfl
    · rw [Region.addText_of_textless textless, Region.parts_append, List.filterMap_append]
      rfl
  case runs =>
    intro content start regions divides runs first text h
    rcases Region.exists_text_or_textless regions with ⟨before, last, old, rfl⟩ | textless
    · rw [Region.addText_concat_text, Region.parts_append, List.mem_append] at h
      rw [Region.parts_append, forall₂_congr fun _ _ => by rw [List.mem_append]] at runs
      rcases h with hbefore | hlast
      · exact (runs first text (.inl hbefore)).mono _
      · have htile := divides.tile
        rw [List.map_append, List.map_singleton, Span.tile_concat_iff] at htile
        cases List.mem_singleton.mp hlast
        exact (runs first old (.inr (List.mem_singleton_self _))).extend adjoin unnamed htile.2.2
    · rw [Region.addText_of_textless textless, Region.parts_append, List.mem_append] at h
      rcases h with hbefore | hlast
      · exact (runs first text hbefore).mono _
      · cases List.mem_singleton.mp hlast
        exact .single adjoin unnamed

/-- What a directive leaves in the content that it stands in. -/
def Directive.leave (directive : Directive) (content : List Fragment) : List Fragment :=
  match directive with
  | note text => .nested text :: content
  | _ => content

theorem Directive.pieces_leave (item : Written) (content : List Fragment) :
    Fragment.pieces (item.directive.leave content) =
      (Region.nested item).piece?.toList ++ Fragment.pieces content := by
  rw [Region.piece?]
  cases item.directive with
  | note text =>
    rw [leave, left, Fragment.pieces_cons, Fragment.push_nested]
    split <;> rfl
  | _ => rfl

/-- Regions grow by a directive that is nested. -/
theorem grows_nested (lexeme : Lexeme) {item : Written} (full : item.span.start < item.span.stop) :
    Grows done lexeme item.span.start item.span.stop [item] item.directive.leave (· ++ [.nested item]) := by
  constructor
  case divides =>
    intro content start regions divides
    exact Divides.concat (.nested item) divides rfl full (Directive.pieces_leave item content)
  case slots =>
    intro regions
    rw [List.filter_append]
    exact List.append_nil _
  case nested =>
    intro regions
    rw [Region.parts_append, List.filterMap_append]
    rfl
  case runs =>
    intro content start regions divides runs first text h
    rw [Region.parts_append, List.mem_append] at h
    rcases h with hbefore | hlast
    · exact (runs first text hbefore).mono _
    · cases List.mem_singleton.mp hlast

/-- What is taken up by a directive goes into its open slot, or else into its content. -/
def OpenDirective.take (frame : OpenDirective) (take : List Fragment → List Fragment) : OpenDirective :=
  match frame.slot with
  | none => { frame with content := take frame.content }
  | some slot => { frame with slot := some { slot with content := take slot.content } }

/-- A layout grows in its open slot, or else outside it. -/
def Layout.grow (layout : Layout) (grow : List Region → List Region) : Layout :=
  match layout.slot with
  | none => { layout with regions := grow layout.regions }
  | some slot => { layout with slot := some { slot with inside := grow slot.inside } }

@[simp]
theorem OpenDirective.take_start (frame : OpenDirective) (take : List Fragment → List Fragment) :
    (frame.take take).start = frame.start := by
  cases hslot : frame.slot <;> simp only [OpenDirective.take, hslot]

theorem OpenDirective.add_eq_take (frame : OpenDirective) (fragment : Fragment) :
    frame.add fragment = frame.take (fragment :: ·) := rfl

namespace Layout.Follows

theorem regroup (follows : layout.Follows scope done written edge frame) (groups : List Enclosure) :
    layout.Follows scope done written edge { frame with groups := groups } :=
  ⟨follows.opened, follows.starts, follows.registered, follows.divides, follows.slot, follows.filled,
    follows.sound, follows.nested, follows.runs⟩

/-- What has been read elsewhere does not matter. -/
theorem mono (follows : layout.Follows scope done written edge frame) (more : List Lexeme)
    (apart : ∀ item ∈ news, item.standsIn frame.start = false) :
    layout.Follows scope (done ++ more) (written ++ news) edge frame where
  opened := List.mem_append_left _ follows.opened
  starts := follows.starts
  registered := follows.registered
  divides := follows.divides
  slot := by
    have hslot := follows.slot
    revert hslot
    cases layout.slot <;> cases frame.slot <;> intro hslot
    · exact .none
    · exact nomatch hslot
    · exact nomatch hslot
    · cases hslot with
      | some hslot => exact .some (hslot.mono more)
  filled := follows.filled
  sound := fun region hregion => (follows.sound region hregion).mono more
  nested := by
    have hnews : news.filter (Written.standsIn frame.start) = [] :=
      List.filter_eq_nil_iff.mpr fun item hitem => by rw [apart item hitem]; exact Bool.false_ne_true
    rw [List.filter_append, hnews, List.append_nil, follows.nested]
  runs := fun first content h => (follows.runs first content h).mono more

/-- The slot of a layout is open exactly if that of the directive is. -/
theorem slot_cases (follows : layout.Follows scope done written edge frame) :
    (layout.slot = none ∧ frame.slot = none) ∨
      ∃ slot filling, layout.slot = some slot ∧ frame.slot = some filling ∧ slot.Follows done edge filling := by
  have hslot := follows.slot
  generalize layout.slot = slot at hslot
  generalize frame.slot = filling at hslot
  cases hslot with
  | none => exact .inl ⟨rfl, rfl⟩
  | some hslot => exact .inr ⟨_, _, rfl, rfl, hslot⟩

end Layout.Follows

/-- Slots do not change where regions grow. -/
theorem Grows.mem_of_isSlot {take : List Fragment → List Fragment} {grow : List Region → List Region}
    (grows : Grows done lexeme edge stop news take grow) {region : Region} (slot : region.isSlot = true)
    (h : region ∈ grow regions) : region ∈ regions := by
  have hmem := List.mem_filter.mpr ⟨h, slot⟩
  rw [grows.slots] at hmem
  exact List.mem_of_mem_filter hmem

theorem Region.filterMap_filled?_filter (regions : List Region) :
    (regions.filter isSlot).filterMap filled? = regions.filterMap filled? := by
  induction regions with
  | nil => rfl
  | cons region rest ih =>
    cases region with
    | slot opening filling closing inside => exact congrArg (_ :: ·) ih
    | _ => exact ih

/-- Slots leave nothing in the content. -/
theorem Region.flatMap_leaves_filter (regions : List Region) :
    (regions.filter fun region => !region.isSlot).flatMap leaves = regions.flatMap leaves := by
  induction regions with
  | nil => rfl
  | cons region rest ih =>
    cases region with
    | slot opening filling closing inside => exact ih
    | _ => exact congrArg (_ ++ ·) ih

theorem Grows.filled {take : List Fragment → List Fragment} {grow : List Region → List Region}
    (grows : Grows done lexeme edge stop news take grow) (regions : List Region) :
    (grow regions).filterMap Region.filled? = regions.filterMap Region.filled? := by
  rw [← Region.filterMap_filled?_filter, grows.slots, Region.filterMap_filled?_filter]

theorem Grows.sound {take : List Fragment → List Fragment} {grow : List Region → List Region}
    (grows : Grows done lexeme edge stop news take grow)
    (sound : ∀ region ∈ regions, region.Sound scope done start) :
    ∀ region ∈ grow regions, region.Sound scope (done ++ [lexeme]) start := by
  intro region hregion
  cases hslot : region.isSlot with
  | true => exact (sound region (grows.mem_of_isSlot hslot hregion)).mono _
  | false =>
    cases region with
    | slot opening filling closing inside => exact nomatch hslot
    | _ => trivial

namespace Layout.Follows

/-- A directive takes something up, and its layout grows. -/
theorem grow (follows : layout.Follows scope done written edge frame)
    {take : List Fragment → List Fragment} {extend : List Region → List Region}
    (grows : Grows done lexeme edge stop news take extend)
    (within : ∀ item ∈ news, item.standsIn frame.start = true) :
    (layout.grow extend).Follows scope (done ++ [lexeme]) (written ++ news) stop (frame.take take) := by
  have hnews : news.filter (Written.standsIn frame.start) = news := List.filter_eq_self.mpr within
  have hdivides := follows.divides
  have hnested := follows.nested
  have hruns := follows.runs
  have hopened := List.mem_append_left [lexeme] follows.opened
  rcases follows.slot_cases with ⟨hlayout, hframe⟩ | ⟨slot, filling, hlayout, hframe, hslot⟩
  · rw [limit_of_none hlayout] at hdivides
    rw [parts_of_none hlayout] at hnested hruns
    simp only [Layout.grow, OpenDirective.take, hlayout, hframe]
    refine ⟨hopened, follows.starts, follows.registered, ?_, .none, ?_, grows.sound follows.sound, ?_, ?_⟩
    · exact grows.divides _ _ _ hdivides
    · rw [grows.filled, follows.filled]
    · rw [List.filter_append, hnews, hnested, parts_of_none rfl, grows.nested]
    · rw [parts_of_none rfl]
      exact grows.runs _ _ _ hdivides hruns
  · rw [limit_of_some hlayout] at hdivides
    rw [parts_of_some hlayout] at hnested hruns
    simp only [Layout.grow, OpenDirective.take, hlayout, hframe]
    refine ⟨hopened, follows.starts, follows.registered, hdivides, .some ⟨?_, hslot.name, ?_, ?_⟩,
      follows.filled, fun region hregion => (follows.sound region hregion).mono _, ?_, ?_⟩
    · exact List.mem_append_left _ hslot.opened
    · exact grows.divides _ _ _ hslot.divides
    · intro region hregion
      refine Bool.eq_false_iff.mpr fun hisSlot => ?_
      exact nomatch (hslot.plain region (grows.mem_of_isSlot hisSlot hregion)).symm.trans hisSlot
    · rw [List.filter_append, hnews, hnested, parts_of_some rfl, List.filterMap_append,
        List.filterMap_append, grows.nested, List.append_assoc]
    · rw [parts_of_some rfl]
      intro first content h
      rcases List.mem_append.mp h with houtside | hinside
      · exact (hruns first content (List.mem_append_left _ houtside)).mono _
      · exact grows.runs _ _ _ hslot.divides
          (fun first content h => hruns first content (List.mem_append_right _ h)) first content hinside

/-- A directive that has just been opened. -/
theorem begin {descriptor : Descriptor} (registered : scope.registry.get? lexeme.name = some descriptor)
    (fresh : ∀ item ∈ written, item.standsIn lexeme.start = false) :
    (Layout.mk lexeme [] none).Follows scope (done ++ [lexeme]) written lexeme.stop
      (.begin descriptor lexeme.start) where
  opened := List.mem_append_right _ (List.mem_singleton_self _)
  starts := rfl
  registered := registered
  divides := .nil _
  slot := .none
  filled := rfl
  sound := fun region h => absurd h List.not_mem_nil
  nested := List.filter_eq_nil_iff.mpr fun item hitem => by
    show ¬item.standsIn lexeme.start = true
    rw [fresh item hitem]
    exact Bool.false_ne_true
  runs := fun first content h => absurd h List.not_mem_nil

/-- A slot is opened in a directive. -/
theorem openSlot (follows : layout.Follows scope done written lexeme.start frame)
    (unfilling : frame.slot = none) (enclosure : Enclosure) :
    ({ layout with slot := some ⟨lexeme, []⟩ } : Layout).Follows scope (done ++ [lexeme]) written lexeme.stop
      { frame with slot := some ⟨lexeme.name, enclosure, []⟩ } := by
  rcases follows.slot_cases with ⟨hlayout, _⟩ | ⟨_, _, _, hframe, _⟩
  · have hdivides := follows.divides
    have hnested := follows.nested
    have hruns := follows.runs
    rw [limit_of_none hlayout] at hdivides
    rw [parts_of_none hlayout] at hnested hruns
    refine ⟨List.mem_append_left _ follows.opened, follows.starts, follows.registered, hdivides, .some ?_,
      follows.filled, fun region hregion => (follows.sound region hregion).mono _, ?_, ?_⟩
    · exact ⟨List.mem_append_right _ (List.mem_singleton_self _), rfl, .nil _, nofun⟩
    · rw [hnested, parts_of_some rfl]
      exact congrArg _ (List.append_nil _).symm
    · intro first content h
      rw [parts_of_some rfl] at h
      rcases List.mem_append.mp h with houtside | hinside
      · exact (hruns first content houtside).mono _
      · exact absurd hinside List.not_mem_nil
  · exact nomatch unfilling.symm.trans hframe

/-- The open slot of a directive is closed. It becomes a region, with what is inside it. -/
theorem closeSlot {slot : SlotLayout} {filling : OpenSlot}
    (follows : layout.Follows scope done written lexeme.start frame) (hlayout : layout.slot = some slot)
    (hslot : slot.Follows done lexeme.start filling) (full : lexeme.start < lexeme.stop)
    (fills : Reader.Fills scope (done ++ [lexeme]) frame.start filling lexeme) :
    (Layout.mk layout.opening (layout.regions ++ [.slot slot.opening filling lexeme slot.inside])
        none).Follows scope (done ++ [lexeme]) written lexeme.stop
      { frame with
        slot := none
        filled := (filling.name, Fragment.join filling.content) :: frame.filled } := by
  have hdivides := follows.divides
  have hnested := follows.nested
  have hruns := follows.runs
  rw [limit_of_some hlayout] at hdivides
  rw [parts_of_some hlayout, Region.parts_eq_self hslot.plain] at hnested hruns
  have hopening : slot.opening.start < lexeme.stop := by
    have hle := hslot.divides.tile.le
    rw [Lexeme.stop] at hle
    omega
  have hparts : Region.parts (layout.regions ++ [.slot slot.opening filling lexeme slot.inside]) =
      Region.parts layout.regions ++ slot.inside := by
    rw [Region.parts_append]
    exact congrArg _ (List.flatMap_singleton _ _)
  refine ⟨List.mem_append_left _ follows.opened, follows.starts, follows.registered, ?_, .none, ?_, ?_, ?_, ?_⟩
  · exact Divides.concat (.slot slot.opening filling lexeme slot.inside) hdivides rfl hopening rfl
  · rw [List.reverse_cons, follows.filled, List.filterMap_append, hslot.divides.join_eq]
    rfl
  · rw [List.forall_mem_append, List.forall_mem_singleton]
    exact ⟨fun region hregion => (follows.sound region hregion).mono _,
      List.mem_append_left _ hslot.opened, hslot.name, fills, hslot.divides, hslot.plain⟩
  · rw [hnested, parts_of_none rfl, hparts]
  · rw [parts_of_none rfl, hparts]
    exact fun first content h => (hruns first content h).mono _

end Layout.Follows

/-! ### Layouts of all open directives -/

/-- Layouts that follow the open directives, innermost first. Each of them goes up to where the next one inside
it starts. -/
inductive Layouts (scope : ReaderScope) (done : List Lexeme) (written : List Written) :
    Nat → List Layout → List OpenDirective → Prop
  | nil (edge : Nat) : Layouts scope done written edge [] []
  | cons {edge : Nat} {layout : Layout} {frame : OpenDirective} {layouts : List Layout}
      {outer : List OpenDirective} (follows : layout.Follows scope done written edge frame)
      (others : Layouts scope done written frame.start layouts outer) :
      Layouts scope done written edge (layout :: layouts) (frame :: outer)

namespace Layouts

variable {layouts : List Layout} {frames outer : List OpenDirective}

theorem mono (followed : Layouts scope done written edge layouts frames) (more : List Lexeme)
    (apart : ∀ item ∈ news, ∀ frame ∈ frames, item.standsIn frame.start = false) :
    Layouts scope (done ++ more) (written ++ news) edge layouts frames := by
  induction followed with
  | nil edge => exact .nil edge
  | cons follows others ih =>
    refine .cons (follows.mono more fun item hitem => apart item hitem _ List.mem_cons_self) ?_
    exact ih fun item hitem frame hframe => apart item hitem frame (List.mem_cons_of_mem _ hframe)

/-- The layout of the innermost directive. -/
theorem exists_cons (followed : Layouts scope done written edge layouts (frame :: outer)) :
    ∃ layout others, layouts = layout :: others ∧ layout.Follows scope done written edge frame ∧
      Layouts scope done written frame.start others outer := by
  cases followed with
  | cons follows others => exact ⟨_, _, rfl, follows, others⟩

/-- Reading on changes nothing, as long as nothing is written. -/
theorem read (followed : Layouts scope done written edge layouts frames) (lexeme : Lexeme) :
    Layouts scope (done ++ [lexeme]) written edge layouts frames := by
  have hmono : Layouts scope (done ++ [lexeme]) (written ++ []) edge layouts frames :=
    followed.mono [lexeme] fun item h => absurd h List.not_mem_nil
  rwa [List.append_nil] at hmono

/-- A lexeme is taken up by the innermost directive. -/
theorem exists_add (followed : Layouts scope done written lexeme.start layouts (frame :: outer))
    (adjoin : Lexeme.Adjoin 0 (done ++ [lexeme])) (unnamed : lexeme.token.names? = none)
    (groups : List Enclosure) :
    ∃ layouts, Layouts scope (done ++ [lexeme]) written lexeme.stop layouts
      ({ frame.add lexeme.fragment with groups := groups } :: outer) := by
  obtain ⟨layout, others, rfl, follows, hothers⟩ := followed.exists_cons
  have hgrown := follows.grow (grows_addText adjoin unnamed) fun item h => absurd h List.not_mem_nil
  rw [List.append_nil, ← OpenDirective.add_eq_take] at hgrown
  refine ⟨_ :: others, .cons (hgrown.regroup groups) ?_⟩
  show Layouts _ _ _ (frame.add lexeme.fragment).start _ _
  rw [OpenDirective.add_start]
  exact hothers.read lexeme

/-- A directive is opened where the text has been read to. -/
theorem opens (followed : Layouts scope done written lexeme.start layouts frames) {descriptor : Descriptor}
    (registered : scope.registry.get? lexeme.name = some descriptor)
    (fresh : ∀ item ∈ written, item.standsIn lexeme.start = false) :
    Layouts scope (done ++ [lexeme]) written lexeme.stop (⟨lexeme, [], none⟩ :: layouts)
      (.begin descriptor lexeme.start :: frames) :=
  .cons (.begin registered fresh) (followed.read lexeme)

/-- A slot of the innermost directive is opened. -/
theorem exists_openSlot (followed : Layouts scope done written lexeme.start layouts (frame :: outer))
    (unfilling : frame.slot = none) (enclosure : Enclosure) :
    ∃ layouts, Layouts scope (done ++ [lexeme]) written lexeme.stop layouts
      ({ frame with slot := some ⟨lexeme.name, enclosure, []⟩ } :: outer) := by
  obtain ⟨layout, others, rfl, follows, hothers⟩ := followed.exists_cons
  exact ⟨_, .cons (follows.openSlot unfilling enclosure) (hothers.read lexeme)⟩

/-- The open slot of the innermost directive is closed. -/
theorem exists_closeSlot {filling : OpenSlot}
    (followed : Layouts scope done written lexeme.start layouts (frame :: outer))
    (open_ : frame.slot = some filling) (full : lexeme.start < lexeme.stop)
    (fills : Reader.Fills scope (done ++ [lexeme]) frame.start filling lexeme) :
    ∃ layouts, Layouts scope (done ++ [lexeme]) written lexeme.stop layouts
      ({ frame with
        slot := none
        filled := (filling.name, Fragment.join filling.content) :: frame.filled } :: outer) := by
  obtain ⟨layout, others, rfl, follows, hothers⟩ := followed.exists_cons
  rcases follows.slot_cases with ⟨_, hframe⟩ | ⟨slot, found, hlayout, hframe, hslot⟩
  · exact nomatch hframe.symm.trans open_
  · obtain rfl := Option.some.inj (hframe.symm.trans open_)
    exact ⟨_, .cons (follows.closeSlot hlayout hslot full fills) (hothers.read lexeme)⟩

/-- A directive is closed, and the one around it takes up what it leaves. -/
theorem exists_leave {parent : OpenDirective} (item : Written)
    (followed : Layouts scope done written edge layouts (frame :: parent :: outer))
    (start : item.span.start = frame.start) (full : item.span.start < item.span.stop)
    (around : item.around.head? = some parent.start) (apart : ∀ other ∈ outer, parent.start ≠ other.start)
    (lexeme : Lexeme) :
    ∃ layouts, Layouts scope (done ++ [lexeme]) (written ++ [item]) item.span.stop layouts
      (parent.take item.directive.leave :: outer) := by
  obtain ⟨_, _, rfl, _, hinner⟩ := followed.exists_cons
  obtain ⟨layout, others, rfl, follows, hothers⟩ := hinner.exists_cons
  have hstands : item.standsIn parent.start = true := by
    rw [Written.standsIn, around]
    exact beq_self_eq_true _
  have hapart : ∀ other ∈ outer, item.standsIn other.start = false := by
    intro other hother
    rw [Written.standsIn, around]
    exact beq_eq_false_iff_ne.mpr fun h => apart other hother (Option.some.inj h)
  rw [← start] at follows
  have hgrown := follows.grow (grows_nested lexeme full) (List.forall_mem_singleton.mpr hstands)
  refine ⟨_ :: others, .cons hgrown ?_⟩
  rw [OpenDirective.take_start]
  exact hothers.mono [lexeme] (List.forall_mem_singleton.mpr hapart)

end Layouts

namespace Reader

variable {reader next : Reader} {layouts : List Layout} {outer : List OpenDirective}

/-- What a nested directive leaves where it is closed. -/
theorem frames_place (reader : Reader) (span : Span) (directive : Directive) (parent : OpenDirective)
    (outer : List OpenDirective) :
    (reader.place span directive (parent :: outer)).frames = parent.take directive.leave :: outer := by
  have hsame : parent.take (fun content => content) = parent := by
    cases hslot : parent.slot <;> simp only [OpenDirective.take, hslot]
    · rw [← hslot]
    · rw [← hslot]
  cases directive with
  | note content => rfl
  | _ => exact congrArg (· :: outer) hsame.symm

/-- Reading keeps the layouts true. -/
theorem Walk.divided (walk : Walk scope .initial more next) (adjoin : Lexeme.Adjoin 0 more) :
    ∃ layouts, Layouts scope more (Reader.written scope .initial more) (Text.width (Lexeme.join more)) layouts
      next.frames := by
  refine walk.invariant_of_adjoin (fun done reader => ∃ layouts, Layouts scope done
    (Reader.written scope .initial done) (Text.width (Lexeme.join done)) layouts reader.frames) adjoin ?_ ?_
  · exact ⟨[], .nil _⟩
  · rintro before middle lexeme after hadjoin hwalk ⟨layouts, followed⟩ step
    obtain ⟨hbefore, hstart, hstop, hlt⟩ := hadjoin.spec
    have nested := hwalk.nested hbefore
    rw [← hstart] at nested followed
    rw [← hstop, hwalk.written_concat step]
    cases step with
    | prose outside unnamed =>
      rw [written?_of_outside outside, Option.toList_none, List.append_nil]
      rw [outside] at followed
      cases followed
      exact ⟨[], outside ▸ .nil _⟩
    | directive named registered allowed noSlot =>
      rw [written?_of_names? named, Option.toList_none, List.append_nil]
      refine ⟨_, followed.opens registered fun item hitem => beq_eq_false_iff_ne.mpr fun haround => ?_⟩
      have hmem := nested.around item hitem _ (List.mem_of_mem_head? haround)
      have hextent := nested.extent item hitem
      omega
    | @slot frame outer enclosure inside named opens unfilled =>
      rw [written?_of_names? named, Option.toList_none, List.append_nil]
      rw [OpenDirective.opensSlot, Bool.and_eq_true, Bool.and_eq_true, Option.isNone_iff_eq_none] at opens
      rw [inside] at followed
      exact followed.exists_openSlot opens.1.2 enclosure
    | @plain frame outer inside plain =>
      rw [written?_of_open (closing?_of_closes (Token.closes?_of_isPlain plain)), Option.toList_none,
        List.append_nil]
      rw [inside] at followed
      have hadd := followed.exists_add hadjoin (Token.names?_of_isPlain plain) frame.groups
      rwa [← OpenDirective.add_groups frame lexeme.fragment] at hadd
    | @group frame outer enclosure inside grouped =>
      rw [written?_of_open (closing?_of_closes (Token.closes?_of_groups? grouped)), Option.toList_none,
        List.append_nil]
      rw [inside] at followed
      exact followed.exists_add hadjoin (Token.names?_of_groups? grouped) (enclosure :: frame.groups)
    | @closeGroup frame outer enclosure groups inside closing grouped =>
      have hopen : middle.closing? lexeme = none := by
        rw [closing?_of_inside inside, if_neg]
        rintro ⟨_, ungrouped, _⟩
        exact absurd (grouped.symm.trans ungrouped) (List.cons_ne_nil _ _)
      rw [written?_of_open hopen, Option.toList_none, List.append_nil, OpenDirective.add_regroup]
      rw [inside] at followed
      exact followed.exists_add hadjoin (Token.names?_of_closes? closing) groups
    | @closeSlot frame outer slot inside closing ungrouped filling =>
      have hopen : middle.closing? lexeme = none := by
        rw [closing?_of_inside inside, if_neg]
        rintro ⟨_, _, unfilling⟩
        exact absurd (filling.symm.trans unfilling) (Option.some_ne_none _)
      rw [written?_of_open hopen, Option.toList_none, List.append_nil]
      rw [inside] at followed
      exact followed.exists_closeSlot filling hlt
        ⟨before, [], middle, frame, outer, rfl, hwalk, inside, rfl, filling, ungrouped, closing⟩
    | @closeDirective frame outer directive inside closing ungrouped unfilling built =>
      rw [written?_of_closed (closing?_of_closing inside closing ungrouped unfilling) built,
        Option.toList_some]
      rw [inside] at followed
      cases outer with
      | nil => exact ⟨[], .nil _⟩
      | cons parent outer =>
        have hstarts := nested.decreasing
        have hopened := nested.started
        rw [starts_of_inside inside, List.map_cons] at hstarts hopened
        have hfull : frame.start < lexeme.stop := (hopened _ List.mem_cons_self).trans hlt
        obtain ⟨_, hparent, _⟩ := (List.pairwise_cons.mp hstarts).imp_right List.pairwise_cons.mp
        rw [frames_place]
        exact followed.exists_leave ⟨⟨frame.start, lexeme.stop⟩, _, directive⟩ rfl hfull rfl
          (fun other hother => Nat.ne_of_gt (hparent _ (List.mem_map_of_mem hother))) lexeme

/-! ## Directives that are read -/

/-- How a directive is divided that is read to its closing bracket. Its body goes from the lexeme that opens it
to this bracket, and regions go through the body. The pieces of the content are those of the regions, where text
is a part of the scrubbed text; the slots that are filled are those among the regions, each of which is divided
in the same way; and the directives among the regions and inside the slots are those that have been written in
the directive and in no other one inside it.

The cuts of the regions, as they have been recorded up to the closing bracket, give the pieces and the text of the
content, and those that have been recorded where a slot is closed give the pieces of the slot. So the content has
the text of the regions that are not slots. -/
theorem closing_divides {before after : List Lexeme} {closing : Lexeme}
    (tokens : Lexeme.tokenize scope.extraction.scrubbed = before ++ closing :: after)
    (walk : Walk scope .initial before reader) (closed : reader.closing? closing = some ⟨frame, outer⟩) :
    ∃ opening ∈ before, ∃ regions : List Region,
      opening.start = frame.start ∧ scope.registry.get? opening.name = some frame.descriptor ∧
      Divides frame.content opening.stop closing.start regions ∧
      (∀ start text, Region.text start text ∈ Region.parts regions →
        Text.slice scope.extraction.scrubbed start (start + Text.width text) = text) ∧
      (∀ region ∈ regions, region.Sound scope before frame.start) ∧
      frame.filled.reverse = regions.filterMap Region.filled? ∧
      (Reader.written scope .initial before).filter (Written.standsIn frame.start) =
        (Region.parts regions).filterMap Region.nested? ∧
      Cut.pieces scope.extraction.scrubbed ⟨opening.stop, closing.start⟩ (regions.flatMap Region.cuts) =
        (Fragment.pieces frame.content).reverse ∧
      (∀ earlier first filling last inside later, regions = earlier ++ .slot first filling last inside :: later →
        Cut.pieces scope.extraction.scrubbed ⟨first.stop, last.start⟩
            ((earlier ++ inside).flatMap Region.cuts) =
          (Fragment.pieces filling.content).reverse) ∧
      frame.node.content =
        (Cut.pieces scope.extraction.scrubbed ⟨opening.stop, closing.start⟩
          (regions.flatMap Region.cuts)).flatMap Fragment.text ∧
      frame.node.content = (regions.filter fun region => !region.isSlot).flatMap Region.leaves := by
  have adjoin := Lexeme.adjoin_tokenize scope.extraction.scrubbed
  rw [tokens] at adjoin
  obtain ⟨hbefore, hclosing, _⟩ := Lexeme.adjoin_append_iff.mp adjoin
  rw [Nat.zero_add] at hclosing
  obtain ⟨inside, _, _, unfilling⟩ := closing?_eq_some_iff.mp closed
  obtain ⟨layouts, followed⟩ := walk.divided hbefore
  rw [inside, ← hclosing] at followed
  obtain ⟨layout, others, rfl, follows, _⟩ := followed.exists_cons
  have hlayout : layout.slot = none := by
    rcases follows.slot_cases with ⟨hlayout, _⟩ | ⟨_, _, _, hframe, _⟩
    · exact hlayout
    · exact nomatch unfilling.symm.trans hframe
  have hdivides := follows.divides
  have hnested := follows.nested
  have hruns := follows.runs
  rw [Layout.limit_of_none hlayout] at hdivides
  rw [Layout.parts_of_none hlayout] at hnested hruns
  have htexts : ∀ start text, Region.text start text ∈ Region.parts layout.regions →
      Text.slice scope.extraction.scrubbed start (start + Text.width text) = text := by
    intro start text hmem
    have hrun := (hruns start text hmem).mono (closing :: after)
    rw [← tokens] at hrun
    obtain ⟨⟨first, rest, hsplit, rfl⟩, _⟩ := hrun.spec
    rw [hsplit]
    exact Text.slice_part first text rest
  have hpieces : Cut.pieces scope.extraction.scrubbed ⟨layout.opening.stop, closing.start⟩
      (layout.regions.flatMap Region.cuts) = (Fragment.pieces frame.content).reverse := by
    refine hdivides.pieces_cuts (fun region hregion => (follows.sound region hregion).filled hbefore) ?_
      (fun cut h => absurd h List.not_mem_nil) (.refl _)
    exact fun first text h => htexts first text (List.mem_flatMap.mpr ⟨_, h, List.mem_cons_self⟩)
  refine ⟨layout.opening, follows.opened, layout.regions, follows.starts, follows.registered, hdivides, htexts,
    follows.sound, follows.filled, hnested, hpieces, ?_, ?_, ?_⟩
  · intro earlier first filling last inside later hregions
    have hsound := follows.sound
    rw [hregions] at hdivides hsound htexts
    refine hdivides.pieces_cuts_slot hsound hbefore fun start text h => htexts start text ?_
    exact List.mem_flatMap.mpr ⟨_, List.mem_append_right _ List.mem_cons_self, h⟩
  · rw [hpieces, Fragment.flatMap_text_pieces]
    rfl
  · rw [OpenDirective.node, hdivides.join_eq, Region.flatMap_leaves_filter]

/-- A task with a note in its instruction and one in its hint. -/
def hintedTask : Text := "#textTask[a #note[b]#hint[c #note[d]]]".toList

/-- The page that consists of this task. -/
def hintedScope : ReaderScope := ⟨"d", .page, .standard, ⟨.pair 0xE000, hintedTask.map .letter⟩⟩

/-- The task in front of its closing bracket. -/
def hintedFrame : OpenDirective :=
  ⟨DirectiveKind.textTask.descriptor, 0, [.nested ['b'], .source 10 ['a', ' ']],
    [("hint", ['c', ' ', 'd'])], none, []⟩

/-- The hint with its note is one region of the task, and one of three cuts. The instruction has none of it. -/
theorem closing_divides_hint :
    ∃ (opening : Lexeme) (regions : List Region), opening.start = 0 ∧
      Divides hintedFrame.content opening.stop 37 regions ∧
      [("hint", "c d".toList)] = regions.filterMap Region.filled? ∧
      Cut.pieces hintedScope.extraction.scrubbed ⟨opening.stop, 37⟩ (regions.flatMap Region.cuts) =
        [.source 10 "a ".toList, .nested "b".toList] ∧
      "a b".toList = (regions.filter fun region => !region.isSlot).flatMap Region.leaves := by
  have tokens : Lexeme.tokenize hintedScope.extraction.scrubbed =
      (Lexeme.tokenize hintedTask).dropLast ++ [⟨.bracketClose, 37, [']']⟩] := by
    cbv
  have walk : Walk hintedScope .initial (Lexeme.tokenize hintedTask).dropLast
      ⟨[], [], [hintedFrame], [], 2⟩ := by
    rw [← foldlM_eq_ok_iff]
    cbv
  have closed : closing? ⟨[], [], [hintedFrame], [], 2⟩ ⟨.bracketClose, 37, [']']⟩ =
      some ⟨hintedFrame, []⟩ := by
    decide
  obtain ⟨opening, _, regions, hstart, _, hdivides, _, _, hfilled, _, hpieces, _, _, hcontent⟩ :=
    closing_divides tokens walk closed
  exact ⟨opening, regions, hstart, hdivides, hfilled, hpieces, hcontent⟩

end Reader
end Courseware
