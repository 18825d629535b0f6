import Courseware.Markup.Cut
import Courseware.Proofs.Markup.Regions

/-!
# Cuts and regions

The regions of a directive say what is cut out of its body: its slots, the directives that are nested in it, and
those that are nested in its slots. Going through these cuts finds the pieces that the reader has taken up, one
after the other (`Divides.pieces_cuts`).

Cuts are recorded one inside the other, since those of the directives in a slot come before that of the slot. The
extents of any two cuts are apart, or one holds the other. So there is one order in which they start, and when the
cut of a slot has been passed, all that is inside it is passed as well. It does not matter then in which order
they were recorded.
-/

namespace Courseware

theorem Span.Tile.pairwise {start stop : Nat} {spans : List Span} (tile : Tile start spans stop) :
    spans.Pairwise fun first second => first.stop ≤ second.start := by
  induction spans generalizing start with
  | nil => exact .nil
  | cons first rest ih =>
    obtain ⟨_, _, hrest⟩ := tile
    exact .cons (fun span hspan => (hrest.mem hspan).1) (ih hrest)

/-! ## Going through cuts -/

namespace Cut

variable {scrubbed : Text} {start stop position : Nat} {cuts inner : List Cut}

theorem between_self (scrubbed : Text) (start : Nat) : between scrubbed start start = [] :=
  if_neg (Nat.lt_irrefl start)

/-- What stands in front of the first cut is a piece, and going on from there gives the others. -/
theorem sweep_eq_between_append (starts : ∀ cut ∈ cuts.head?, cut.extent.start = start)
    (ends : cuts = [] → start = stop) (le : position ≤ start) :
    sweep scrubbed stop position cuts =
      between scrubbed position start ++ sweep scrubbed stop start cuts := by
  cases cuts with
  | nil => rw [sweep, sweep, ends rfl, between_self, List.append_nil]
  | cons cut rest =>
    obtain rfl := starts cut rfl
    rw [sweep, sweep, if_neg (Nat.not_lt.mpr le), if_neg (Nat.lt_irrefl _), between_self, List.nil_append]

/-- Where a cut starts, there is what it leaves. -/
theorem sweep_cons_start (cut : Cut) (rest : List Cut) :
    sweep scrubbed stop cut.extent.start (cut :: rest) =
      cut.filling ++ sweep scrubbed stop cut.extent.stop rest := by
  rw [sweep, if_neg (Nat.lt_irrefl _), between_self, List.nil_append]

/-- Cuts that have been passed are left out. -/
theorem sweep_append_of_lt (passed : ∀ cut ∈ inner, cut.extent.start < position) (cuts : List Cut) :
    sweep scrubbed stop position (inner ++ cuts) = sweep scrubbed stop position cuts := by
  induction inner with
  | nil => rfl
  | cons cut rest ih =>
    obtain ⟨hcut, hrest⟩ := List.forall_mem_cons.mp passed
    rw [List.cons_append, sweep, if_pos hcut, ih hrest]

/-- There is one order in which cuts with different starts start. -/
theorem mergeSort_eq {ordered : List Cut}
    (sorted : ordered.Pairwise fun first second => first.extent.start < second.extent.start)
    (perm : cuts.Perm ordered) :
    cuts.mergeSort startsBefore = ordered := by
  have htrans : ∀ first second third : Cut, startsBefore first second = true →
      startsBefore second third = true → startsBefore first third = true := by
    intro first second third
    simpa only [startsBefore, decide_eq_true_eq] using Nat.le_trans
  have htotal : ∀ first second : Cut, (startsBefore first second || startsBefore second first) = true := by
    intro first second
    simpa only [startsBefore, Bool.or_eq_true, decide_eq_true_eq] using Nat.le_total _ _
  have hmerged := List.pairwise_mergeSort htrans htotal cuts
  simp only [startsBefore, decide_eq_true_eq] at hmerged
  have hperm := (List.mergeSort_perm cuts startsBefore).trans perm
  have hstarts : (ordered.map fun cut => cut.extent.start).Nodup :=
    List.pairwise_map.mpr (sorted.imp Nat.ne_of_lt)
  refine List.Perm.eq_of_pairwise ?_ hmerged (sorted.imp Nat.le_of_lt) hperm
  intro first second hfirst hsecond hle hge
  exact List.inj_on_of_nodup_map hstarts (hperm.mem_iff.mp hfirst) hsecond (Nat.le_antisymm hle hge)

end Cut

/-! ## The cuts of regions -/

/-- The cut of a directive that is nested. -/
def Written.cut (written : Written) : Cut := ⟨written.span, some written.directive.left⟩

namespace Region

/-- The cuts of a region in the order in which they are recorded: a slot is closed behind the directives in it. -/
def cuts : Region → List Cut
  | text .. => []
  | nested written => [written.cut]
  | slot opening _ closing inside =>
    (inside.filterMap nested?).map Written.cut ++ [⟨⟨opening.start, closing.stop⟩, none⟩]

/-- The cuts of a region in the order in which they start. -/
def orderedCuts : Region → List Cut
  | text .. => []
  | nested written => [written.cut]
  | slot opening _ closing inside =>
    ⟨⟨opening.start, closing.stop⟩, none⟩ :: (inside.filterMap nested?).map Written.cut

/-- What is inside a slot fills it, from the lexeme that opens the slot to the one that closes it. -/
def Filled : Region → Prop
  | slot opening _ closing inside =>
    opening.start < opening.stop ∧ Span.Tile opening.stop (inside.map span) closing.start ∧
      closing.start < closing.stop
  | _ => True

variable {region : Region} {regions : List Region} {scrubbed : Text} {start stop : Nat}

theorem perm_orderedCuts (region : Region) : region.cuts.Perm region.orderedCuts := by
  cases region with
  | slot opening filling closing inside => exact List.perm_append_singleton _ _
  | _ => exact .refl _

theorem perm_flatMap_orderedCuts (regions : List Region) :
    (regions.flatMap cuts).Perm (regions.flatMap orderedCuts) :=
  .flatMap_left regions fun region _ => region.perm_orderedCuts

/-- A region that is not text is cut out where it starts. -/
theorem exists_orderedCuts_cons (textless : region.isText = false) :
    ∃ cut more, region.orderedCuts = cut :: more ∧ cut.extent.start = region.span.start := by
  cases region with
  | text first content => cases textless
  | nested written => exact ⟨_, _, rfl, rfl⟩
  | slot opening filling closing inside => exact ⟨_, _, rfl, rfl⟩

theorem filling_cut (written : Written) : written.cut.filling = (nested written).piece?.toList := by
  rw [Cut.filling, Written.cut, piece?]
  cases written.directive.left <;> rfl

/-- Directives among regions that follow one another do so too. -/
theorem spec_of_tile_nested (tile : Span.Tile start (regions.map span) stop) :
    (∀ cut ∈ (regions.filterMap nested?).map Written.cut,
      start ≤ cut.extent.start ∧ cut.extent.start < cut.extent.stop ∧ cut.extent.stop ≤ stop) ∧
    ((regions.filterMap nested?).map Written.cut).Pairwise fun first second =>
      first.extent.start < second.extent.start := by
  have hspan : ∀ {region : Region} {written : Written}, region.nested? = some written →
      region.span = written.cut.extent := by
    intro region written h
    cases region with
    | nested found => rw [← Option.some.inj h]; rfl
    | _ => cases h
  constructor
  · intro cut hcut
    obtain ⟨written, hwritten, rfl⟩ := List.mem_map.mp hcut
    obtain ⟨region, hregion, hnested⟩ := List.mem_filterMap.mp hwritten
    rw [← hspan hnested]
    exact tile.mem (List.mem_map_of_mem hregion)
  · rw [List.pairwise_map, List.pairwise_filterMap]
    refine (List.pairwise_map.mp tile.pairwise).imp_of_mem fun hfirst _ hle written hnested other hother => ?_
    obtain ⟨_, hlt, _⟩ := tile.mem (List.mem_map_of_mem hfirst)
    rw [← hspan hnested, ← hspan hother]
    exact Nat.lt_of_lt_of_le hlt hle

/-- The cuts of a region lie in it and start one after the other. -/
theorem spec_of_orderedCuts (filled : region.Filled) (full : region.span.start < region.span.stop) :
    (∀ cut ∈ region.orderedCuts, region.span.start ≤ cut.extent.start ∧
      cut.extent.start < cut.extent.stop ∧ cut.extent.stop ≤ region.span.stop) ∧
    region.orderedCuts.Pairwise fun first second => first.extent.start < second.extent.start := by
  cases region with
  | text first content => exact ⟨fun cut h => absurd h List.not_mem_nil, .nil⟩
  | nested written =>
    refine ⟨?_, List.pairwise_singleton _ _⟩
    rw [orderedCuts, List.forall_mem_singleton]
    exact ⟨Nat.le_refl _, full, Nat.le_refl _⟩
  | slot opening filling closing inside =>
    obtain ⟨hopening, htile, hclosing⟩ := filled
    obtain ⟨hinside, hpairwise⟩ := spec_of_tile_nested htile
    simp only [span] at full ⊢
    rw [orderedCuts, List.forall_mem_cons]
    refine ⟨⟨⟨Nat.le_refl _, full, Nat.le_refl _⟩, fun cut hcut => ?_⟩, .cons (fun cut hcut => ?_) hpairwise⟩
    · obtain ⟨hstart, hcut, hstop⟩ := hinside cut hcut
      omega
    · exact Nat.lt_of_lt_of_le hopening (hinside cut hcut).1

/-- Where no text comes first, a cut starts at once, or there is nothing. -/
theorem spec_of_textless (tile : Span.Tile start (regions.map span) stop)
    (textless : ∀ first ∈ regions.head?, first.isText = false) :
    (∀ cut ∈ (regions.flatMap orderedCuts).head?, cut.extent.start = start) ∧
      (regions.flatMap orderedCuts = [] → start = stop) := by
  cases regions with
  | nil => exact ⟨fun cut h => absurd h (Option.not_mem_none cut), fun _ => tile⟩
  | cons first rest =>
    obtain ⟨cut, more, hcuts, hcut⟩ := exists_orderedCuts_cons (textless first rfl)
    rw [List.flatMap_cons, hcuts]
    refine ⟨fun found hfound => ?_, fun h => absurd h (List.cons_ne_nil _ _)⟩
    obtain rfl : cut = found := Option.some.inj hfound
    exact hcut.trans tile.1

section
variable (tile : Span.Tile start (regions.map span) stop) (filled : ∀ region ∈ regions, region.Filled)
include tile filled

/-- So do those of regions that follow one another. -/
theorem spec_of_tile :
    (∀ cut ∈ regions.flatMap orderedCuts, start ≤ cut.extent.start ∧
      cut.extent.start < cut.extent.stop ∧ cut.extent.stop ≤ stop) ∧
    (regions.flatMap orderedCuts).Pairwise fun first second => first.extent.start < second.extent.start := by
  have hregion : ∀ region ∈ regions, _ := fun region hregion =>
    spec_of_orderedCuts (filled region hregion) (tile.mem (List.mem_map_of_mem hregion)).2.1
  constructor
  · intro cut hcut
    obtain ⟨region, hmem, hcut⟩ := List.mem_flatMap.mp hcut
    obtain ⟨hfirst, _, hlast⟩ := tile.mem (List.mem_map_of_mem hmem)
    obtain ⟨hstart, hlt, hstop⟩ := (hregion region hmem).1 cut hcut
    exact ⟨hfirst.trans hstart, hlt, hstop.trans hlast⟩
  · rw [List.pairwise_flatMap]
    refine ⟨fun region hmem => (hregion region hmem).2, ?_⟩
    refine (List.pairwise_map.mp tile.pairwise).imp_of_mem fun hfirst hsecond hle cut hcut other hother => ?_
    obtain ⟨_, hlt, hstop⟩ := (hregion _ hfirst).1 cut hcut
    obtain ⟨hstart, _, _⟩ := (hregion _ hsecond).1 other hother
    omega

/-- Going through the cuts of regions finds the pieces that the regions are. -/
theorem sweep_flatMap (maximal : regions.IsChain fun first second => ¬(first.isText = true ∧ second.isText = true))
    (texts : ∀ first content, text first content ∈ regions →
      Text.slice scrubbed first (first + Text.width content) = content) :
    Cut.sweep scrubbed stop start (regions.flatMap orderedCuts) = regions.filterMap piece? := by
  induction regions generalizing start with
  | nil =>
    obtain rfl := tile
    exact Cut.between_self _ _
  | cons region rest ih =>
    obtain ⟨hstart, hlt, hrest⟩ := tile
    obtain ⟨hfilled, hothers⟩ := List.forall_mem_cons.mp filled
    have hsweep := ih hrest hothers maximal.tail fun first content h => texts first content (List.mem_cons_of_mem _ h)
    obtain rfl := hstart
    rw [List.flatMap_cons]
    cases region with
    | text first content =>
      have textless : ∀ next ∈ rest.head?, next.isText = false := by
        intro next hnext
        refine Bool.eq_false_iff.mpr fun isText => ?_
        exact List.IsChain.rel_head? maximal hnext ⟨rfl, isText⟩
      obtain ⟨hstarts, hends⟩ := spec_of_textless hrest textless
      simp only [span] at hlt hstarts hends hsweep ⊢
      rw [orderedCuts, List.nil_append, Cut.sweep_eq_between_append hstarts hends (Nat.le_of_lt hlt),
        Cut.between, if_pos hlt, texts first content List.mem_cons_self, hsweep]
      rfl
    | nested written =>
      have hcut : Cut.sweep scrubbed stop (nested written).span.start (written.cut :: rest.flatMap orderedCuts) =
          (nested written).piece?.toList ++ rest.filterMap piece? := by
        rw [← filling_cut, ← hsweep]
        exact Cut.sweep_cons_start _ _
      rw [List.filterMap_eq_flatMap_toList] at hcut ⊢
      exact hcut
    | slot opening filling closing inside =>
      have hpassed : ∀ cut ∈ (inside.filterMap nested?).map Written.cut, cut.extent.start < closing.stop := by
        intro cut hcut
        obtain ⟨_, htile, hclosing⟩ := hfilled
        obtain ⟨_, hcut, hstop⟩ := (spec_of_tile_nested htile).1 cut hcut
        omega
      exact (Cut.sweep_cons_start _ _).trans ((Cut.sweep_append_of_lt hpassed _).trans hsweep)

end
end Region

/-- The pieces that the reader has taken up are those that are found by going through the cuts. Other cuts may have
been recorded, that start before, and it does not matter in which order all of them have been. -/
theorem Divides.pieces_cuts {content : List Fragment} {start stop : Nat} {regions : List Region} {scrubbed : Text}
    {cuts before : List Cut} (divides : Divides content start stop regions)
    (filled : ∀ region ∈ regions, region.Filled)
    (texts : ∀ first text, Region.text first text ∈ regions →
      Text.slice scrubbed first (first + Text.width text) = text)
    (earlier : ∀ cut ∈ before, cut.extent.start < start)
    (recorded : cuts.Perm (before ++ regions.flatMap Region.cuts)) :
    Cut.pieces scrubbed ⟨start, stop⟩ cuts = (Fragment.pieces content).reverse := by
  obtain ⟨hinside, hsorted⟩ := Region.spec_of_tile divides.tile filled
  have hbefore : before.filter (Cut.liesIn ⟨start, stop⟩) = [] := by
    rw [List.filter_eq_nil_iff]
    intro cut hcut
    have hstart := earlier cut hcut
    simp only [Cut.liesIn, Bool.and_eq_true, decide_eq_true_eq, not_and]
    omega
  have hregions : (regions.flatMap Region.orderedCuts).filter (Cut.liesIn ⟨start, stop⟩) =
      regions.flatMap Region.orderedCuts := by
    rw [List.filter_eq_self]
    intro cut hcut
    obtain ⟨hstart, _, hstop⟩ := hinside cut hcut
    simp only [Cut.liesIn, Bool.and_eq_true, decide_eq_true_eq]
    exact ⟨hstart, hstop⟩
  have hordered := (Region.perm_flatMap_orderedCuts regions).append_left before
  have hperm := (recorded.trans hordered).filter (Cut.liesIn ⟨start, stop⟩)
  rw [List.filter_append, hbefore, hregions, List.nil_append] at hperm
  rw [Cut.pieces, Cut.mergeSort_eq hsorted hperm, divides.pieces]
  exact Region.sweep_flatMap divides.tile filled divides.maximal texts

end Courseware
