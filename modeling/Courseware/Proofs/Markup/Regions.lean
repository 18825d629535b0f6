import Courseware.Proofs.Markup.Sheets
import Courseware.Proofs.Markup.Tiling

/-!
# Regions of a directive

What a directive encloses, and likewise what a slot encloses, is divided into regions: text, directives that
stand there, and slots. The reader keeps no regions. It keeps fragments, one for each lexeme that it takes up
and one for each note. `Fragment.pieces` joins those that stand next to one another, and `Divides` says that the
pieces which result are those of the regions, in order: one for each region of text, one for a nested directive
that leaves a text, and none for a slot.

Regions of text are as long as they can be, since no two of them are neighbours. That is why fragments are joined
to pieces before the two are compared: a lexeme says nothing of where a region ends.
-/

namespace Courseware

/-! ## Pieces -/

namespace Fragment

/-- Add a fragment to pieces, latest first. Text is joined to the text that ends where it starts, and what is
empty is left out. -/
def push : Fragment → List Fragment → List Fragment
  | .source start text, .source first before :: pieces =>
    if first + Text.width before = start then .source first (before ++ text) :: pieces
    else .source start text :: .source first before :: pieces
  | .nested [], pieces => pieces
  | fragment, pieces => fragment :: pieces

/-- The pieces of fragments, where both are kept latest first. -/
def pieces (latestFirst : List Fragment) : List Fragment := latestFirst.foldr push []

variable {start first : Nat} {text before : Text} {fragments : List Fragment}

@[simp]
theorem pieces_cons (fragment : Fragment) (fragments : List Fragment) :
    pieces (fragment :: fragments) = push fragment (pieces fragments) := rfl

/-- Text that follows other text is joined to it. -/
theorem push_source_of_adjoin (h : first + Text.width before = start) :
    push (.source start text) (.source first before :: fragments) =
      .source first (before ++ text) :: fragments := by
  rw [push, if_pos h]

/-- Text that follows no text, or not at once, is a piece of its own. -/
theorem push_source_of_apart
    (apart : ∀ first before, .source first before ∈ fragments.head? → first + Text.width before ≠ start) :
    push (.source start text) fragments = .source start text :: fragments := by
  cases fragments with
  | nil => rfl
  | cons fragment rest =>
    cases fragment with
    | source first before => rw [push, if_neg (apart first before rfl)]
    | nested content => rfl

theorem push_nested (content : Text) (fragments : List Fragment) :
    push (.nested content) fragments =
      if content = [] then fragments else .nested content :: fragments := by
  cases content <;> rfl

/-- Pieces have the text of the fragments. -/
theorem join_push (fragment : Fragment) (fragments : List Fragment) :
    join (push fragment fragments) = join fragments ++ fragment.text := by
  cases fragment with
  | source start content =>
    by_cases hadjoin : ∃ first before rest, fragments = .source first before :: rest ∧
        first + Text.width before = start
    · obtain ⟨first, before, rest, rfl, hstart⟩ := hadjoin
      rw [push_source_of_adjoin hstart, join_cons, join_cons, text, text, text, List.append_assoc]
    · rw [push_source_of_apart, join_cons]
      intro first before hhead hstart
      obtain ⟨rest, hrest⟩ := List.head?_eq_some_iff.mp hhead
      exact hadjoin ⟨first, before, rest, hrest, hstart⟩
  | nested content =>
    rw [push_nested]
    split
    · next hempty => rw [text, hempty, List.append_nil]
    · rw [join_cons]

theorem join_pieces (fragments : List Fragment) : join (pieces fragments) = join fragments := by
  induction fragments with
  | nil => rfl
  | cons fragment rest ih => rw [pieces_cons, join_push, join_cons, ih]

theorem flatMap_text_pieces (fragments : List Fragment) :
    (pieces fragments).reverse.flatMap Fragment.text = join fragments := join_pieces fragments

end Fragment

/-! ## Regions -/

/-- What a directive leaves in the directive that it stands in: a note its content, and others nothing. -/
def Directive.left : Directive → Text
  | note content => content
  | _ => []

/-- A region of what a directive or a slot encloses: text by the offset at which it starts, a directive, or a
slot with the lexemes that open and close it and with the regions inside it. -/
inductive Region
  | text (start : Nat) (content : Text)
  | nested (written : Written)
  | slot (opening : Lexeme) (filling : OpenSlot) (closing : Lexeme) (inside : List Region)

namespace Region

/-- The extent of a region. -/
def span : Region → Span
  | text start content => ⟨start, start + Text.width content⟩
  | nested written => written.span
  | slot opening _ closing _ => ⟨opening.start, closing.stop⟩

/-- The piece of the content that a region is, if it is one. -/
def piece? : Region → Option Fragment
  | text start content => some (.source start content)
  | nested written => if written.directive.left = [] then none else some (.nested written.directive.left)
  | slot .. => none

/-- The text that a region has in the content. -/
def leaves (region : Region) : Text := region.piece?.toList.flatMap Fragment.text

/-- Whether a region is text. -/
def isText : Region → Bool
  | text .. => true
  | _ => false

/-- Whether a region is a slot. -/
def isSlot : Region → Bool
  | slot .. => true
  | _ => false

/-- The name of a slot, and the text of what is inside it. -/
def filled? : Region → Option (String × Text)
  | slot _ filling _ inside => some (filling.name, inside.flatMap leaves)
  | _ => none

/-- The directive that a region is. -/
def nested? : Region → Option Written
  | nested written => some written
  | _ => none

/-- A region, or those inside it if it is a slot. -/
def opened : Region → List Region
  | slot _ _ _ inside => inside
  | region => [region]

/-- Regions, where those inside slots stand in place of the slots. -/
def parts (regions : List Region) : List Region := regions.flatMap opened

@[simp]
theorem parts_append (regions more : List Region) : parts (regions ++ more) = parts regions ++ parts more :=
  List.flatMap_append

/-- The last of some regions is text, or it is not. -/
theorem exists_text_or_textless (regions : List Region) :
    (∃ before start content, regions = before ++ [text start content]) ∨
      ∀ last ∈ regions.getLast?, last.isText = false := by
  rcases List.eq_nil_or_concat regions with rfl | ⟨before, last, rfl⟩
  · exact .inr nofun
  · cases last with
    | text start content => exact .inl ⟨before, start, content, List.concat_eq_append⟩
    | _ =>
      right
      intro last hlast
      rw [List.concat_eq_append, List.getLast?_concat] at hlast
      obtain rfl := Option.some.inj hlast
      rfl

/-- A piece of the source comes from a region of text. -/
theorem eq_text_of_piece? {region : Region} {start : Nat} {content : Text}
    (h : region.piece? = some (.source start content)) : region = text start content := by
  cases region with
  | text first before => cases h; rfl
  | nested written =>
    rw [piece?] at h
    split at h <;> exact nomatch h
  | slot opening filling closing inside => exact nomatch h

/-- Regions among which there is no slot are their own parts. -/
theorem parts_eq_self {regions : List Region} (plain : ∀ region ∈ regions, region.isSlot = false) :
    parts regions = regions := by
  have hopened : ∀ region ∈ regions, region.opened = [region] := by
    intro region hregion
    cases region with
    | slot opening filling closing inside => exact nomatch plain _ hregion
    | _ => rfl
  rw [parts, List.flatMap_congr hopened, List.flatMap_singleton']

end Region

/-- Add a lexeme that is text behind regions. Where the last of them is text, it becomes longer. -/
def Region.addText (regions : List Region) (lexeme : Lexeme) : List Region :=
  match regions.getLast? with
  | some (.text start content) => regions.dropLast ++ [.text start (content ++ lexeme.text)]
  | _ => regions ++ [.text lexeme.start lexeme.text]

/-- How the content of a directive or of a slot comes from the text between two offsets. The regions go through
this text, no two of them that are text are neighbours, and the pieces of the content are those of the regions.
The content is kept latest first, and the regions stand in the order of the text. -/
structure Divides (content : List Fragment) (start stop : Nat) (regions : List Region) : Prop where
  tile : Span.Tile start (regions.map Region.span) stop
  maximal : regions.IsChain fun first second => ¬(first.isText = true ∧ second.isText = true)
  pieces : (Fragment.pieces content).reverse = regions.filterMap Region.piece?

namespace Region

variable {lexeme : Lexeme} {regions : List Region}

theorem addText_concat_text (regions : List Region) (start : Nat) (content : Text) (lexeme : Lexeme) :
    addText (regions ++ [text start content]) lexeme =
      regions ++ [text start (content ++ lexeme.text)] := by
  rw [addText, List.getLast?_concat, List.dropLast_concat]

theorem addText_of_textless (textless : ∀ last ∈ regions.getLast?, last.isText = false) :
    addText regions lexeme = regions ++ [text lexeme.start lexeme.text] := by
  unfold addText
  split
  · next start content hlast => exact nomatch textless _ hlast
  · rfl

end Region

theorem Span.tile_append_cons_iff {start stop : Nat} {spans rest : List Span} {span : Span} :
    Tile start (spans ++ span :: rest) stop ↔
      Tile start spans span.start ∧ span.start < span.stop ∧ Tile span.stop rest stop := by
  induction spans generalizing start with
  | nil => exact and_congr_left fun _ => eq_comm
  | cons first others ih => simp only [List.cons_append, Tile, ih, and_assoc]

theorem Span.tile_concat_iff {start stop : Nat} {spans : List Span} {span : Span} :
    Tile start (spans ++ [span]) stop ↔
      Tile start spans span.start ∧ span.start < span.stop ∧ span.stop = stop :=
  tile_append_cons_iff

namespace Divides

variable {content : List Fragment} {start stop : Nat} {regions : List Region}

theorem nil (start : Nat) : Divides [] start start [] := ⟨rfl, .nil, rfl⟩

/-- The content has the text of the regions in it, of which slots have none. -/
theorem join_eq (divides : Divides content start stop regions) :
    Fragment.join content = regions.flatMap Region.leaves := by
  rw [← Fragment.join_pieces, Fragment.join, divides.pieces, List.filterMap_eq_flatMap_toList,
    List.flatMap_assoc]
  rfl

/-- A region that is not text is added behind the others. -/
theorem concat {more : List Fragment} (region : Region)
    (divides : Divides content start region.span.start regions) (textless : region.isText = false)
    (full : region.span.start < region.span.stop)
    (pieces : Fragment.pieces more = region.piece?.toList ++ Fragment.pieces content) :
    Divides more start region.span.stop (regions ++ [region]) where
  tile := by
    rw [List.map_append, List.map_singleton, Span.tile_concat_iff]
    exact ⟨divides.tile, full, rfl⟩
  maximal := by
    rw [List.isChain_append]
    refine ⟨divides.maximal, .singleton _, fun first _ second hsecond => ?_⟩
    obtain rfl := Option.some.inj hsecond
    exact fun h => absurd h.2 (by rw [textless]; exact Bool.false_ne_true)
  pieces := by
    rw [pieces, List.reverse_append, divides.pieces, List.filterMap_append]
    cases hpiece : region.piece? <;> simp [hpiece]

/-- Where the last region is not text, no text ends where the regions do. -/
theorem text_ne_stop (divides : Divides content start stop regions)
    (textless : ∀ last ∈ regions.getLast?, last.isText = false) {first : Nat} {before : Text}
    (h : Region.text first before ∈ regions) : first + Text.width before ≠ stop := by
  rcases List.eq_nil_or_concat regions with rfl | ⟨others, last, rfl⟩
  · exact absurd h List.not_mem_nil
  · have htile := divides.tile
    rw [List.concat_eq_append] at h htile textless
    rw [List.map_append, List.map_singleton, Span.tile_concat_iff] at htile
    obtain ⟨hothers, hlast, hstop⟩ := htile
    rcases List.mem_append.mp h with hmem | hmem
    · have hspan : first + Text.width before ≤ last.span.start :=
        (hothers.mem (List.mem_map_of_mem hmem)).2.2
      omega
    · obtain rfl := List.mem_singleton.mp hmem
      exact nomatch textless _ List.getLast?_concat

/-- Text is added behind the regions. -/
theorem addText {lexeme : Lexeme} (divides : Divides content start lexeme.start regions)
    (full : lexeme.start < lexeme.stop) :
    Divides (lexeme.fragment :: content) start lexeme.stop (Region.addText regions lexeme) := by
  have htile := divides.tile
  have hmaximal := divides.maximal
  have hpieces := divides.pieces
  rcases Region.exists_text_or_textless regions with ⟨before, first, text, rfl⟩ | textless
  · rw [List.map_append, List.map_singleton, Span.tile_concat_iff] at htile
    rw [List.filterMap_append, List.reverse_eq_iff, List.reverse_append] at hpieces
    obtain ⟨hbefore, hfirst, hstop⟩ := htile
    rw [Region.addText_concat_text]
    constructor
    case tile =>
      rw [List.map_append, List.map_singleton, Span.tile_concat_iff]
      simp only [Region.span] at hbefore hfirst hstop ⊢
      rw [Text.width_append]
      rw [Lexeme.stop] at full ⊢
      exact ⟨hbefore, by omega, by omega⟩
    case maximal =>
      rw [List.isChain_append] at hmaximal ⊢
      refine ⟨hmaximal.1, .singleton _, fun last hlast next hnext => ?_⟩
      obtain rfl := Option.some.inj hnext
      exact hmaximal.2.2 last hlast (.text first text) rfl
    case pieces =>
      have hpush := @Fragment.push_source_of_adjoin lexeme.start first lexeme.text text
        (before.filterMap Region.piece?).reverse hstop
      rw [Fragment.pieces_cons, hpieces, Lexeme.fragment, List.filterMap_append]
      exact (congrArg List.reverse hpush).trans (by rw [List.reverse_cons, List.reverse_reverse]; rfl)
  · rw [Region.addText_of_textless textless]
    constructor
    case tile =>
      rw [List.map_append, List.map_singleton, Span.tile_concat_iff]
      exact ⟨htile, full, rfl⟩
    case maximal =>
      rw [List.isChain_append]
      refine ⟨hmaximal, .singleton _, fun last hlast next _ h => ?_⟩
      exact absurd ((textless last hlast).symm.trans h.1) Bool.false_ne_true
    case pieces =>
      have happart : ∀ first before, Fragment.source first before ∈ (Fragment.pieces content).head? →
          first + Text.width before ≠ lexeme.start := by
        intro first before hhead
        have hmem := List.mem_reverse.mpr (List.mem_of_mem_head? hhead)
        rw [hpieces, List.mem_filterMap] at hmem
        obtain ⟨region, hregion, hpiece⟩ := hmem
        exact divides.text_ne_stop textless (Region.eq_text_of_piece? hpiece ▸ hregion)
      rw [Fragment.pieces_cons, Lexeme.fragment, Fragment.push_source_of_apart happart,
        List.reverse_cons, hpieces, List.filterMap_append]
      rfl

end Divides

end Courseware
