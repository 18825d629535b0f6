import Courseware.Proofs.Markdown.OneLine
import Courseware.Proofs.Text.Slices

/-!
# Headings and breaks stand in order

A text is divided by its headings and thematic breaks, so these must not overlap and must come in reading order. A
mark ends with the line that makes it one, but it need not begin there: a heading that is underlined begins with
lines that have been read before. These are still open, and no mark has been added since they were read.

The passage of a heading is not cut out of the text but put together from lines. It stands in the text all the same,
at the place that the heading knows of, since the lines that are open follow one another without gap (`Chain`), and
definitions take whole lines of them.
-/

namespace Courseware.Markdown

/-- Marks of a text that stand one behind the other, from character to character, and passages that stand where
their headings do. -/
structure InOrder (text : Text) (marks : List Mark) : Prop where
  apart : marks.Pairwise fun first second => first.span.stop ≤ second.span.start
  within : ∀ mark ∈ marks, mark.span.start ≤ mark.span.stop ∧
    Text.isBoundary text mark.span.start = true ∧ Text.isBoundary text mark.span.stop = true
  passages : ∀ mark ∈ marks, mark.StandsIn (Text.slice text mark.span.start mark.span.stop)

theorem InOrder.concat {text : Text} {marks : List Mark} {last : Mark} (inOrder : InOrder text marks)
    (behind : ∀ mark ∈ marks, mark.span.stop ≤ last.span.start)
    (within : last.span.start ≤ last.span.stop ∧ Text.isBoundary text last.span.start = true ∧
      Text.isBoundary text last.span.stop = true)
    (passage : last.StandsIn (Text.slice text last.span.start last.span.stop)) :
    InOrder text (marks ++ [last]) where
  apart := List.pairwise_append.mpr ⟨inOrder.apart, List.pairwise_singleton _ _, fun mark hmark =>
    List.forall_mem_singleton.mpr (behind mark hmark)⟩
  within := List.forall_mem_append.mpr ⟨inOrder.within, List.forall_mem_singleton.mpr within⟩
  passages := List.forall_mem_append.mpr ⟨inOrder.passages, List.forall_mem_singleton.mpr passage⟩

/-! ## Lines -/

theorem isEnding_splitEnding {letter : Char} (h : isLineEnd letter = true) (rest : Text) :
    IsEnding (splitEnding (letter :: rest)).1 := by
  rw [isLineEnd, Bool.or_eq_true, beq_iff_eq, beq_iff_eq] at h
  unfold splitEnding
  split
  · exact .inr (.inr rfl)
  · exact .inr (.inl rfl)
  · exact .inl rfl
  · next notReturn notFeed =>
    rcases h with rfl | rfl
    · exact (notFeed rest rfl).elim
    · exact (notReturn rest rfl).elim

namespace Line

/-- A line of a text, from where it starts to where the next one does. -/
structure Lies (text : Text) (line : Line) (next : Nat) : Prop where
  part : text.IsPart line.start (line.content ++ line.ending) next
  plain : ∀ letter ∈ line.content, isLineEnd letter = false
  ending : IsEnding line.ending ∨ next = Text.width text
  marked : ∀ letter ∈ line.mark, letter = '\ufeff'

/-- The lines of a text from an offset on. -/
def Follow (text : Text) : Nat → List Line → Prop
  | _, [] => True
  | position, line :: rest => line.start = position ∧ ∃ next, line.Lies text next ∧ Follow text next rest

/-- The lines of a text from a place in it on. -/
theorem follow_scan (before rest : Text) (steps : Nat) :
    Follow (before ++ rest) (Text.width before) (scan steps (Text.width before) rest) := by
  induction steps generalizing before rest with
  | zero => cases rest <;> trivial
  | succ steps ih =>
    cases rest with
    | nil => trivial
    | cons first others =>
      rw [scan]
      · generalize first :: others = text
        generalize hcontent : text.takeWhile (fun letter => !isLineEnd letter) = content
        generalize hend : text.dropWhile (fun letter => !isLineEnd letter) = behind
        have hsplit : content ++ behind = text := by
          rw [← hcontent, ← hend]
          exact List.takeWhile_append_dropWhile
        have hdrop : text.drop content.length = behind := by rw [← hsplit, List.drop_left]
        obtain ⟨hjoin, _, hwidth⟩ := spec_of_splitEnding behind
        have hwhole : before ++ text =
            before ++ (content ++ (splitEnding behind).1) ++ (splitEnding behind).2 := by
          rw [List.append_assoc, List.append_assoc, hjoin, hsplit]
        have hnext : Text.width before + Text.width content + (splitEnding behind).1.length =
            Text.width (before ++ (content ++ (splitEnding behind).1)) := by
          rw [Text.width_append, Text.width_append, hwidth, Nat.add_assoc]
        rw [hdrop]
        show Follow _ _ (⟨_, [], content, (splitEnding behind).1⟩ ::
          scan steps (_ + (splitEnding behind).1.length) (splitEnding behind).2)
        have hlines := ih (before ++ (content ++ (splitEnding behind).1)) (splitEnding behind).2
        rw [← hwhole] at hlines
        rw [hnext]
        refine ⟨rfl, _, ⟨?_, ?_, ?_, fun letter h => absurd h List.not_mem_nil⟩, hlines⟩
        · exact ⟨before, (splitEnding behind).2, hwhole.trans (List.append_assoc _ _ _), rfl, Text.width_append _ _⟩
        · intro letter hletter
          rw [← hcontent] at hletter
          have hplain := List.mem_takeWhile_imp hletter
          rwa [Bool.not_eq_true'] at hplain
        · cases behind with
          | nil =>
            right
            rw [hwhole]
            show _ = Text.width (_ ++ [])
            rw [List.append_nil]
          | cons letter behind =>
            have hhead := List.head?_dropWhile_not (fun letter => !isLineEnd letter) text
            rw [hend] at hhead
            exact .inl (isEnding_splitEnding (by simpa using hhead) behind)
      · exact List.cons_ne_nil _ _

/-- The lines of a text follow one another, from the start of the text or behind a byte order mark. -/
theorem exists_follow_ofText (text : Text) : ∃ position, Follow text position (ofText text) := by
  unfold ofText
  split
  · next rest =>
    have hlines := follow_scan ['\ufeff'] rest rest.length
    rw [show Text.width ['\ufeff'] = 3 from rfl] at hlines
    refine ⟨3, ?_⟩
    split
    · trivial
    · next first others hscan =>
      rw [hscan] at hlines
      obtain ⟨hstart, next, lies, hrest⟩ := hlines
      exact ⟨hstart, next, ⟨lies.part, lies.plain, lies.ending, List.forall_mem_singleton.mpr rfl⟩, hrest⟩
  · exact ⟨0, follow_scan [] text text.length⟩

end Line

/-! ## Lines that are open -/

namespace BlockReader

variable {text : Text} {start stop : Nat} {line : Line} {reader next : BlockReader} {found last first : ContentLine}
  {lines later earlier others : List ContentLine} {mark : Mark}

/-- Lines of text, latest first, that follow one another without gap up to an offset. -/
def Chain (text : Text) : Nat → List ContentLine → Prop
  | _, [] => True
  | stop, line :: earlier => line.IsPlain ∧ text.IsPart line.start line.whole stop ∧
      (IsEnding line.ending ∨ stop = Text.width text) ∧ Chain text line.start earlier

theorem Chain.plain (chain : Chain text stop lines) : ∀ line ∈ lines, line.IsPlain := by
  induction lines generalizing stop with
  | nil => exact nofun
  | cons line earlier ih =>
    obtain ⟨hline, _, _, hearlier⟩ := chain
    exact List.forall_mem_cons.mpr ⟨hline, ih hearlier⟩

theorem Chain.left (chain : Chain text stop (lines ++ others)) : Chain text stop lines := by
  induction lines generalizing stop with
  | nil => trivial
  | cons line earlier ih =>
    obtain ⟨hline, hpart, hending, hearlier⟩ := chain
    exact ⟨hline, hpart, hending, ih hearlier⟩

/-- None of the lines starts behind the offset. -/
theorem Chain.start_le (chain : Chain text stop lines) : ∀ line ∈ lines, line.start ≤ stop := by
  induction lines generalizing stop with
  | nil => exact nofun
  | cons line earlier ih =>
    obtain ⟨_, hpart, _, hearlier⟩ := chain
    have hle : line.start ≤ stop := by
      rw [hpart.stop_eq]
      exact Nat.le_add_right _ _
    exact List.forall_mem_cons.mpr ⟨hle, fun other hother => (ih hearlier other hother).trans hle⟩

theorem lt_of_isPlain (plain : found.IsPlain) (part : text.IsPart found.start found.whole stop) :
    found.start < stop := by
  obtain ⟨letter, rest, htext⟩ := List.exists_cons_of_ne_nil plain.full
  have hsize := letter.utf8Size_pos
  rw [part.stop_eq, ContentLine.whole, htext, List.cons_append, Text.width_cons]
  omega

/-- Where the text goes on, all lines before have a line end. -/
theorem Chain.endings (chain : Chain text stop lines) (h : stop < Text.width text) :
    ∀ line ∈ lines, IsEnding line.ending := by
  induction lines generalizing stop with
  | nil => exact nofun
  | cons line earlier ih =>
    obtain ⟨hline, hpart, hending, hearlier⟩ := chain
    have hlt := lt_of_isPlain hline hpart
    exact List.forall_mem_cons.mpr ⟨hending.resolve_right h.ne, ih hearlier (hlt.trans h)⟩

/-- From the start of any of the lines on, they are a part of the text. -/
theorem Chain.isPart (chain : Chain text stop (later ++ first :: others)) :
    text.IsPart first.start ((later ++ [first]).reverse.flatMap ContentLine.whole) stop := by
  induction later generalizing stop with
  | nil =>
    obtain ⟨_, hpart, _⟩ := chain
    rwa [List.nil_append, List.reverse_singleton, List.flatMap_singleton]
  | cons line later ih =>
    obtain ⟨_, hpart, _, hearlier⟩ := chain
    have hboth := (ih hearlier).append hpart
    rwa [List.cons_append, List.reverse_cons, List.flatMap_append, List.flatMap_singleton]

/-- What is left of open lines behind definitions stands in the text, from the start of one of the lines on. -/
theorem Chain.exists_isPart_divide (chain : Chain text stop (last :: earlier ++ others))
    (full : (divide (last :: earlier)).2.text ≠ []) :
    ∃ first ∈ last :: earlier, ∃ part,
      Leaf.startOf (last :: earlier) (divide (last :: earlier)).2 = first.start ∧
      text.IsPart first.start part stop ∧ (divide (last :: earlier)).2.text <+: part := by
  obtain ⟨hlast, hpart, _, hearlier⟩ := chain.left
  have hend : last.start < Text.width text :=
    (lt_of_isPlain hlast hpart).trans_le (Text.le_width_of_isBoundary hpart.isBoundary.2)
  obtain ⟨later, first, behind, hsplit, hstart, htext⟩ :=
    exists_last_of_divide chain.left.plain (hearlier.endings hend) full
  have hchain := chain.left
  rw [hsplit] at hchain
  refine ⟨first, ?_, _, hstart, hchain.isPart, htext ▸ Leaf.prefix_passage _⟩
  rw [hsplit]
  exact List.mem_append_right _ List.mem_cons_self

/-! ## Marks of a text -/

/-- Where a mark is that ends with a line. -/
theorem Ends.spec (place : Ends line lines mark) (chain : Chain text line.start lines)
    (lies : line.Lies text stop) :
    mark.span.stop = line.stop ∧ text.isBoundary mark.span.start = true ∧
      (mark.span.start = line.start ∨ ∃ found ∈ lines, mark.span.start = found.start) ∧
      mark.StandsIn (text.slice mark.span.start mark.span.stop) := by
  have behind : ∀ {first : ContentLine} {part : Text} {passage : Passage}, first ∈ lines →
      mark.span = ⟨first.start, line.stop⟩ → text.IsPart first.start part line.start → passage.text <+: part →
      passage.start.width = 0 → mark.passage? = some passage →
      mark.span.stop = line.stop ∧ text.isBoundary mark.span.start = true ∧
        (mark.span.start = line.start ∨ ∃ found ∈ lines, mark.span.start = found.start) ∧
        mark.StandsIn (text.slice mark.span.start mark.span.stop) := by
    intro first part passage hfirst hspan hpart hprefix hstart hpassage
    have hslice : text.slice first.start line.stop = part ++ line.content := (hpart.append lies.part.left).slice_eq
    obtain ⟨after, rfl⟩ := hprefix
    rw [hspan, hslice]
    refine ⟨rfl, hpart.isBoundary.1, .inr ⟨first, hfirst, rfl⟩, fun other hother => ?_⟩
    obtain rfl := Option.some.inj (hpassage.symm.trans hother)
    exact ((Passage.standsIn_self hstart).append after).append line.content
  cases place with
  | alone span stands =>
    have hslice : text.slice line.start line.stop = line.content := lies.part.left.slice_eq
    rw [span, hslice]
    exact ⟨rfl, lies.part.isBoundary.1, .inl rfl, stands⟩
  | underlined first only span passage =>
    rw [only] at chain
    obtain ⟨hplain, hpart, _⟩ := chain
    exact behind (only ▸ List.mem_singleton_self _) span hpart (List.prefix_append _ _) hplain.before passage
  | under last earlier others split full span passage =>
    rw [split] at chain
    obtain ⟨first, hfirst, part, hstart, hpart, hwritten⟩ := chain.exists_isPart_divide full
    exact behind (split ▸ List.mem_append_left _ hfirst) (hstart ▸ span) hpart hwritten
      (width_start_divide fun line hline => (chain.left.plain line hline).before) passage

/-- A place in a text up to which a reader has come: the marks lie before it, one behind the other, and the
open lines go up to it, behind the marks. -/
structure UpTo (text : Text) (position : Nat) (reader : BlockReader) : Prop where
  inOrder : InOrder text reader.marks.reverse
  passed : ∀ mark ∈ reader.marks, mark.span.stop ≤ position
  chain : Chain text position reader.lines
  behind : ∀ line ∈ reader.lines, ∀ mark ∈ reader.marks, mark.span.stop ≤ line.start

theorem UpTo.initial (text : Text) (position : Nat) : UpTo text position .initial :=
  ⟨⟨.nil, nofun, nofun⟩, nofun, trivial, nofun⟩

/-- Reading a line takes the place to where the next line starts. -/
theorem UpTo.reads (upTo : UpTo text line.start reader) (reads : Reads line reader next)
    (lies : line.Lies text stop) : UpTo text stop next := by
  have hstop : line.stop ≤ stop := by
    rw [lies.part.stop_eq, Text.width_append, ← Nat.add_assoc]
    exact Nat.le_add_right _ _
  have hline : line.start ≤ line.stop := Nat.le_add_right _ _
  have hpassed : ∀ mark ∈ reader.marks, mark.span.stop ≤ stop := fun mark hmark =>
    (upTo.passed mark hmark).trans (hline.trans hstop)
  cases reads with
  | closes marks lines =>
    constructor
    case inOrder => rw [marks]; exact upTo.inOrder
    case passed => rw [marks]; exact hpassed
    case chain => rw [lines]; trivial
    case behind => rw [lines]; exact nofun
  | takes marks found kept bare lines before =>
    constructor
    case inOrder => rw [marks]; exact upTo.inOrder
    case passed => rw [marks]; exact hpassed
    case chain =>
      rw [lines]
      refine ⟨⟨bare.full, bare.text ▸ lies.plain, bare.before⟩, ?_, bare.ending ▸ lies.ending, ?_⟩
      · rw [ContentLine.whole, bare.start, bare.text, bare.ending]
        exact lies.part
      · rw [bare.start]
        rcases before with rfl | rfl
        · trivial
        · exact upTo.chain
    case behind =>
      rw [lines, marks, List.forall_mem_cons, bare.start]
      refine ⟨upTo.passed, ?_⟩
      rcases before with rfl | rfl
      · exact nofun
      · exact upTo.behind
  | ends mark marks lines place =>
    obtain ⟨hend, hboundary, hstart, hpassage⟩ := place.spec upTo.chain lies
    -- Whether the mark begins with the line or before, it begins behind the others.
    have hbehind : mark.span.start ≤ line.start ∧
        ∀ other ∈ reader.marks, other.span.stop ≤ mark.span.start := by
      rcases hstart with hsame | ⟨found, hfound, hsame⟩
      · rw [hsame]
        exact ⟨Nat.le_refl _, upTo.passed⟩
      · rw [hsame]
        exact ⟨upTo.chain.start_le found hfound, upTo.behind found hfound⟩
    constructor
    case inOrder =>
      rw [marks, List.reverse_cons]
      refine upTo.inOrder.concat (fun other hmark => hbehind.2 other (List.mem_reverse.mp hmark)) ?_ hpassage
      rw [hend]
      exact ⟨hbehind.1.trans hline, hboundary, lies.part.left.isBoundary.2⟩
    case passed =>
      rw [marks, List.forall_mem_cons, hend]
      exact ⟨hstop, hpassed⟩
    case chain => rw [lines]; trivial
    case behind => rw [lines]; exact nofun

theorem UpTo.foldl {position : Nat} (upTo : UpTo text position reader) {lines : List Line}
    (follow : Line.Follow text position lines) :
    ∃ stop, UpTo text stop (lines.foldl BlockReader.read reader) := by
  induction lines generalizing reader position with
  | nil => exact ⟨position, upTo⟩
  | cons line rest ih =>
    obtain ⟨rfl, next, lies, hrest⟩ := follow
    exact ih (upTo.reads (.read reader lies.marked) lies) hrest

end BlockReader

/-- The headings and thematic breaks of a text stand in it one behind the other, with their passages. -/
theorem inOrder_ofText (text : Text) : InOrder text ((Block.ofText text).filterMap Mark.ofBlock?) := by
  obtain ⟨position, follow⟩ := Line.exists_follow_ofText text
  obtain ⟨stop, upTo⟩ := (BlockReader.UpTo.initial text position).foldl follow
  have closes := BlockReader.Closes.settle ((Line.ofText text).foldl BlockReader.read .initial) 0
  have hmarks : (Block.ofText text).filterMap Mark.ofBlock? =
      ((Line.ofText text).foldl BlockReader.read .initial).marks.reverse := by
    rw [← closes.marks, BlockReader.marks, List.filterMap_reverse.symm]
    rfl
  rw [hmarks]
  exact upTo.inOrder

end Courseware.Markdown
