import Courseware.Proofs.Text.Boundary
import Courseware.Text.Span

/-!
# Slices that follow one another

A text is cut into slices by offsets, each of which ends one slice and begins the next. Slices may be empty, as
they are where two offsets are the same. As long as no offset is inside a character, the slices put together are
the text again, and it does not matter whether offsets are counted in the text or in a longer one that it is a
part of. Spans that lie apart leave something between them, but they are in order all the same (`Span.LieIn`).
-/

namespace Courseware

namespace Text

variable {text : Text} {offset start middle stop : Nat}

/-- At a boundary a text falls into two parts. -/
theorem exists_append_of_isBoundary (h : isBoundary text offset = true) :
    ∃ before after, text = before ++ after ∧ offset = width before := by
  induction text generalizing offset with
  | nil => exact ⟨[], [], rfl, Nat.le_zero.mp (le_width_of_isBoundary h)⟩
  | cons letter rest ih =>
    rcases Nat.eq_zero_or_pos offset with rfl | hpos
    · exact ⟨[], letter :: rest, rfl, rfl⟩
    · rw [isBoundary_cons hpos, Bool.and_eq_true, decide_eq_true_eq] at h
      obtain ⟨before, after, rfl, hwidth⟩ := ih h.2
      refine ⟨letter :: before, after, rfl, ?_⟩
      rw [width_cons]
      omega

theorem isBoundary_width_append (before after : Text) : isBoundary (before ++ after) (width before) = true :=
  (isBoundary_append before after 0).trans (isBoundary_zero after)

/-- Between two boundaries a text has a part. -/
theorem exists_part_of_isBoundary (first : isBoundary text start = true) (last : isBoundary text stop = true)
    (h : start ≤ stop) :
    ∃ before part after, text = before ++ (part ++ after) ∧ start = width before ∧
      stop = width before + width part := by
  obtain ⟨before, rest, rfl, rfl⟩ := exists_append_of_isBoundary first
  obtain ⟨more, rfl⟩ := Nat.exists_eq_add_of_le h
  rw [isBoundary_append] at last
  obtain ⟨part, after, rfl, rfl⟩ := exists_append_of_isBoundary last
  exact ⟨before, part, after, rfl, rfl, rfl⟩

/-- The boundaries of a part are boundaries of the whole. -/
theorem isBoundary_within (before after : Text) (h : isBoundary text offset = true) :
    isBoundary (before ++ (text ++ after)) (width before + offset) = true := by
  obtain ⟨first, rest, rfl, rfl⟩ := exists_append_of_isBoundary h
  rw [isBoundary_append, List.append_assoc]
  exact isBoundary_width_append first (rest ++ after)

/-- The slices of a part are slices of the whole. -/
theorem slice_within (before after : Text) (first : isBoundary text start = true)
    (last : isBoundary text stop = true) (h : start ≤ stop) :
    slice (before ++ (text ++ after)) (width before + start) (width before + stop) = slice text start stop := by
  obtain ⟨front, part, rest, rfl, rfl, rfl⟩ := exists_part_of_isBoundary first last h
  have hwhole := slice_part (before ++ front) part (rest ++ after)
  rw [width_append, List.append_assoc] at hwhole
  rw [slice_part, ← Nat.add_assoc, List.append_assoc, List.append_assoc, hwhole]

/-- A part of a text, from an offset to another. -/
def IsPart (text : Text) (start : Nat) (part : Text) (stop : Nat) : Prop :=
  ∃ before after, text = before ++ (part ++ after) ∧ start = width before ∧ stop = width before + width part

/-- Texts that begin one text are the same if they are equally wide. -/
theorem append_inj_of_width {first second rest more : Text} (h : first ++ rest = second ++ more)
    (hwidth : width first = width second) : first = second ∧ rest = more := by
  have hfirst := takeBytes_append first rest
  have hrest := dropBytes_append first rest
  rw [h, hwidth] at hfirst hrest
  exact ⟨hfirst.symm.trans (takeBytes_append second more), hrest.symm.trans (dropBytes_append second more)⟩

namespace IsPart

variable {part next : Text}

theorem stop_eq (isPart : IsPart text start part stop) : stop = start + width part := by
  obtain ⟨before, after, _, rfl, rfl⟩ := isPart
  rfl

theorem isBoundary (isPart : IsPart text start part stop) :
    text.isBoundary start = true ∧ text.isBoundary stop = true := by
  obtain ⟨before, after, rfl, rfl, rfl⟩ := isPart
  exact isBoundary_part before part after

theorem slice_eq (isPart : IsPart text start part stop) : slice text start stop = part := by
  obtain ⟨before, after, rfl, rfl, rfl⟩ := isPart
  exact slice_part before part after

/-- Parts that meet are one. -/
theorem append (first : IsPart text start part middle) (second : IsPart text middle next stop) :
    IsPart text start (part ++ next) stop := by
  obtain ⟨before, after, rfl, rfl, rfl⟩ := first
  obtain ⟨front, rest, hsplit, hwidth, rfl⟩ := second
  rw [← List.append_assoc] at hsplit
  rw [← width_append] at hwidth
  obtain ⟨rfl, rfl⟩ := append_inj_of_width hsplit hwidth
  refine ⟨before, rest, ?_, rfl, ?_⟩
  · rw [List.append_assoc]
  · rw [width_append, width_append, Nat.add_assoc]

/-- The first of two parts that make one. -/
theorem left (isPart : IsPart text start (part ++ next) stop) : IsPart text start part (start + width part) := by
  obtain ⟨before, after, rfl, rfl, _⟩ := isPart
  exact ⟨before, next ++ after, by rw [List.append_assoc], rfl, rfl⟩

/-- The second of two parts that make one. -/
theorem right (isPart : IsPart text start (part ++ next) stop) : IsPart text (start + width part) next stop := by
  obtain ⟨before, after, rfl, rfl, rfl⟩ := isPart
  exact ⟨before ++ part, after, by simp only [List.append_assoc], (width_append _ _).symm,
    by rw [width_append, width_append, Nat.add_assoc]⟩

end IsPart

end Text

/-- Spans that go from one offset to another, each from where the one before it ends. They may be empty. -/
def Span.Through (start : Nat) : List Span → Nat → Prop
  | [], stop => start = stop
  | span :: rest, stop => span.start = start ∧ span.start ≤ span.stop ∧ Through span.stop rest stop

namespace Span.Through

variable {start stop : Nat} {spans : List Span}

theorem le (through : Through start spans stop) : start ≤ stop := by
  induction spans generalizing start with
  | nil => exact Nat.le_of_eq through
  | cons span rest ih =>
    obtain ⟨rfl, hle, hrest⟩ := through
    exact Nat.le_trans hle (ih hrest)

/-- The spans lie between the two offsets. -/
theorem mem (through : Through start spans stop) {span : Span} (h : span ∈ spans) :
    start ≤ span.start ∧ span.start ≤ span.stop ∧ span.stop ≤ stop := by
  induction spans generalizing start with
  | nil => exact absurd h List.not_mem_nil
  | cons first rest ih =>
    obtain ⟨rfl, hle, hrest⟩ := through
    rcases List.mem_cons.mp h with rfl | hmem
    · exact ⟨Nat.le_refl _, hle, hrest.le⟩
    · obtain ⟨hstart, hspan⟩ := ih hrest hmem
      exact ⟨Nat.le_trans hle hstart, hspan⟩

end Span.Through

/-- Spans that lie in a part of a text one behind the other, each from character to character. -/
structure Span.LieIn (text : Text) (outer : Span) (spans : List Span) : Prop where
  apart : spans.Pairwise fun first second => first.stop ≤ second.start
  within : ∀ span ∈ spans, outer.start ≤ span.start ∧ span.start ≤ span.stop ∧ span.stop ≤ outer.stop
  uncut : ∀ span ∈ spans, text.isBoundary span.start = true ∧ text.isBoundary span.stop = true

/-- A span moved on by a distance. -/
def Span.shift (distance : Nat) (span : Span) : Span :=
  ⟨span.start + distance, span.stop + distance⟩

namespace Span.LieIn

variable {text : Text} {outer first : Span} {spans few : List Span}

theorem nil (text : Text) (outer : Span) : LieIn text outer [] :=
  ⟨.nil, fun _ h => absurd h List.not_mem_nil, fun _ h => absurd h List.not_mem_nil⟩

theorem singleton (within : outer.start ≤ first.start ∧ first.start ≤ first.stop ∧ first.stop ≤ outer.stop)
    (uncut : text.isBoundary first.start = true ∧ text.isBoundary first.stop = true) :
    LieIn text outer [first] :=
  ⟨List.pairwise_singleton _ _, List.forall_mem_singleton.mpr within, List.forall_mem_singleton.mpr uncut⟩

/-- The first of some spans, and the others behind it. -/
theorem cases_cons (lie : LieIn text outer (first :: spans)) :
    (outer.start ≤ first.start ∧ first.start ≤ first.stop ∧ first.stop ≤ outer.stop) ∧
      (text.isBoundary first.start = true ∧ text.isBoundary first.stop = true) ∧
      LieIn text ⟨first.stop, outer.stop⟩ spans := by
  obtain ⟨hbehind, hapart⟩ := List.pairwise_cons.mp lie.apart
  obtain ⟨hfirst, hwithin⟩ := List.forall_mem_cons.mp lie.within
  obtain ⟨hboundary, huncut⟩ := List.forall_mem_cons.mp lie.uncut
  exact ⟨hfirst, hboundary, hapart, fun span h => ⟨hbehind span h, (hwithin span h).2⟩, huncut⟩

theorem sublist (lie : LieIn text outer spans) (h : few.Sublist spans) : LieIn text outer few :=
  ⟨lie.apart.sublist h, fun span hspan => lie.within span (h.mem hspan),
    fun span hspan => lie.uncut span (h.mem hspan)⟩

/-- Spans in a part of a text are spans in the text. -/
theorem shift (lie : LieIn text outer spans) (before after : Text) :
    LieIn (before ++ (text ++ after)) (outer.shift (Text.width before))
      (spans.map (Span.shift (Text.width before))) where
  apart := by
    refine List.pairwise_map.mpr (lie.apart.imp ?_)
    intro earlier later h
    exact Nat.add_le_add_right h _
  within := by
    rw [List.forall_mem_map]
    intro span h
    obtain ⟨hstart, hle, hstop⟩ := lie.within span h
    exact ⟨Nat.add_le_add_right hstart _, Nat.add_le_add_right hle _, Nat.add_le_add_right hstop _⟩
  uncut := by
    rw [List.forall_mem_map]
    intro span h
    obtain ⟨hstart, hstop⟩ := lie.uncut span h
    rw [Span.shift, Nat.add_comm span.start, Nat.add_comm span.stop]
    exact ⟨Text.isBoundary_within before after hstart, Text.isBoundary_within before after hstop⟩

end Span.LieIn
end Courseware
