import Mathlib
import Courseware.Proofs.Source.Pieces
import Courseware.Proofs.Text.Boundary
import Courseware.Proofs.Text.Parts

/-!
# Restoring undoes extraction

A part of the scrubbed text that cuts no placeholder is the scrubbed form of some consecutive
pieces. Reading such a part, `restore` meets one placeholder for each of their literals and gives
back exactly what the pieces cover; `sourceOffset` translates the ends of the part into the ends of
what they cover. The two functions never look at each other's work, so each is related to the pieces
on its own, and `Extraction.restore_slice_scrubbed` puts them together.
-/

namespace Courseware

namespace Extraction

/-! ## Reading a placeholder -/

/-- The number in a placeholder is read back, with the literal that has this number. -/
theorem readNumber?_ofNat {extraction : Extraction}
    (hdigit : extraction.sentinels.closing.isDigit = false) {number : Nat} {literal : Literal}
    (hliteral : extraction.literals[number]? = some literal) (rest : Text) :
    extraction.readNumber? (Text.ofNat number ++ extraction.sentinels.closing :: rest) =
      some (number, literal, rest) := by
  have hdigits : ∀ letter ∈ Nat.toDigits 10 number, letter.isDigit = true := fun letter hletter =>
    Nat.isDigit_of_mem_toDigits (by decide) (by decide) hletter
  have hsplit : Text.splitWhile Char.isDigit
      (Text.ofNat number ++ extraction.sentinels.closing :: rest) =
        (Nat.toDigits 10 number, extraction.sentinels.closing :: rest) := by
    apply Text.splitWhile_append hdigits
    intro next hnext
    rwa [← Option.some.inj hnext]
  have hnonempty : (Nat.toDigits 10 number).isEmpty = false := by
    rw [List.isEmpty_eq_false_iff]
    exact Nat.toDigits_ne_nil
  have hvalue : (Nat.toDigits 10 number).foldl
      (fun value digit => 10 * value + (digit.toNat - '0'.toNat)) 0 = number := by
    rw [← Nat.ofDigitChars_eq_foldl]
    exact Nat.ofDigitChars_ten_toDigits
  simp only [readNumber?, hsplit, hnonempty, hvalue, hliteral, bne_self_eq_false, Bool.or_self,
    Bool.false_eq_true, if_false, Option.map_some]

theorem restore_nil (extraction : Extraction) : extraction.restore [] = [] := by
  rw [restore]

/-- A character that is no opening sentinel is kept. -/
theorem restore_cons {extraction : Extraction} {letter : Char}
    (h : letter ≠ extraction.sentinels.opening) (rest : Text) :
    extraction.restore (letter :: rest) = letter :: extraction.restore rest := by
  rw [restore, if_neg (by simpa using h)]

/-- Text without placeholders is restored to itself. -/
theorem restore_of_notMem {extraction : Extraction} {text : Text}
    (h : extraction.sentinels.opening ∉ text) : extraction.restore text = text := by
  induction text with
  | nil => exact extraction.restore_nil
  | cons letter rest ih =>
    obtain ⟨hletter, hrest⟩ := List.ne_and_not_mem_of_not_mem_cons h
    rw [restore_cons hletter.symm, ih hrest]

/-- A placeholder is replaced by the literal with its number. -/
theorem restore_placeholder {extraction : Extraction}
    (hdigit : extraction.sentinels.closing.isDigit = false) {number : Nat} {literal : Literal}
    (hliteral : extraction.literals[number]? = some literal) (rest : Text) :
    extraction.restore (extraction.sentinels.placeholder number ++ rest) =
      literal.text ++ extraction.restore rest := by
  have hread := readNumber?_ofNat hdigit hliteral rest
  rw [Sentinels.placeholder, List.cons_append, List.append_assoc, List.singleton_append, restore,
    if_pos (beq_self_eq_true _)]
  split
  · next found after hfound =>
    rw [hread] at hfound
    simp only [Option.some.injEq, Prod.mk.injEq] at hfound
    rw [← hfound.2.1, ← hfound.2.2]
  · next hmissing =>
    rw [hread] at hmissing
    exact absurd hmissing (by simp)

/-- Restoring the scrubbed form of consecutive pieces gives what these pieces cover. The induction
is on the pieces that are restored; `before` grows with it, because it is the pieces before a literal
that give the literal its number. -/
theorem restore_scrub {extraction : Extraction} (hwell : extraction.WellFormed)
    {before part after : List Piece} (hpieces : extraction.pieces = before ++ (part ++ after)) :
    extraction.restore (Piece.scrub extraction.sentinels (Piece.literals before).length part) =
      Piece.sources part := by
  induction part generalizing before with
  | nil => exact extraction.restore_nil
  | cons piece rest ih =>
    have hrest : extraction.pieces = (before ++ [piece]) ++ (rest ++ after) := by
      rw [hpieces, List.append_assoc, List.cons_append, List.singleton_append]
    have ih := ih hrest
    cases piece with
    | letter c =>
      have hplain : c ≠ extraction.sentinels.opening := by
        rintro rfl
        apply hwell.opening_notMem
        simp only [Extraction.source, hpieces, Piece.sources_append, List.cons_append,
          Piece.sources_cons, Piece.source, List.mem_append, List.mem_cons]
        exact Or.inr (Or.inl trivial)
      rw [Piece.literals_append, Piece.literals, Piece.literals, List.append_nil] at ih
      rw [Piece.scrub, restore_cons hplain, ih]
      rfl
    | literal l =>
      have hliteral : extraction.literals[(Piece.literals before).length]? = some l := by
        rw [Extraction.literals, hpieces, Piece.literals_append, List.cons_append, Piece.literals,
          List.getElem?_append_right (Nat.le_refl _), Nat.sub_self, List.getElem?_cons_zero]
      rw [Piece.literals_append, List.length_append] at ih
      rw [Piece.scrub, restore_placeholder hwell.closing_not_digit hliteral]
      exact congrArg (l.text ++ ·) ih

/-- Restoring the whole scrubbed text gives the document. -/
theorem restore_scrubbed {extraction : Extraction} (hwell : extraction.WellFormed) :
    extraction.restore extraction.scrubbed = extraction.source := by
  have hpieces : extraction.pieces = [] ++ (extraction.pieces ++ []) := by
    rw [List.append_nil, List.nil_append]
  exact restore_scrub hwell hpieces

end Extraction

/-! ## Translating offsets -/

namespace Piece

theorem width_placeholder_pos (sentinels : Sentinels) (number : Nat) :
    0 < Text.width (sentinels.placeholder number) := by
  have hsize := sentinels.opening.utf8Size_pos
  rw [Sentinels.placeholder, Text.width_cons]
  omega

/-- The start of some pieces is translated into the start of what they cover. -/
theorem sourceOffset_zero (sentinels : Sentinels) (next : Nat) (pieces : List Piece) :
    sourceOffset sentinels next pieces 0 = 0 := by
  cases pieces with
  | nil => rfl
  | cons piece rest =>
    cases piece with
    | letter c => exact if_pos c.utf8Size_pos
    | literal l => exact if_pos (width_placeholder_pos sentinels next)

/-- The end of the first pieces is translated into the end of what they cover. -/
theorem sourceOffset_width_scrub (sentinels : Sentinels) (next : Nat) (before after : List Piece) :
    sourceOffset sentinels next (before ++ after) (Text.width (scrub sentinels next before)) =
      Text.width (sources before) := by
  induction before generalizing next with
  | nil => exact sourceOffset_zero sentinels next after
  | cons piece rest ih =>
    cases piece with
    | letter c =>
      rw [List.cons_append, scrub, sourceOffset, Text.width_cons, if_neg (by omega),
        Nat.add_sub_cancel_left, ih next]
      rfl
    | literal l =>
      rw [List.cons_append, scrub, sourceOffset, Text.width_append]
      simp only [if_neg (Nat.not_lt.mpr (Nat.le_add_right _ _)), Nat.add_sub_cancel_left, ih]
      rw [sources_cons, Text.width_append]
      rfl

/-- The translation keeps the order of offsets. -/
theorem sourceOffset_mono (sentinels : Sentinels) (next : Nat) (pieces : List Piece)
    {first second : Nat} (hle : first ≤ second) :
    sourceOffset sentinels next pieces first ≤ sourceOffset sentinels next pieces second := by
  induction pieces generalizing next first second with
  | nil => exact hle
  | cons piece rest ih =>
    cases piece with
    | letter c =>
      have hrest := ih next (Nat.sub_le_sub_right hle c.utf8Size)
      rw [sourceOffset, sourceOffset]
      split <;> split <;> omega
    | literal l =>
      have hrest := ih (next + 1)
        (Nat.sub_le_sub_right hle (Text.width (sentinels.placeholder next)))
      simp only [sourceOffset]
      split <;> split <;> omega

/-- Pieces whose scrubbed form is empty are no pieces. -/
theorem eq_nil_of_width_scrub {sentinels : Sentinels} {next : Nat} {pieces : List Piece}
    (h : Text.width (scrub sentinels next pieces) = 0) : pieces = [] := by
  cases pieces with
  | nil => rfl
  | cons piece rest =>
    cases piece with
    | letter c =>
      have hsize := c.utf8Size_pos
      rw [scrub, Text.width_cons] at h
      omega
    | literal l =>
      have hsize := width_placeholder_pos sentinels next
      rw [scrub, Text.width_append] at h
      omega

/-- The blocks of some pieces start where the pieces start, or later, in the document and in the scrubbed
text. -/
theorem le_start_of_mem_blocks {sentinels : Sentinels} {pieces : List Piece}
    {next inSource inScrubbed : Nat} {block : LiteralBlock}
    (h : block ∈ blocks sentinels next inSource inScrubbed pieces) :
    inSource ≤ block.span.start ∧ inScrubbed ≤ block.placeholder.start := by
  induction pieces generalizing next inSource inScrubbed with
  | nil => simp [blocks] at h
  | cons piece rest ih =>
    cases piece with
    | letter c =>
      have hrest := ih h
      exact ⟨Nat.le_trans (Nat.le_add_right _ _) hrest.1, Nat.le_trans (Nat.le_add_right _ _) hrest.2⟩
    | literal l =>
      rw [blocks, List.mem_cons] at h
      rcases h with rfl | hmem
      · exact ⟨Nat.le_refl _, Nat.le_refl _⟩
      · have hrest := ih hmem
        exact ⟨Nat.le_trans (Nat.le_add_right _ _) hrest.1, Nat.le_trans (Nat.le_add_right _ _) hrest.2⟩

/-- An offset inside a placeholder is translated into the start of its literal. -/
theorem sourceOffset_of_mem_blocks {sentinels : Sentinels} {pieces : List Piece}
    {next inSource inScrubbed offset : Nat} {block : LiteralBlock}
    (h : block ∈ blocks sentinels next inSource inScrubbed pieces)
    (hstart : block.placeholder.start ≤ inScrubbed + offset)
    (hstop : inScrubbed + offset < block.placeholder.stop) :
    inSource + sourceOffset sentinels next pieces offset = block.span.start := by
  induction pieces generalizing next inSource inScrubbed offset with
  | nil => simp [blocks] at h
  | cons piece rest ih =>
    cases piece with
    | letter c =>
      rw [blocks] at h
      have hafter := (le_start_of_mem_blocks h).2
      have hoffset : inScrubbed + c.utf8Size + (offset - c.utf8Size) = inScrubbed + offset := by
        omega
      rw [← hoffset] at hstart hstop
      have hrest := ih h hstart hstop
      rw [sourceOffset, if_neg (by omega), ← hrest, Nat.add_assoc]
    | literal l =>
      rw [blocks, List.mem_cons] at h
      rcases h with rfl | hmem
      · simp only [sourceOffset]
        rw [if_pos (Nat.lt_of_add_lt_add_left hstop), Nat.add_zero]
      · have hafter := (le_start_of_mem_blocks hmem).2
        have hoffset : inScrubbed + Text.width (sentinels.placeholder next) +
            (offset - Text.width (sentinels.placeholder next)) = inScrubbed + offset := by
          omega
        have hrest := ih hmem (hoffset ▸ hstart) (hoffset ▸ hstop)
        simp only [sourceOffset]
        rw [if_neg (by omega), ← hrest, Nat.add_assoc]

/-- A boundary of the scrubbed text that lies inside no placeholder lies between two pieces. -/
theorem exists_split_of_isBoundary {sentinels : Sentinels} {pieces : List Piece}
    {next inSource inScrubbed offset : Nat}
    (hboundary : Text.isBoundary (scrub sentinels next pieces) offset = true)
    (houtside : ∀ block ∈ blocks sentinels next inSource inScrubbed pieces,
      ¬ (block.placeholder.start < inScrubbed + offset ∧
        inScrubbed + offset < block.placeholder.stop)) :
    ∃ before after, pieces = before ++ after ∧
      offset = Text.width (scrub sentinels next before) := by
  induction pieces generalizing next inSource inScrubbed offset with
  | nil =>
    refine ⟨[], [], rfl, ?_⟩
    exact Nat.le_zero.mp (Text.le_width_of_isBoundary hboundary)
  | cons piece rest ih =>
    rcases Nat.eq_zero_or_pos offset with rfl | hpos
    · exact ⟨[], piece :: rest, rfl, rfl⟩
    · cases piece with
      | letter c =>
        rw [scrub, Text.isBoundary_cons hpos, Bool.and_eq_true, decide_eq_true_eq] at hboundary
        have hoffset : inScrubbed + c.utf8Size + (offset - c.utf8Size) = inScrubbed + offset := by
          omega
        rw [blocks, ← hoffset] at houtside
        obtain ⟨before, after, hpieces, hwidth⟩ := ih hboundary.2 houtside
        refine ⟨letter c :: before, after, congrArg (letter c :: ·) hpieces, ?_⟩
        rw [scrub, Text.width_cons]
        omega
      | literal l =>
        simp only [blocks, List.forall_mem_cons] at houtside
        obtain ⟨hfirst, hothers⟩ := houtside
        have hpast : Text.width (sentinels.placeholder next) ≤ offset := by
          omega
        obtain ⟨beyond, rfl⟩ := Nat.exists_eq_add_of_le hpast
        rw [scrub, Text.isBoundary_append] at hboundary
        rw [← Nat.add_assoc] at hothers
        obtain ⟨before, after, hpieces, hwidth⟩ := ih hboundary hothers
        refine ⟨literal l :: before, after, congrArg (literal l :: ·) hpieces, ?_⟩
        rw [scrub, Text.width_append, hwidth]

end Piece

/-! ## Parts of the scrubbed text -/

namespace Extraction

/-- Whether a cut of the scrubbed text goes through no character and through no placeholder. -/
def Separates (extraction : Extraction) (offset : Nat) : Prop :=
  Text.isBoundary extraction.scrubbed offset = true ∧
    ∀ block ∈ extraction.blocks,
      ¬ (block.placeholder.start < offset ∧ offset < block.placeholder.stop)

instance (extraction : Extraction) (offset : Nat) : Decidable (extraction.Separates offset) :=
  inferInstanceAs (Decidable (_ ∧ _))

/-- A cut that separates pieces falls, in the document, between what these pieces cover. -/
theorem exists_split_of_separates {extraction : Extraction} {offset : Nat}
    (h : extraction.Separates offset) :
    ∃ before after, extraction.pieces = before ++ after ∧
      offset = Text.width (Piece.scrub extraction.sentinels 0 before) ∧
      extraction.sourceOffset offset = Text.width (Piece.sources before) := by
  obtain ⟨hboundary, houtside⟩ := h
  have hblocks : ∀ block ∈ Piece.blocks extraction.sentinels 0 0 0 extraction.pieces,
      ¬ (block.placeholder.start < 0 + offset ∧ 0 + offset < block.placeholder.stop) := by
    rw [Nat.zero_add]
    exact houtside
  obtain ⟨before, after, hpieces, hoffset⟩ := Piece.exists_split_of_isBoundary hboundary hblocks
  refine ⟨before, after, hpieces, hoffset, ?_⟩
  rw [Extraction.sourceOffset, hpieces, hoffset]
  exact Piece.sourceOffset_width_scrub extraction.sentinels 0 before after

/-- The pieces between two cuts that separate pieces. The cuts come in their order, so the pieces
before the first are the first of those before the second. -/
theorem exists_part_of_separates {extraction : Extraction} {start stop : Nat} (hle : start ≤ stop)
    (hstart : extraction.Separates start) (hstop : extraction.Separates stop) :
    ∃ before part after, extraction.pieces = before ++ (part ++ after) ∧
      start = Text.width (Piece.scrub extraction.sentinels 0 before) ∧
      stop = Text.width (Piece.scrub extraction.sentinels 0 (before ++ part)) ∧
      extraction.sourceOffset start = Text.width (Piece.sources before) ∧
      extraction.sourceOffset stop = Text.width (Piece.sources (before ++ part)) := by
  obtain ⟨first, afterFirst, hfirst, hwidthFirst, hsourceFirst⟩ := exists_split_of_separates hstart
  obtain ⟨second, afterSecond, hsecond, hwidthSecond, hsourceSecond⟩ :=
    exists_split_of_separates hstop
  rcases List.append_eq_append_iff.mp (hfirst.symm.trans hsecond) with
    ⟨part, rfl, hafter⟩ | ⟨part, rfl, hafter⟩
  · refine ⟨first, part, afterSecond, ?_, hwidthFirst, hwidthSecond, hsourceFirst, hsourceSecond⟩
    rw [hfirst, hafter]
  · have hempty : Text.width (Piece.scrub extraction.sentinels
        (0 + (Piece.literals second).length) part) = 0 := by
      rw [Piece.scrub_append, Text.width_append] at hwidthFirst
      omega
    obtain rfl := Piece.eq_nil_of_width_scrub hempty
    rw [List.append_nil] at hwidthFirst hsourceFirst
    refine ⟨second, [], afterSecond, hsecond, hwidthFirst, ?_, hsourceFirst, ?_⟩
    · rw [List.append_nil]
      exact hwidthSecond
    · rw [List.append_nil]
      exact hsourceSecond

/-- Restoring a part of the scrubbed text that cuts no placeholder gives the part of the document
between the places that its ends stand for; in particular the whole scrubbed text is restored to the
document. The translation of offsets keeps their order, and an offset inside a placeholder stands for
the start of its literal. -/
theorem restore_slice_scrubbed {source : Text} {extraction : Extraction}
    (extracted : Extraction.ofSource source = .ok extraction) :
    (∀ start stop, start ≤ stop → extraction.Separates start → extraction.Separates stop →
      extraction.restore (Text.slice extraction.scrubbed start stop) =
        Text.slice source (extraction.sourceOffset start) (extraction.sourceOffset stop)) ∧
    extraction.restore extraction.scrubbed = source ∧
    (∀ first second, first ≤ second → second ≤ Text.width extraction.scrubbed →
      extraction.sourceOffset first ≤ extraction.sourceOffset second) ∧
    ∀ block ∈ extraction.blocks, ∀ offset,
      block.placeholder.start < offset → offset < block.placeholder.stop →
        extraction.sourceOffset offset = block.span.start := by
  have hwell := wellFormed_of_ofSource extracted
  have hsource := source_of_ofSource extracted
  refine ⟨?_, (restore_scrubbed hwell).trans hsource, ?_, ?_⟩
  · intro start stop hle hstart hstop
    obtain ⟨before, part, after, hpieces, hscrubStart, hscrubStop, hsourceStart, hsourceStop⟩ :=
      exists_part_of_separates hle hstart hstop
    have hscrubbed : Text.slice extraction.scrubbed start stop =
        Piece.scrub extraction.sentinels (Piece.literals before).length part := by
      rw [Extraction.scrubbed, hscrubStart, hscrubStop, hpieces, Piece.scrub_append,
        Piece.scrub_append, Piece.scrub_append, Nat.zero_add]
      exact Text.slice_append _ _ _
    have hwritten : Text.slice source (extraction.sourceOffset start)
        (extraction.sourceOffset stop) = Piece.sources part := by
      rw [← hsource, Extraction.source, hsourceStart, hsourceStop, hpieces, Piece.sources_append,
        Piece.sources_append, Piece.sources_append]
      exact Text.slice_append _ _ _
    rw [hscrubbed, hwritten]
    exact restore_scrub hwell hpieces
  · intro first second hle _
    exact Piece.sourceOffset_mono extraction.sentinels 0 extraction.pieces hle
  · intro block hblock offset hafter hbefore
    have hstart : block.placeholder.start ≤ 0 + offset := by omega
    have hstop : 0 + offset < block.placeholder.stop := by omega
    have hlocated := Piece.sourceOffset_of_mem_blocks hblock hstart hstop
    rwa [Nat.zero_add] at hlocated

/-- Cuts around the placeholder of inline code give back the code. -/
theorem restore_slice_scrubbed_inlineCode :
    ∃ extraction, ofSource ['a', '\x60', 'x', '\x60', 'b'] = .ok extraction ∧
      extraction.restore (Text.slice extraction.scrubbed 1 8) = ['\x60', 'x', '\x60'] := by
  have extracted : ofSource ['a', '\x60', 'x', '\x60', 'b'] = .ok ⟨.pair 0xE000,
      [.letter 'a', .literal (.inlineCode ['\x60', 'x', '\x60']), .letter 'b']⟩ :=
    @ofSource_of_readLiteral? 'a' [] ['b'] [] (.inlineCode ['\x60', 'x', '\x60']) (by decide)
      (by decide) (by cbv) (by decide) (by cbv) (by decide)
  have hrestored := (restore_slice_scrubbed extracted).1 1 8 (by decide) (by decide) (by decide)
  refine ⟨_, extracted, ?_⟩
  rw [hrestored]
  decide

end Extraction
end Courseware
