import Courseware.Proofs.Source.RoundTrip
import Courseware.Proofs.Source.Shape

/-!
# The blocks of a document

The table of blocks says of every literal where it stands in the document and where its placeholder
stands in the scrubbed text. Both places are counted from the pieces before the literal, so
`Piece.exists_of_getElem?_blocks` gives these pieces back for a block, and everything that the table
says can be read off them. That the literals themselves are well formed is a matter of the scan.
`Piece.Shaped` says it of a list of pieces behind a text, and a scan goes on adding such pieces, since a
line starts where it takes one to start.
-/

namespace Courseware

namespace Text

theorem width_pos {text : Text} (h : text ≠ []) : 0 < width text := by
  obtain ⟨first, rest, rfl⟩ := List.exists_cons_of_ne_nil h
  have hsize := first.utf8Size_pos
  rw [width_cons]
  omega

/-- A document begins with a line. -/
theorem endsLine_nil : EndsLine [] := fun last hlast => absurd hlast (Option.not_mem_none last)

theorem endsLine_concat (before : Text) {last : Char} (h : (last == '\n') = true) :
    EndsLine (before ++ [last]) := by
  intro letter hletter
  rw [List.getLast?_concat, Option.mem_some_iff] at hletter
  rw [← hletter]
  exact beq_iff_eq.mp h

end Text

/-! ## The literals of a scan -/

namespace Piece

/-- Pieces behind a text, with literals that all stand as they should. -/
inductive Shaped : Text → List Piece → Prop
  | nil {before : Text} : Shaped before []
  | letter {before : Text} {c : Char} {rest : List Piece} (shaped : Shaped (before ++ [c]) rest) :
      Shaped before (letter c :: rest)
  | literal {before : Text} {l : Literal} {rest : List Piece} (stands : l.Stands before (sources rest))
      (shaped : Shaped (before ++ l.text) rest) : Shaped before (literal l :: rest)

theorem Shaped.letters {before text : Text} {rest : List Piece}
    (shaped : Shaped (before ++ text) rest) : Shaped before (text.map Piece.letter ++ rest) := by
  induction text generalizing before with
  | nil => rwa [List.append_nil] at shaped
  | cons first others ih =>
    apply Shaped.letter
    apply ih
    rwa [List.append_assoc]

/-- Each literal stands between what the pieces before it and the pieces after it cover. -/
theorem Shaped.stands {before : Text} {first rest : List Piece} {l : Literal}
    (shaped : Shaped before (first ++ Piece.literal l :: rest)) :
    l.Stands (before ++ sources first) (sources rest) := by
  induction first generalizing before with
  | nil =>
    cases shaped with
    | literal stands _ => rwa [sources_nil, List.append_nil]
  | cons piece others ih =>
    rw [sources_cons, ← List.append_assoc]
    cases shaped with
    | letter shaped => exact ih shaped
    | literal _ shaped => exact ih shaped

theorem sources_reverse_cons (piece : Piece) (done : List Piece) :
    sources (piece :: done).reverse = sources done.reverse ++ piece.source := by
  rw [List.reverse_cons, sources_append, sources_cons, sources_nil, List.append_nil]

/-- A fence stands behind its indent, which a scan keeps as letters. -/
theorem sources_reverse_fenced (l : Literal) (indent : Text) (done : List Piece) :
    sources (literal l :: (indent.map letter).reverse ++ done).reverse =
      sources done.reverse ++ indent ++ l.text := by
  rw [List.cons_append, sources_reverse_cons, List.reverse_append, List.reverse_reverse,
    sources_append, sources_map_letter]
  rfl

/-- A scan that takes a line to start only where one does adds pieces with well-formed literals. -/
theorem shaped_of_scan {lineStart : Bool} {done pieces : List Piece} {text : Text}
    (start : lineStart = true → Text.EndsLine (sources done.reverse))
    (h : scan lineStart done text = .ok pieces) :
    ∃ rest, pieces = done.reverse ++ rest ∧ sources rest = text ∧
      Shaped (sources done.reverse) rest := by
  fun_induction scan lineStart done text with
  | case1 lineStart done =>
    obtain rfl := Except.ok.inj h
    exact ⟨[], (List.append_nil _).symm, rfl, .nil⟩
  | case2 lineStart done first rest indent block after hfence ih =>
    obtain ⟨others, rfl, rfl, shaped⟩ := ih (fun hline => absurd hline Bool.false_ne_true) h
    split at hfence
    · next hline =>
      have hstands := Literal.stands_of_readFence? (start hline) hfence
      rw [sources_reverse_fenced] at shaped
      refine ⟨indent.map letter ++ literal block :: others, ?_, ?_, (shaped.literal hstands).letters⟩
      · simp
      · rw [← Literal.append_of_readFence? hfence]
        simp [source]
    · simp at hfence
  | case3 => simp at h
  | case4 lineStart done first rest indent hfence block after hread ih =>
    obtain ⟨others, rfl, rfl, shaped⟩ := ih (fun hline => absurd hline Bool.false_ne_true) h
    rw [sources_reverse_cons] at shaped
    refine ⟨literal block :: others, ?_, Literal.append_of_readLiteral? hread,
      .literal (Literal.stands_of_readLiteral? _ hread) shaped⟩
    rw [List.reverse_cons, List.append_assoc, List.singleton_append]
  | case5 => simp at h
  | case6 lineStart done first =>
    obtain rfl := Except.ok.inj h
    exact ⟨[letter first], List.reverse_cons, rfl, .letter .nil⟩
  | case7 lineStart done first indent _ hidden after _ _ ih =>
    rw [sources_reverse_cons, sources_reverse_cons] at ih
    obtain ⟨others, rfl, rfl, shaped⟩ := ih (Text.endsLine_concat _) h
    refine ⟨letter first :: letter hidden :: others, ?_, rfl, .letter (.letter shaped)⟩
    simp
  | case8 lineStart done first rest indent _ _ _ ih =>
    rw [sources_reverse_cons] at ih
    obtain ⟨others, rfl, rfl, shaped⟩ := ih (Text.endsLine_concat _) h
    refine ⟨letter first :: others, ?_, rfl, .letter shaped⟩
    rw [List.reverse_cons, List.append_assoc, List.singleton_append]

/-! ## The table of blocks -/

/-- The block of a literal behind some pieces. -/
def blockBehind (sentinels : Sentinels) (first : List Piece) (l : Literal) : LiteralBlock :=
  let number := (literals first).length
  let start := Text.width (sources first)
  let hole := Text.width (scrub sentinels 0 first)
  { number
    literal := l
    span := ⟨start, start + Text.width l.text⟩
    placeholder := ⟨hole, hole + Text.width (sentinels.placeholder number)⟩ }

/-- The pieces before a literal among others, by the number of the literal. -/
theorem exists_of_getElem?_literals {pieces : List Piece} {index : Nat} {l : Literal}
    (h : (literals pieces)[index]? = some l) :
    ∃ first rest, pieces = first ++ literal l :: rest ∧ (literals first).length = index := by
  induction pieces generalizing index with
  | nil => exact nomatch h
  | cons piece others ih =>
    cases piece with
    | letter c =>
      obtain ⟨first, rest, rfl, hlength⟩ := ih h
      exact ⟨letter c :: first, rest, rfl, hlength⟩
    | literal other =>
      cases index with
      | zero =>
        obtain rfl := Option.some.inj h
        exact ⟨[], others, rfl, rfl⟩
      | succ index =>
        obtain ⟨first, rest, rfl, hlength⟩ := ih h
        exact ⟨literal other :: first, rest, rfl, congrArg (· + 1) hlength⟩

theorem map_literal_blocks (sentinels : Sentinels) (next inSource inScrubbed : Nat)
    (pieces : List Piece) :
    (blocks sentinels next inSource inScrubbed pieces).map LiteralBlock.literal = literals pieces := by
  induction pieces generalizing next inSource inScrubbed with
  | nil => rfl
  | cons piece rest ih =>
    cases piece with
    | letter c => exact ih _ _ _
    | literal l => exact congrArg (l :: ·) (ih _ _ _)

/-- Each block is the one of a literal behind the pieces before it, and its number is its place in the
table. -/
theorem exists_of_getElem?_blocks {sentinels : Sentinels} {pieces : List Piece} {index : Nat}
    {block : LiteralBlock} (h : (blocks sentinels 0 0 0 pieces)[index]? = some block) :
    ∃ first rest, pieces = first ++ literal block.literal :: rest ∧
      (literals first).length = index ∧ block = blockBehind sentinels first block.literal := by
  have hliteral : (literals pieces)[index]? = some block.literal := by
    rw [← map_literal_blocks sentinels 0 0 0 pieces, List.getElem?_map, h]
    rfl
  obtain ⟨first, rest, hpieces, hlength⟩ := exists_of_getElem?_literals hliteral
  have hcount : (blocks sentinels 0 0 0 first).length = index := by
    rw [← hlength, ← map_literal_blocks sentinels 0 0 0 first, List.length_map]
  refine ⟨first, rest, hpieces, hlength, ?_⟩
  rw [hpieces, blocks_append, ← hcount, List.getElem?_append_right (Nat.le_refl _), Nat.sub_self,
    Nat.zero_add, Nat.zero_add, Nat.zero_add] at h
  exact (Option.some.inj h).symm

/-- A block ends before the next one begins, in the document and in the scrubbed text. -/
theorem pairwise_blocks (sentinels : Sentinels) (next inSource inScrubbed : Nat)
    (pieces : List Piece) :
    (blocks sentinels next inSource inScrubbed pieces).Pairwise fun earlier later =>
      earlier.span.stop ≤ later.span.start ∧
        earlier.placeholder.stop ≤ later.placeholder.start := by
  induction pieces generalizing next inSource inScrubbed with
  | nil => exact List.Pairwise.nil
  | cons piece rest ih =>
    cases piece with
    | letter c => exact ih _ _ _
    | literal l =>
      apply List.Pairwise.cons _ (ih _ _ _)
      exact fun later hlater => le_start_of_mem_blocks hlater

end Piece

/-! ## Extractions -/

/-- What a block says of a document: its literal and its placeholder stand where it says, the literal is
not empty, and it is well formed between what comes before it and what comes after it. -/
structure LiteralBlock.Describes (block : LiteralBlock) (source : Text) (extraction : Extraction) :
    Prop where
  nonempty : block.span.start < block.span.stop
  inBounds : block.span.stop ≤ Text.width source
  boundaries : Text.isBoundary source block.span.start = true ∧
    Text.isBoundary source block.span.stop = true
  written : Text.slice source block.span.start block.span.stop = block.literal.text
  separated : Text.isBoundary extraction.scrubbed block.placeholder.start = true ∧
    Text.isBoundary extraction.scrubbed block.placeholder.stop = true
  replaced : Text.slice extraction.scrubbed block.placeholder.start block.placeholder.stop =
    extraction.placeholder block.number
  shaped : ∃ before after, source = before ++ (block.literal.text ++ after) ∧
    block.span = ⟨Text.width before, Text.width before + Text.width block.literal.text⟩ ∧
    block.literal.Stands before after

namespace Extraction

section

variable {source : Text} {extraction : Extraction} (extracted : ofSource source = .ok extraction)

include extracted

/-- The literals of a document stand between what the pieces around them cover. -/
theorem stands_of_ofSource {first rest : List Piece} {l : Literal}
    (hpieces : extraction.pieces = first ++ .literal l :: rest) :
    l.Stands (Piece.sources first) (Piece.sources rest) := by
  have start : true = true → Text.EndsLine (Piece.sources ([] : List Piece).reverse) :=
    fun _ => Text.endsLine_nil
  obtain ⟨pieces, hscan, _, shaped⟩ :=
    Piece.shaped_of_scan start (ofSource_eq_ok_iff.mp extracted).2
  rw [List.reverse_nil, List.nil_append] at hscan
  rw [← hscan, hpieces] at shaped
  exact shaped.stands

/-- What comes before a literal, the literal and what comes after it are the document. -/
theorem source_eq_of_pieces {first rest : List Piece} {l : Literal}
    (hpieces : extraction.pieces = first ++ .literal l :: rest) :
    source = Piece.sources first ++ (l.text ++ Piece.sources rest) := by
  rw [← source_of_ofSource extracted, Extraction.source, hpieces, Piece.sources_append]
  rfl

/-- The block at an index has the index as its number, and what it says of the document holds. -/
theorem describes_of_ofSource {index : Nat} {block : LiteralBlock}
    (hblock : extraction.blocks[index]? = some block) :
    block.number = index ∧ block.Describes source extraction := by
  obtain ⟨first, rest, hpieces, hindex, hbehind⟩ := Piece.exists_of_getElem?_blocks hblock
  have hstands := stands_of_ofSource extracted hpieces
  have hsource := source_eq_of_pieces extracted hpieces
  have hscrubbed : extraction.scrubbed = Piece.scrub extraction.sentinels 0 first ++
      (extraction.placeholder (Piece.literals first).length ++
        Piece.scrub extraction.sentinels ((Piece.literals first).length + 1) rest) := by
    rw [Extraction.scrubbed, hpieces, Piece.scrub_append, Nat.zero_add]
    rfl
  rw [hbehind]
  refine ⟨hindex, ?_⟩
  constructor
  case nonempty =>
    show Text.width (Piece.sources first) <
      Text.width (Piece.sources first) + Text.width block.literal.text
    exact Nat.lt_add_of_pos_right (Text.width_pos hstands.text_ne_nil)
  case inBounds =>
    show Text.width (Piece.sources first) + Text.width block.literal.text ≤ Text.width source
    rw [hsource, Text.width_append, Text.width_append]
    omega
  case boundaries =>
    rw [hsource]
    exact Text.isBoundary_part _ _ _
  case written =>
    rw [hsource]
    exact Text.slice_part _ _ _
  case separated =>
    rw [hscrubbed]
    exact Text.isBoundary_part _ _ _
  case replaced =>
    rw [hscrubbed]
    exact Text.slice_part _ _ _
  case shaped => exact ⟨_, _, hsource, rfl, hstands⟩

end

/-- The table of blocks of a document. The block at an index has the index as its number, blocks come in
the order of what they cover without overlap, and each of them describes a literal that is well formed and
ends as early as it may. -/
theorem ofSource_lists_blocks {source : Text} {extraction : Extraction}
    (extracted : ofSource source = .ok extraction) :
    (∀ index (block : LiteralBlock), extraction.blocks[index]? = some block →
      block.number = index ∧ block.Describes source extraction) ∧
    extraction.blocks.Pairwise fun earlier later =>
      earlier.span.start < later.span.start ∧ earlier.span.stop ≤ later.span.start := by
  constructor
  · intro index block hblock
    exact describes_of_ofSource extracted hblock
  · apply List.Pairwise.imp_of_mem _
      (Piece.pairwise_blocks extraction.sentinels 0 0 0 extraction.pieces)
    intro earlier later hearlier _ hapart
    obtain ⟨index, hindex⟩ := List.getElem?_of_mem hearlier
    have hfull := (describes_of_ofSource extracted hindex).2.nonempty
    exact ⟨Nat.lt_of_lt_of_le hfull hapart.1, hapart.1⟩

/-- A fence and inline code on the line behind it have the blocks 0 and 1. -/
theorem ofSource_lists_blocks_fenced :
    ∃ extraction block,
      ofSource ['~', '~', '~', '\n', 'x', '\n', '~', '~', '~', '\n', '\x60', 'a', '\x60'] =
        .ok extraction ∧
      extraction.blocks[1]? = some block ∧ block.number = 1 ∧
      block.Describes ['~', '~', '~', '\n', 'x', '\n', '~', '~', '~', '\n', '\x60', 'a', '\x60']
        extraction := by
  have extracted :
      ofSource ['~', '~', '~', '\n', 'x', '\n', '~', '~', '~', '\n', '\x60', 'a', '\x60'] =
        .ok ⟨.pair 0xE000, [.literal (.fence [] ['~', '~', '~', '\n'] ['x', '\n'] ['~', '~', '~']),
          .letter '\n', .literal (.inlineCode ['\x60', 'a', '\x60'])]⟩ := by
    refine ofSource_eq_ok_iff.mpr ⟨Sentinels.choose?_eq_first (by decide) (by decide), ?_⟩
    have hfence : Literal.readFence?
        ['~', '~', '~', '\n', 'x', '\n', '~', '~', '~', '\n', '\x60', 'a', '\x60'] =
          ([], .found (.fence [] ['~', '~', '~', '\n'] ['x', '\n'] ['~', '~', '~'])
            ['\n', '\x60', 'a', '\x60']) := by cbv
    have hcode : Literal.readLiteral? ['\x60', 'a', '\x60'] =
        .found (.inlineCode ['\x60', 'a', '\x60']) [] := by cbv
    rw [Piece.scan_fence hfence, Piece.scan_letter [] rfl rfl (by decide),
      Piece.scan_literal [] rfl hcode, Piece.scan]
    rfl
  obtain ⟨hnumber, hdescribes⟩ := (ofSource_lists_blocks extracted).1 1 _ rfl
  exact ⟨_, _, extracted, rfl, hnumber, hdescribes⟩

end Extraction
end Courseware
