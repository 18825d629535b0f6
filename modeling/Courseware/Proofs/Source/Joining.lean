import Courseware.Proofs.Source.Blocks
import Courseware.Proofs.Source.Openings
import Courseware.Proofs.Text.Slices

/-!
# Documents joined by a line feed

Two documents that can be extracted can be extracted as one, with a line feed between them, and what is
found in them stays what it was. A scan that has come to the end of the first document goes on behind it
as if it began there (`Piece.scan_append`): no literal is open, and it does not matter whether a line
starts, since a line feed is next. A backslash at the end hides the line feed, which is then a letter that
was not visited instead of one that was. Behind the line feed a line starts, as at the start of the second
document.
-/

namespace Courseware

namespace Piece

variable {lineStart : Bool} {done : List Piece}

theorem scan_feed (rest : Text) :
    scan lineStart done ('\n' :: rest) = scan true (letter '\n' :: done) rest :=
  scan_visited (fun _ => Literal.readFence?_of_first rfl (by decide) (by decide) rest) rfl (by decide)

/-- At the end of a line it does not matter whether one starts. -/
theorem scan_of_lineEnd {tail : Text} (htail : ∀ next ∈ tail.head?, next = '\n') :
    scan lineStart done tail = scan false done tail := by
  cases tail with
  | nil => rw [scan, scan]
  | cons feed rest => rw [htail feed rfl, scan_feed, scan_feed]

/-- What a scan has read up to the end of a line does not depend on what follows, and the scan goes on from
there. The induction is on the scan of the text alone; `base` stands for what has been read before it. -/
theorem scan_append {text : Text} {pieces : List Piece} (h : scan lineStart done text = .ok pieces) :
    ∃ read, pieces = done.reverse ++ read ∧ ∀ base tail, (∀ next ∈ tail.head?, next = '\n') →
      scan lineStart base (text ++ tail) = scan false (read.reverse ++ base) tail := by
  fun_induction scan lineStart done text with
  | case1 lineStart done =>
    obtain rfl := Except.ok.inj h
    exact ⟨[], (List.append_nil _).symm, fun base tail htail => scan_of_lineEnd htail⟩
  | case2 lineStart done first rest indent block after hfence ih =>
    obtain ⟨read, rfl, goesOn⟩ := ih h
    refine ⟨indent.map letter ++ literal block :: read, by simp, fun base tail htail => ?_⟩
    split at hfence
    · next hline =>
      have hbehind : ∀ next ∈ (after ++ tail).head?, next = '\n' := by
        have hafter := Literal.head?_of_readFence? hfence
        cases after with
        | nil => exact htail
        | cons feed following => exact hafter
      rw [hline, ← Literal.append_of_readFence? hfence, List.append_assoc, List.append_assoc,
        scan_fenced (Literal.readFence?_append hfence hbehind), goesOn _ _ htail]
      simp
    · simp at hfence
  | case3 => simp at h
  | case4 lineStart done first rest indent hfence block after hread ih =>
    obtain ⟨read, rfl, goesOn⟩ := ih h
    refine ⟨literal block :: read, by simp, fun base tail htail => ?_⟩
    have unfenced : lineStart = true →
        (Literal.readFence? (first :: rest ++ tail)).2 = .absent := by
      rintro rfl
      exact Literal.readFence?_append_feed (congrArg Prod.snd hfence) htail
    have hbehind : block.kind = .inlineCode → (after ++ tail).head? ≠ some '\x60' := by
      intro code
      have hafter := Literal.head?_of_readLiteral? hread code
      cases after with
      | nil => exact fun hhead => absurd (htail _ hhead) (by decide)
      | cons next others => exact hafter
    rw [← Literal.append_of_readLiteral? hread, List.append_assoc] at unfenced ⊢
    rw [scan_taken unfenced (Literal.readLiteral?_append hread hbehind), goesOn _ _ htail]
    simp
  | case5 => simp at h
  | case6 lineStart done first _ hbackslash =>
    obtain rfl := Except.ok.inj h
    obtain rfl := beq_iff_eq.mp hbackslash
    refine ⟨[letter '\\'], List.reverse_cons, fun base tail htail => ?_⟩
    cases tail with
    | nil =>
      rw [List.append_nil, scan_trailing, scan]
      simp
    | cons feed rest =>
      -- The line feed is hidden here and visited there, and it is the same letter.
      rw [htail feed rfl, List.singleton_append, scan_hidden, scan_feed]
      rfl
  | case7 lineStart done first _ hbackslash hidden after _ _ ih =>
    obtain ⟨read, rfl, goesOn⟩ := ih h
    obtain rfl := beq_iff_eq.mp hbackslash
    refine ⟨letter '\\' :: letter hidden :: read, by simp, fun base tail htail => ?_⟩
    rw [List.cons_append, List.cons_append, scan_hidden, goesOn _ _ htail]
    simp
  | case8 lineStart done first rest indent hfence hread hplain ih =>
    obtain ⟨read, rfl, goesOn⟩ := ih h
    refine ⟨letter first :: read, by simp, fun base tail htail => ?_⟩
    have unfenced : lineStart = true →
        (Literal.readFence? (first :: (rest ++ tail))).2 = .absent := by
      rintro rfl
      exact Literal.readFence?_append_feed (congrArg Prod.snd hfence) htail
    rw [List.cons_append, scan_visited unfenced (Literal.readLiteral?_append_feed hread htail),
      goesOn _ _ htail]
    · simp
    · simpa using hplain

/-- A scan does not depend on what was read before. -/
theorem scan_behind {text : Text} {pieces : List Piece} (h : scan lineStart [] text = .ok pieces) :
    scan lineStart done text = .ok (done.reverse ++ pieces) := by
  obtain ⟨read, rfl, goesOn⟩ := scan_append h
  have hend := goesOn done [] fun _ hnext => nomatch hnext
  rw [List.append_nil] at hend
  rw [hend, scan]
  simp

/-- Scanning two texts with a line feed between them gives the pieces of both, with a letter between them. -/
theorem scan_join {first second : Text} {pieces others : List Piece}
    (hfirst : scan true [] first = .ok pieces) (hsecond : scan true [] second = .ok others) :
    scan true [] (first ++ '\n' :: second) = .ok (pieces ++ letter '\n' :: others) := by
  obtain ⟨read, rfl, goesOn⟩ := scan_append hfirst
  rw [goesOn [] ('\n' :: second) fun next hnext => (Option.some.inj hnext).symm, scan_feed,
    scan_behind hsecond]
  simp

end Piece

/-! ## Blocks and their places -/

/-- A literal, and where it and its body stand in a document. -/
structure LiteralPlace where
  literal : Literal
  span : Span
  body : Span
deriving DecidableEq

/-- A literal moved on by a distance, with its body. -/
def LiteralPlace.shift (distance : Nat) (place : LiteralPlace) : LiteralPlace :=
  ⟨place.literal, place.span.shift distance, place.body.shift distance⟩

/-- Where the body of a literal stands: between the fences of a code block, and in the whole span of any
other literal. -/
def LiteralBlock.bodySpan (block : LiteralBlock) : Span :=
  match block.literal with
  | .fence _ opening code _ =>
    let start := block.span.start + Text.width opening
    ⟨start, start + Text.width code⟩
  | _ => block.span

/-- What a block says of the document, without its number and its placeholder. -/
def LiteralBlock.place (block : LiteralBlock) : LiteralPlace :=
  ⟨block.literal, block.span, block.bodySpan⟩

namespace Piece

/-- The places of some pieces move with the place where the pieces start, and they depend on nothing else. -/
theorem map_place_blocks (sentinels others : Sentinels)
    (next number inSource inScrubbed hole distance : Nat) (pieces : List Piece) :
    (blocks sentinels next (inSource + distance) inScrubbed pieces).map LiteralBlock.place =
      (blocks others number inSource hole pieces).map fun block => block.place.shift distance := by
  induction pieces generalizing next number inSource inScrubbed hole with
  | nil => rfl
  | cons piece rest ih =>
    cases piece with
    | letter c =>
      rw [blocks, blocks, Nat.add_right_comm, ih]
    | literal l =>
      have hplace (first second : Span) :
          (⟨next, l, ⟨inSource + distance, inSource + distance + Text.width l.text⟩, first⟩ :
            LiteralBlock).place =
          (⟨number, l, ⟨inSource, inSource + Text.width l.text⟩, second⟩ :
            LiteralBlock).place.shift distance := by
        cases l <;>
          simp [LiteralBlock.place, LiteralBlock.bodySpan, LiteralPlace.shift, Span.shift,
            Nat.add_right_comm]
      rw [blocks, blocks, List.map_cons, List.map_cons]
      refine congrArg₂ List.cons (hplace _ _) ?_
      show (blocks _ _ (inSource + distance + Text.width l.text) _ rest).map _ = _
      rw [Nat.add_right_comm]
      exact ih _ _ _ _ _

end Piece

namespace Extraction

/-- Two documents with a line feed between them are extracted as they are on their own. The blocks are those
of the first document, where they stand there, and then those of the second, moved on by the first document
and the line feed. -/
theorem ofSource_joins_lines {above below : Text} {first second : Extraction}
    (hfirst : ofSource above = .ok first) (hsecond : ofSource below = .ok second)
    (pool : Sentinels.choose? (above ++ '\n' :: below) ≠ none) :
    ∃ joined, ofSource (above ++ '\n' :: below) = .ok joined ∧
      joined.blocks.map LiteralBlock.place = first.blocks.map LiteralBlock.place ++
        second.blocks.map fun block => block.place.shift (Text.width above + 1) := by
  obtain ⟨sentinels, hsentinels⟩ := Option.ne_none_iff_exists'.mp pool
  have hjoined := Piece.scan_join (ofSource_eq_ok_iff.mp hfirst).2 (ofSource_eq_ok_iff.mp hsecond).2
  refine ⟨⟨sentinels, first.pieces ++ .letter '\n' :: second.pieces⟩,
    ofSource_eq_ok_iff.mpr ⟨hsentinels, hjoined⟩, ?_⟩
  have hwidth : Text.width (Piece.sources first.pieces) = Text.width above :=
    congrArg Text.width (source_of_ofSource hfirst)
  have hstart : 0 + Text.width above + ('\n' : Char).utf8Size = 0 + (Text.width above + 1) := by
    rw [Nat.add_assoc]
    rfl
  rw [blocks, Piece.blocks_append, List.map_append, Piece.blocks, hwidth, hstart,
    Piece.map_place_blocks _ second.sentinels _ 0 _ _ 0,
    Piece.map_place_blocks _ first.sentinels _ 0 0 _ 0 0]
  rfl

/-- A backslash at the end of the first document does not keep a fence from opening in the second. -/
theorem ofSource_joins_lines_backslash :
    ∃ first second joined, ofSource ['\x60', 'x', '\x60', '\\'] = .ok first ∧
      ofSource ['~', '~', '~', '\n', 'y', '\n', '~', '~', '~'] = .ok second ∧
      ofSource ['\x60', 'x', '\x60', '\\', '\n', '~', '~', '~', '\n', 'y', '\n', '~', '~', '~'] =
        .ok joined ∧
      joined.blocks.map LiteralBlock.place =
        [⟨.inlineCode ['\x60', 'x', '\x60'], ⟨0, 3⟩, ⟨0, 3⟩⟩,
          ⟨.fence [] ['~', '~', '~', '\n'] ['y', '\n'] ['~', '~', '~'], ⟨5, 14⟩, ⟨9, 11⟩⟩] := by
  have hfirst : ofSource ['\x60', 'x', '\x60', '\\'] = .ok ⟨.pair 0xE000,
      [.literal (.inlineCode ['\x60', 'x', '\x60']), .letter '\\']⟩ := by
    refine ofSource_eq_ok_iff.mpr ⟨Sentinels.choose?_eq_first (by decide) (by decide), ?_⟩
    have hfence : (Literal.readFence? ['\x60', 'x', '\x60', '\\']).2 = .absent := by cbv
    have hcode : Literal.readLiteral? ['\x60', 'x', '\x60', '\\'] =
        .found (.inlineCode ['\x60', 'x', '\x60']) ['\\'] := by cbv
    rw [Piece.scan_taken (fun _ => hfence) hcode, Piece.scan_trailing]
    rfl
  have hsecond : ofSource ['~', '~', '~', '\n', 'y', '\n', '~', '~', '~'] = .ok ⟨.pair 0xE000,
      [.literal (.fence [] ['~', '~', '~', '\n'] ['y', '\n'] ['~', '~', '~'])]⟩ := by
    refine ofSource_eq_ok_iff.mpr ⟨Sentinels.choose?_eq_first (by decide) (by decide), ?_⟩
    have hfence : Literal.readFence? ['~', '~', '~', '\n', 'y', '\n', '~', '~', '~'] =
        ([], .found (.fence [] ['~', '~', '~', '\n'] ['y', '\n'] ['~', '~', '~']) []) := by cbv
    rw [Piece.scan_fenced hfence, Piece.scan]
    rfl
  have hpool : Sentinels.choose?
      ['\x60', 'x', '\x60', '\\', '\n', '~', '~', '~', '\n', 'y', '\n', '~', '~', '~'] ≠ none := by
    rw [Sentinels.choose?_eq_first (by decide) (by decide)]
    exact Option.some_ne_none _
  obtain ⟨joined, hjoined, hplaces⟩ := ofSource_joins_lines hfirst hsecond hpool
  exact ⟨_, _, joined, hfirst, hsecond, hjoined, hplaces.trans (by decide)⟩

end Extraction
end Courseware
