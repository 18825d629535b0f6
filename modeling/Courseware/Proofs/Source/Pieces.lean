import Courseware.Source.Restore
import Courseware.Source.Position

/-!
# What extraction guarantees

An extraction is a list of pieces that cover the document from its start to its end, and a pair of
sentinels of which the document holds neither. Neither sentinel is a digit, so the number in a
placeholder ends where its digits end. These facts are gathered in `Extraction.WellFormed`, and
`Extraction.wellFormed_of_ofSource` derives them once; whatever is proved about placeholders rests
on them and not on the way in which a document was scanned.
-/

namespace Courseware

/-! ## Text without delimiters -/

namespace Literal

/-- The characters that may open a literal, and the backslash, which may hide them. -/
def isDelimiter (letter : Char) : Bool :=
  letter == '\\' || letter == '$' || letter == '\x60' || letter == '~' || letter == '<'

/-- Text without delimiters holds no fence. -/
theorem readFence?_of_isDelimiter {text : Text}
    (h : ∀ letter ∈ text, isDelimiter letter = false) : (readFence? text).2 = .absent := by
  unfold readFence?
  simp only
  split
  · rfl
  · next marker rest hfence =>
    have hmem : marker ∈ text := by
      have hfirst : marker ∈ (Text.splitWhile Text.isIndent (splitLine text).1).2 := by
        rw [hfence]
        exact List.mem_cons_self
      exact (List.takeWhile_sublist _).mem ((List.dropWhile_sublist _).mem hfirst)
    have hmarker := h marker hmem
    simp only [isDelimiter, Bool.or_eq_false_iff] at hmarker
    rw [if_pos (by simp [hmarker, bne])]

/-- No literal starts with a character that is no delimiter. -/
theorem readLiteral?_of_isDelimiter {first : Char} {rest : Text} (h : isDelimiter first = false) :
    readLiteral? (first :: rest) = .absent := by
  simp only [isDelimiter, Bool.or_eq_false_iff, beq_eq_false_iff_ne] at h
  unfold readLiteral?
  split <;> simp_all

end Literal

namespace Piece

@[simp]
theorem sources_nil : sources [] = [] := rfl

@[simp]
theorem sources_cons (piece : Piece) (rest : List Piece) :
    sources (piece :: rest) = piece.source ++ sources rest := rfl

@[simp]
theorem sources_append (before after : List Piece) :
    sources (before ++ after) = sources before ++ sources after :=
  List.flatMap_append

@[simp]
theorem sources_map_letter (text : Text) : sources (text.map letter) = text := by
  induction text with
  | nil => rfl
  | cons first rest ih => rw [List.map_cons, sources_cons, ih, source, List.singleton_append]

@[simp]
theorem literals_append (before after : List Piece) :
    literals (before ++ after) = literals before ++ literals after := by
  induction before with
  | nil => rfl
  | cons piece rest ih =>
    cases piece with
    | letter c => exact ih
    | literal l => exact congrArg (l :: ·) ih

@[simp]
theorem literals_map_letter (text : Text) : literals (text.map letter) = [] := by
  induction text with
  | nil => rfl
  | cons first rest ih => exact ih

/-- A list of pieces is scrubbed part by part: the second part goes on counting where the first
part stops. -/
theorem scrub_append (sentinels : Sentinels) (next : Nat) (before after : List Piece) :
    scrub sentinels next (before ++ after) =
      scrub sentinels next before ++ scrub sentinels (next + (literals before).length) after := by
  induction before generalizing next with
  | nil => rfl
  | cons piece rest ih =>
    cases piece with
    | letter c => exact congrArg (c :: ·) (ih next)
    | literal l =>
      have hcount : next + 1 + (literals rest).length =
          next + (literals (literal l :: rest)).length := by
        rw [literals, List.length_cons]
        omega
      rw [List.cons_append, scrub, scrub, ih (next + 1), hcount, List.append_assoc]

/-- The blocks of a list of pieces are laid out part by part: the second part goes on from the places and
the number where the first part stops. -/
theorem blocks_append (sentinels : Sentinels) (next inSource inScrubbed : Nat)
    (before after : List Piece) :
    blocks sentinels next inSource inScrubbed (before ++ after) =
      blocks sentinels next inSource inScrubbed before ++
        blocks sentinels (next + (literals before).length) (inSource + Text.width (sources before))
          (inScrubbed + Text.width (scrub sentinels next before)) after := by
  induction before generalizing next inSource inScrubbed with
  | nil => rfl
  | cons piece rest ih =>
    cases piece with
    | letter c =>
      rw [List.cons_append, blocks, blocks, ih, sources_cons, scrub, source, Text.width_append,
        Text.width_cons, Text.width_cons, Text.width_nil, Nat.add_zero, Nat.add_assoc, Nat.add_assoc]
      rfl
    | literal l =>
      have hcount : next + 1 + (literals rest).length =
          next + (literals (literal l :: rest)).length := by
        rw [literals, List.length_cons]
        omega
      simp only [List.cons_append, blocks, ih, hcount, sources_cons, source, scrub,
        Text.width_append, Nat.add_assoc]

/-- Characters are scrubbed as they stand. -/
theorem scrub_map_letter_append (sentinels : Sentinels) (next : Nat) (text : Text)
    (rest : List Piece) :
    scrub sentinels next (text.map letter ++ rest) = text ++ scrub sentinels next rest := by
  induction text with
  | nil => rfl
  | cons first others ih => exact congrArg (first :: ·) ih

/-! ## The steps of a scan -/

/-- A fence is looked for only where a line starts. -/
theorem unfenced_of_absent {lineStart : Bool} {text : Text}
    (h : lineStart = true → (Literal.readFence? text).2 = .absent) :
    (if lineStart then Literal.readFence? text else ([], .absent)).2 = .absent := by
  cases lineStart with
  | false => rfl
  | true => exact h rfl

/-- A character that opens no literal and is no backslash is a piece of its own. -/
theorem scan_letter {lineStart : Bool} {done : List Piece} {first : Char} {rest : Text}
    (indent : Text)
    (hfence : (if lineStart then Literal.readFence? (first :: rest) else ([], .absent)) =
      (indent, .absent))
    (hread : Literal.readLiteral? (first :: rest) = .absent) (hplain : first ≠ '\\') :
    scan lineStart done (first :: rest) = scan (first == '\n') (.letter first :: done) rest := by
  rw [scan]
  split
  · next hfound => simp [hfound] at hfence
  · next hfound => simp [hfound] at hfence
  · split
    · next hfound => simp [hfound] at hread
    · next hfound => simp [hfound] at hread
    · rw [if_neg (by simpa using hplain)]

/-- A fence is a piece of its own, behind the letters of its indent. -/
theorem scan_fence {done : List Piece} {first : Char} {rest indent after : Text} {block : Literal}
    (hread : Literal.readFence? (first :: rest) = (indent, .found block after)) :
    scan true done (first :: rest) =
      scan false (.literal block :: (indent.map .letter).reverse ++ done) after := by
  rw [scan]
  split
  · next hfound =>
    rw [if_pos rfl, hread] at hfound
    obtain ⟨rfl, hblock⟩ := Prod.mk.inj hfound
    obtain ⟨rfl, rfl⟩ := Literal.Reading.found.inj hblock
    rfl
  · next hfound => simp [hread] at hfound
  · next hfound => simp [hread] at hfound

/-- A literal that is no fence is a piece of its own. -/
theorem scan_literal {lineStart : Bool} {done : List Piece} {first : Char}
    {rest after : Text} {block : Literal} (indent : Text)
    (hfence : (if lineStart then Literal.readFence? (first :: rest) else ([], .absent)) =
      (indent, .absent))
    (hread : Literal.readLiteral? (first :: rest) = .found block after) :
    scan lineStart done (first :: rest) = scan false (.literal block :: done) after := by
  rw [scan]
  split
  · next hfound => simp [hfound] at hfence
  · next hfound => simp [hfound] at hfence
  · split
    · next hfound =>
      rw [hread] at hfound
      obtain ⟨rfl, rfl⟩ := Literal.Reading.found.inj hfound
      rfl
    · next hfound => simp [hfound] at hread
    · next hfound => simp [hfound] at hread

/-- Text without delimiters on one line is scanned as its characters, whatever follows. -/
theorem scan_letters {done : List Piece} {text rest : Text}
    (h : ∀ letter ∈ text, Literal.isDelimiter letter = false ∧ letter ≠ '\n') :
    scan false done (text ++ rest) = scan false ((text.map letter).reverse ++ done) rest := by
  induction text generalizing done with
  | nil => rfl
  | cons first others ih =>
    obtain ⟨⟨hfirst, hline⟩, hothers⟩ := List.forall_mem_cons.mp h
    have hplain : first ≠ '\\' := by
      rintro rfl
      exact absurd hfirst (by decide)
    rw [List.cons_append, scan_letter [] rfl (Literal.readLiteral?_of_isDelimiter hfirst) hplain,
      beq_false_of_ne hline, ih hothers, List.map_cons, List.reverse_cons, List.append_assoc,
      List.singleton_append]

/-- Text without delimiters is scanned as its characters. -/
theorem scan_of_isDelimiter {lineStart : Bool} {done : List Piece} {text : Text}
    (h : ∀ letter ∈ text, Literal.isDelimiter letter = false) :
    scan lineStart done text = .ok (done.reverse ++ text.map letter) := by
  induction text generalizing lineStart done with
  | nil => rw [scan, List.map_nil, List.append_nil]
  | cons first rest ih =>
    obtain ⟨hfirst, hrest⟩ := List.forall_mem_cons.mp h
    have hfence := @unfenced_of_absent lineStart _ fun _ => Literal.readFence?_of_isDelimiter h
    have hplain : first ≠ '\\' := by
      rintro rfl
      exact absurd hfirst (by decide)
    rw [scan_letter _ (Prod.ext rfl hfence) (Literal.readLiteral?_of_isDelimiter hfirst) hplain,
      ih hrest,
      List.reverse_cons, List.append_assoc, List.singleton_append, List.map_cons]

/-! ## A scan covers what it reads -/

/-- Scanning loses nothing: the pieces cover the text of those read before and then the text that
was scanned. -/
theorem sources_of_scan {lineStart : Bool} {done pieces : List Piece} {text : Text}
    (h : scan lineStart done text = .ok pieces) :
    sources pieces = sources done.reverse ++ text := by
  fun_induction scan lineStart done text with
  | case1 lineStart done =>
    obtain rfl := Except.ok.inj h
    rw [List.append_nil]
  | case2 lineStart done first rest indent block after hfence ih =>
    have hread : indent ++ block.text ++ after = first :: rest := by
      split at hfence
      · exact Literal.append_of_readFence? hfence
      · simp at hfence
    rw [ih h, ← hread, List.cons_append, List.reverse_cons, List.reverse_append,
      List.reverse_reverse]
    simp only [sources_append, sources_map_letter, sources_cons, sources_nil, source,
      List.append_nil, List.append_assoc]
  | case3 => simp at h
  | case4 lineStart done first rest indent hfence block after hread ih =>
    rw [ih h, ← Literal.append_of_readLiteral? hread, List.reverse_cons]
    simp only [sources_append, sources_cons, sources_nil, source, List.append_nil,
      List.append_assoc]
  | case5 => simp at h
  | case6 lineStart done first indent hbackslash hfence hread =>
    obtain rfl := Except.ok.inj h
    rw [List.reverse_cons, sources_append]
    rfl
  | case7 lineStart done first indent hbackslash hidden after hfence hread ih =>
    rw [ih h, List.reverse_cons, List.reverse_cons]
    simp only [sources_append, sources_cons, sources_nil, source, List.append_nil,
      List.append_assoc, List.cons_append, List.nil_append]
  | case8 lineStart done first rest indent hfence hread hplain ih =>
    rw [ih h, List.reverse_cons]
    simp only [sources_append, sources_cons, sources_nil, source, List.append_nil,
      List.append_assoc, List.cons_append, List.nil_append]

end Piece

/-! ## Sentinels -/

namespace Sentinels

theorem toNat_ofNat_of_isValidChar {code : Nat} (h : code.isValidChar) :
    (Char.ofNat code).toNat = code := by
  rw [Char.ofNat, dif_pos h]
  rfl

/-- The codes of the candidates. All of them lie in the private-use ranges, past the digits. -/
theorem exists_code_of_mem_candidates {sentinels : Sentinels} (h : sentinels ∈ candidates) :
    ∃ code, sentinels = pair code ∧ 0xE000 ≤ code ∧ (code + 1).isValidChar := by
  rw [candidates, List.mem_append, List.mem_map, List.mem_map] at h
  rcases h with ⟨step, hstep, rfl⟩ | ⟨step, hstep, rfl⟩
  · rw [List.mem_range] at hstep
    refine ⟨_, rfl, by omega, Or.inr ⟨by omega, by omega⟩⟩
  · rw [List.mem_range] at hstep
    refine ⟨_, rfl, by omega, Or.inr ⟨by omega, by omega⟩⟩

theorem isDigit_ofNat_of_le {code : Nat} (hlow : 0xE000 ≤ code) (hvalid : code.isValidChar) :
    (Char.ofNat code).isDigit = false := by
  have hcode : (Char.ofNat code).val.toNat = code := toNat_ofNat_of_isValidChar hvalid
  rw [Char.isDigit, Bool.and_eq_false_iff]
  right
  have hnine : ('9' : Char).val.toNat = 57 := rfl
  rw [decide_eq_false_iff_not, UInt32.le_iff_toNat_le, hcode, hnine]
  omega

theorem isDigit_of_mem_candidates {sentinels : Sentinels} (h : sentinels ∈ candidates) :
    sentinels.opening.isDigit = false ∧ sentinels.closing.isDigit = false := by
  obtain ⟨code, rfl, hlow, hvalid⟩ := exists_code_of_mem_candidates h
  have hopening : code.isValidChar := by
    rcases hvalid with hsmall | ⟨hlarge, hbound⟩
    · exact Or.inl (by omega)
    · exact Or.inr ⟨by omega, by omega⟩
  exact ⟨isDigit_ofNat_of_le hlow hopening, isDigit_ofNat_of_le (by omega) hvalid⟩

/-- Sentinels are chosen among the candidates, and the document holds neither of them. -/
theorem spec_of_choose? {source : Text} {sentinels : Sentinels}
    (h : choose? source = some sentinels) :
    sentinels ∈ candidates ∧ sentinels.opening ∉ source ∧ sentinels.closing ∉ source := by
  rw [choose?] at h
  have hmem := List.mem_of_find?_eq_some h
  have hfree := List.find?_some h
  rw [Bool.and_eq_true, Bool.not_eq_true', Bool.not_eq_true', List.contains_eq_mem,
    List.contains_eq_mem, decide_eq_false_iff_not, decide_eq_false_iff_not] at hfree
  exact ⟨hmem, hfree⟩

/-- There are sentinels for a part of a document if there are any for the document. -/
theorem choose?_ne_none_of_subset {part source : Text} (h : part ⊆ source)
    (pool : choose? source ≠ none) : choose? part ≠ none := by
  obtain ⟨sentinels, hsentinels⟩ := Option.ne_none_iff_exists'.mp pool
  obtain ⟨hmem, hopening, hclosing⟩ := spec_of_choose? hsentinels
  intro hnone
  refine List.find?_eq_none.mp hnone sentinels hmem ?_
  rw [Bool.and_eq_true, Bool.not_eq_true', Bool.not_eq_true', List.contains_eq_mem,
    List.contains_eq_mem, decide_eq_false_iff_not, decide_eq_false_iff_not]
  exact ⟨fun hpart => hopening (h hpart), fun hpart => hclosing (h hpart)⟩

/-- A document that does not hold the first candidates is given these. -/
theorem choose?_eq_first {source : Text} (hopening : Char.ofNat 0xE000 ∉ source)
    (hclosing : Char.ofNat 0xE001 ∉ source) : choose? source = some (pair 0xE000) := by
  have hfirst : ∃ others, candidates = pair 0xE000 :: others := by
    rw [candidates, List.range_succ_eq_map, List.map_cons, List.cons_append]
    exact ⟨_, rfl⟩
  obtain ⟨others, hcandidates⟩ := hfirst
  rw [choose?, hcandidates, List.find?_cons_of_pos]
  simp only [pair, List.contains_eq_mem, hopening, hclosing, decide_false, Bool.not_false,
    Bool.and_self]

end Sentinels

/-! ## Extractions -/

namespace Extraction

/-- The facts about an extraction on which placeholders rest: the document holds neither sentinel,
and a closing sentinel ends the number before it. -/
structure WellFormed (extraction : Extraction) : Prop where
  opening_notMem : extraction.sentinels.opening ∉ extraction.source
  closing_notMem : extraction.sentinels.closing ∉ extraction.source
  opening_not_digit : extraction.sentinels.opening.isDigit = false
  closing_not_digit : extraction.sentinels.closing.isDigit = false

/-- What a successful extraction has read: its sentinels are those chosen for the document and its
pieces are those scanned in it. -/
theorem ofSource_eq_ok_iff {source : Text} {extraction : Extraction} :
    ofSource source = .ok extraction ↔
      Sentinels.choose? source = some extraction.sentinels ∧
        Piece.scan true [] source = .ok extraction.pieces := by
  unfold ofSource
  cases hchoice : Sentinels.choose? source with
  | none => simp
  | some sentinels =>
    cases hscan : Piece.scan true [] source with
    | error report => simp
    | ok pieces =>
      obtain ⟨ownSentinels, ownPieces⟩ := extraction
      simp only [Except.ok.injEq, mk.injEq, Option.some.injEq]

/-- A document without delimiters is extracted as it stands. -/
theorem ofSource_of_isDelimiter {source : Text} (hopening : Char.ofNat 0xE000 ∉ source)
    (hclosing : Char.ofNat 0xE001 ∉ source) (h : source.any Literal.isDelimiter = false) :
    ofSource source = .ok ⟨.pair 0xE000, source.map .letter⟩ := by
  refine ofSource_eq_ok_iff.mpr ⟨Sentinels.choose?_eq_first hopening hclosing, ?_⟩
  apply Piece.scan_of_isDelimiter
  intro letter hletter
  exact Bool.eq_false_iff.mpr (List.any_eq_false.mp h letter hletter)

/-- A document that begins on a line without fence and has one literal in it, and no other delimiter, is
extracted with this literal. -/
theorem ofSource_of_readLiteral? {first : Char} {before after indent : Text} {block : Literal}
    (hopening : Char.ofNat 0xE000 ∉ first :: (before ++ (block.text ++ after)))
    (hclosing : Char.ofNat 0xE001 ∉ first :: (before ++ (block.text ++ after)))
    (hfence : Literal.readFence? (first :: (before ++ (block.text ++ after))) = (indent, .absent))
    (hbefore : (first :: before).any
      (fun letter => Literal.isDelimiter letter || letter == '\n') = false)
    (hread : Literal.readLiteral? (block.text ++ after) = .found block after)
    (hafter : after.any Literal.isDelimiter = false) :
    ofSource (first :: (before ++ (block.text ++ after))) =
      .ok ⟨.pair 0xE000, .letter first :: (before.map .letter ++
        .literal block :: after.map .letter)⟩ := by
  refine ofSource_eq_ok_iff.mpr ⟨Sentinels.choose?_eq_first hopening hclosing, ?_⟩
  have hletters : ∀ letter ∈ first :: before,
      Literal.isDelimiter letter = false ∧ letter ≠ '\n' := by
    intro letter hletter
    simpa using List.any_eq_false.mp hbefore letter hletter
  have hrest : ∀ letter ∈ after, Literal.isDelimiter letter = false := by
    intro letter hletter
    exact Bool.eq_false_iff.mpr (List.any_eq_false.mp hafter letter hletter)
  obtain ⟨⟨hfirst, hline⟩, hothers⟩ := List.forall_mem_cons.mp hletters
  have hplain : first ≠ '\\' := by
    rintro rfl
    exact absurd hfirst (by decide)
  rw [Piece.scan_letter indent ((if_pos rfl).trans hfence) (Literal.readLiteral?_of_isDelimiter hfirst) hplain,
    beq_false_of_ne hline, Piece.scan_letters hothers]
  obtain ⟨opening, rest, htext⟩ :=
    List.exists_cons_of_ne_nil (Literal.text_ne_nil_of_readLiteral? hread)
  rw [htext, List.cons_append] at hread ⊢
  rw [Piece.scan_literal [] rfl hread, Piece.scan_of_isDelimiter hrest]
  simp only [List.reverse_cons, List.reverse_append, List.reverse_reverse, List.reverse_nil,
    List.nil_append, List.append_assoc, List.cons_append]

/-- The pieces of an extraction cover the document. -/
theorem source_of_ofSource {source : Text} {extraction : Extraction}
    (h : ofSource source = .ok extraction) : extraction.source = source := by
  have hscan := (ofSource_eq_ok_iff.mp h).2
  rw [Extraction.source, Piece.sources_of_scan hscan]
  rfl

theorem wellFormed_of_ofSource {source : Text} {extraction : Extraction}
    (h : ofSource source = .ok extraction) : extraction.WellFormed := by
  obtain ⟨hcandidate, hopening, hclosing⟩ := Sentinels.spec_of_choose? (ofSource_eq_ok_iff.mp h).1
  obtain ⟨hopeningDigit, hclosingDigit⟩ := Sentinels.isDigit_of_mem_candidates hcandidate
  rw [← source_of_ofSource h] at hopening hclosing
  exact ⟨hopening, hclosing, hopeningDigit, hclosingDigit⟩

end Extraction
end Courseware
