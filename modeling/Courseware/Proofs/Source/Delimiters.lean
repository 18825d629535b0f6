import Courseware.Proofs.Source.Settled

/-!
# Delimiters lie in literals

A delimiter that would open a literal where it stands lies inside one, unless a backslash hides it. Where a
scan visits it, it is read as the start of a literal. Otherwise it stands behind a backslash, or the scan
has passed over it with a literal that began earlier. Such a literal holds the delimiter as a whole, since
none ends in the middle of a delimiter (`Literal.Closed.split`).

Whether a backslash hides a letter and whether a line has only had indent so far are both decided letter by
letter. `Text.hides` and `Text.indents` are the steps, and behind a literal it does not matter what stood
before it (`Literal.Closed.foldl_append`).
-/

namespace Courseware

namespace Text

/-- Whether a letter hides the one behind it: a backslash does, unless it is hidden itself. -/
def hides (hidden : Bool) (letter : Char) : Bool := letter == '\\' && !hidden

/-- Whether a line has only had indent up to a letter, given whether it had before. -/
def indents (indented : Bool) (letter : Char) : Bool :=
  letter == '\n' || (indented && isIndent letter)

/-- Whether a text ends with a backslash that hides what stands behind it. -/
def endsHiding (text : Text) : Bool := text.foldl hides false

/-- Whether a text ends at the start of a line or in its indent. -/
def endsIndented (text : Text) : Bool := text.foldl indents true

theorem hides_of_hidden (letter : Char) : hides true letter = false := Bool.and_false _

theorem hides_of_ne {letter : Char} (h : letter ≠ '\\') (hidden : Bool) :
    hides hidden letter = false := by
  rw [hides, beq_false_of_ne h, Bool.false_and]

/-- Behind a letter that is not in an indent, only a line feed begins another. -/
theorem indents_false (letter : Char) : indents false letter = (letter == '\n') := Bool.or_false _

/-- The indent at the end of a text goes back to the start of the text or to a line feed. -/
theorem foldl_indents {text : Text} (h : text.foldl indents true = true) :
    (∀ letter ∈ text, isIndent letter = true) ∨ text.foldl indents false = true := by
  induction text with
  | nil => exact .inl fun _ h => absurd h List.not_mem_nil
  | cons letter rest ih =>
    rw [List.foldl_cons] at h ⊢
    by_cases hline : letter = '\n'
    · right
      rw [hline] at h ⊢
      exact h
    · by_cases hindent : isIndent letter = true
      · have hstep : indents true letter = true := by simp [indents, hindent]
        have hreset : indents false letter = false := by simp [indents, hline]
        rw [hstep] at h
        rw [hreset, List.forall_mem_cons]
        exact (ih h).imp_left (.intro hindent)
      · right
        have hstep : indents true letter = indents false letter := by simp [indents, hindent]
        rwa [hstep] at h

end Text

namespace Literal

/-- The delimiters that open a literal where they stand: a dollar sign opens math of one kind or the
other, and a run of backticks opens a fence or inline code. A run of tildes opens a fence, but only at the
start of a line and behind its indent. The marker that closes a verbatim region opens nothing, and where no
region is open it is text. -/
inductive Opens (indented : Bool) : Text → Prop
  | dollar : Opens indented ['$']
  | ticks {count : Nat} (full : 0 < count) : Opens indented (List.replicate count '\x60')
  | tildes {count : Nat} (long : 3 ≤ count) (start : indented = true) :
      Opens indented (List.replicate count '~')
  | verbatim : Opens indented verbatimOpening

namespace Opens

variable {indented : Bool} {delimiter text rest before after : Text}

/-- Only fences of tildes depend on the indent. -/
theorem mono {other : Bool} (opens : Opens indented delimiter)
    (h : indented = true → other = true) : Opens other delimiter := by
  cases opens with
  | dollar => exact .dollar
  | ticks full => exact .ticks full
  | tildes long start => exact .tildes long (h start)
  | verbatim => exact .verbatim

/-- No delimiter is empty, and none begins with a backslash. -/
theorem exists_cons (opens : Opens indented delimiter) :
    ∃ first others, delimiter = first :: others ∧ isDelimiter first = true ∧ first ≠ '\\' := by
  cases opens with
  | dollar => exact ⟨'$', [], rfl, rfl, by decide⟩
  | @ticks count full =>
    obtain ⟨count, rfl⟩ := Nat.exists_eq_succ_of_ne_zero (Nat.pos_iff_ne_zero.mp full)
    exact ⟨'\x60', _, rfl, rfl, by decide⟩
  | @tildes count long start =>
    obtain ⟨count, rfl⟩ := Nat.exists_eq_add_of_le' long
    exact ⟨'~', _, rfl, rfl, by decide⟩
  | verbatim => exact ⟨'<', _, rfl, rfl, by decide⟩

/-- Where a delimiter stands, a literal is read. -/
theorem readLiteral?_ne_absent (opens : Opens false delimiter) (after : Text) :
    readLiteral? (delimiter ++ after) ≠ .absent := by
  intro absent
  cases opens with
  | dollar => exact (readLiteral?_eq_absent_iff.mp absent).1 rfl
  | @ticks count full =>
    obtain ⟨count, rfl⟩ := Nat.exists_eq_succ_of_ne_zero (Nat.pos_iff_ne_zero.mp full)
    exact (readLiteral?_eq_absent_iff.mp absent).2.1 rfl
  | tildes long start => cases start
  | verbatim =>
    obtain ⟨_, _, unopened⟩ := (@readLiteral?_eq_absent_iff '<' _).mp absent
    exact unopened (List.prefix_append _ _)

/-- A delimiter opens a literal wherever it stands, or it opens a fence behind the indent of a line. -/
theorem anywhere_or_fence (opens : Opens indented delimiter) :
    Opens false delimiter ∨ indented = true ∧ ∀ indent after : Text,
      (∀ letter ∈ indent, Text.isIndent letter = true) →
        (readFence? (indent ++ (delimiter ++ after))).2 ≠ .absent := by
  cases opens with
  | dollar => exact .inl .dollar
  | ticks full => exact .inl (.ticks full)
  | @tildes count long start =>
    right
    refine ⟨start, fun indent after blank => ?_⟩
    obtain ⟨more, rfl⟩ := Nat.exists_eq_add_of_le long
    rw [readFence?_indent blank, List.replicate_add, List.append_assoc]
    exact readFence?_tildes _
  | verbatim => exact .inl .verbatim

/-- A delimiter that opens a literal opens it also for a scan that has gone one letter on. Were the text up
to the delimiter an indent from where the scan has been, there would have been a fence. -/
theorem step {lineStart : Bool} {c : Char}
    (opens : Opens ((c :: before).foldl Text.indents lineStart) delimiter)
    (unfenced : lineStart = true →
      (readFence? (c :: before ++ (delimiter ++ after))).2 = .absent) :
    Opens (before.foldl Text.indents (c == '\n')) delimiter := by
  rcases opens.anywhere_or_fence with anywhere | ⟨start, fence⟩
  · exact anywhere.mono fun h => absurd h Bool.false_ne_true
  · have hline : (c :: before).foldl Text.indents false = true := by
      cases lineStart with
      | false => exact start
      | true =>
        rcases Text.foldl_indents start with blank | hline
        · exact absurd (unfenced rfl) (fence (c :: before) after blank)
        · exact hline
    rw [List.foldl_cons, Text.indents_false] at hline
    exact opens.mono fun _ => hline

/-- No delimiter begins in an indent. -/
theorem exists_of_indent (opens : Opens indented delimiter) {indent : Text}
    (blank : ∀ letter ∈ indent, Text.isIndent letter = true)
    (h : indent ++ text = before ++ (delimiter ++ after)) :
    ∃ behind, before = indent ++ behind ∧ text = behind ++ (delimiter ++ after) := by
  rcases List.append_eq_append_iff.mp h with ⟨behind, hbefore, htext⟩ | ⟨part, hindent, hdelimiter⟩
  · exact ⟨behind, hbefore, htext⟩
  · cases part with
    | nil =>
      rw [List.append_nil] at hindent
      exact ⟨[], by rw [hindent, List.append_nil], hdelimiter.symm⟩
    | cons first others =>
      obtain ⟨letter, more, rfl, hletter, _⟩ := opens.exists_cons
      obtain ⟨rfl, _⟩ := List.cons.inj hdelimiter
      have hblank := blank letter (by simp [hindent])
      rcases Text.isIndent_iff.mp hblank with rfl | rfl <;> cases hletter

/-- Inside a delimiter no literal ends. -/
theorem inside (opens : Opens indented delimiter) {start more : Text} {last next : Char}
    (h : delimiter = start ++ last :: next :: more) :
    last ≠ '$' ∧ last ≠ '>' ∧ (last = '\x60' → next = '\x60') ∧ next ≠ '\n' := by
  have hlast : last ∈ delimiter := by simp [h]
  have hnext : next ∈ delimiter := by simp [h]
  cases opens with
  | dollar => cases start <;> simp at h
  | ticks full =>
    rw [List.eq_of_mem_replicate hlast, List.eq_of_mem_replicate hnext]
    decide
  | tildes long start =>
    rw [List.eq_of_mem_replicate hlast, List.eq_of_mem_replicate hnext]
    decide
  | verbatim =>
    have hearlier : last ∈ verbatimOpening.dropLast := by
      rw [h]
      simp
    have hletters : '$' ∉ verbatimOpening.dropLast ∧ '>' ∉ verbatimOpening.dropLast ∧
        '\x60' ∉ verbatimOpening.dropLast ∧ '\n' ∉ verbatimOpening := by decide
    obtain ⟨hdollar, hangle, htick, hline⟩ := hletters
    exact ⟨ne_of_mem_of_not_mem hearlier hdollar, ne_of_mem_of_not_mem hearlier hangle,
      fun heq => absurd heq (ne_of_mem_of_not_mem hearlier htick), ne_of_mem_of_not_mem hnext hline⟩

end Opens

/-- A literal ends before a delimiter or after it, not in the middle. -/
theorem Closed.split {indented : Bool} {text rest before delimiter after : Text}
    (closed : Closed text rest) (opens : Opens indented delimiter)
    (h : text ++ rest = before ++ (delimiter ++ after)) :
    (∃ tail, text = before ++ (delimiter ++ tail)) ∨
      ∃ lead, before = text ++ lead ∧ rest = lead ++ (delimiter ++ after) := by
  rcases List.append_eq_append_iff.mp h with ⟨lead, hbefore, hrest⟩ | ⟨part, htext, hdelimiter⟩
  · exact .inr ⟨lead, hbefore, hrest⟩
  · rcases List.append_eq_append_iff.mp hdelimiter with ⟨tail, hpart, _⟩ | ⟨tail, hcut, hrest⟩
    · exact .inl ⟨tail, by rw [htext, hpart]⟩
    · rcases List.eq_nil_or_concat part with rfl | ⟨start, last, rfl⟩
      · rw [List.nil_append] at hcut
        rw [List.append_nil] at htext
        exact .inr ⟨[], by rw [htext, List.append_nil], by rw [hrest, hcut, List.nil_append]⟩
      · cases tail with
        | nil =>
          rw [List.append_nil] at hcut
          exact .inl ⟨[], by rw [htext, hcut, List.append_nil]⟩
        | cons next more =>
          rw [List.concat_eq_append] at hcut htext
          rw [List.append_assoc, List.singleton_append] at hcut
          obtain ⟨hdollar, hangle, htick, hline⟩ := opens.inside hcut
          exfalso
          rw [hrest, List.cons_append, Closed, List.head?_cons] at closed
          rcases closed with hend | ⟨lead, final, hfinal, hkind⟩
          · exact hline (hend next rfl)
          · rw [htext, ← List.append_assoc] at hfinal
            have hsame : last = final := by simpa using congrArg List.getLast? hfinal
            rw [← hsame] at hkind
            rcases hkind with hdollar' | hangle' | ⟨htick', hnext⟩
            · exact hdollar hdollar'
            · exact hangle hangle'
            · exact hnext (congrArg some (htick htick'))

/-- Behind a literal it does not matter what stood before it: what `step` keeps track of is lost with the
last letter of the literal, or with the line feed behind it. -/
theorem Closed.foldl_append {indented : Bool} {text rest lead delimiter after : Text}
    (closed : Closed text rest) (opens : Opens indented delimiter)
    (h : rest = lead ++ (delimiter ++ after)) {step : Bool → Char → Bool}
    (feed : ∀ state, step state '\n' = step false '\n')
    (ends : ∀ state, step state '$' = false ∧ step state '>' = false ∧ step state '\x60' = false)
    (state : Bool) : (text ++ lead).foldl step state = lead.foldl step false := by
  rw [List.foldl_append]
  rcases closed with hend | ⟨start, last, rfl, hlast⟩
  · cases lead with
    | nil =>
      obtain ⟨first, others, rfl, hdelimiter, _⟩ := opens.exists_cons
      rw [hend first (by rw [h]; rfl)] at hdelimiter
      cases hdelimiter
    | cons first others =>
      have hfirst : first = '\n' := hend first (by rw [h]; rfl)
      rw [List.foldl_cons, List.foldl_cons, hfirst, feed]
  · have hstate : (start ++ [last]).foldl step state = false := by
      rw [List.foldl_append, List.foldl_cons, List.foldl_nil]
      obtain ⟨hdollar, hangle, htick⟩ := ends (start.foldl step state)
      rcases hlast with rfl | rfl | ⟨rfl, _⟩
      · exact hdollar
      · exact hangle
      · exact htick
    rw [hstate]

end Literal

namespace Piece

variable {lineStart : Bool} {pieces : List Piece}

/-- Every delimiter that is not hidden lies in a literal. The induction is on the scan; `before` is what
stands between the place where it has come to and the delimiter, so a backslash hides the delimiter exactly
when it stands in `before`. -/
theorem Scanned.covers (scanned : Scanned lineStart pieces) {before delimiter after : Text}
    (h : sources pieces = before ++ (delimiter ++ after))
    (unhidden : before.foldl Text.hides false = false)
    (opens : Literal.Opens (before.foldl Text.indents lineStart) delimiter) :
    ∃ first l rest lead tail, pieces = first ++ literal l :: rest ∧
      before = sources first ++ lead ∧ l.text = lead ++ (delimiter ++ tail) := by
  induction scanned generalizing before with
  | nil =>
    obtain ⟨first, others, rfl, _, _⟩ := opens.exists_cons
    simp at h
  | @visited lineStart c rest unfenced plain visible scanned ih =>
    cases before with
    | nil =>
      have hsource : c :: sources rest = delimiter ++ after := h
      rw [hsource] at unfenced plain
      rcases opens.anywhere_or_fence with anywhere | ⟨start, fence⟩
      · exact absurd plain (anywhere.readLiteral?_ne_absent after)
      · exact absurd (unfenced start) (fence [] after fun _ h => absurd h List.not_mem_nil)
    | cons first others =>
      obtain ⟨rfl, hothers⟩ := List.cons.inj h
      have hsource : c :: sources rest = c :: others ++ (delimiter ++ after) := h
      rw [hsource] at unfenced
      rw [List.foldl_cons, Text.hides_of_ne visible] at unhidden
      obtain ⟨front, l, back, lead, tail, rfl, rfl, hl⟩ := ih hothers unhidden (opens.step unfenced)
      exact ⟨letter c :: front, l, back, lead, tail, rfl, rfl, hl⟩
  | @hidden lineStart c rest scanned ih =>
    cases before with
    | nil =>
      obtain ⟨first, others, rfl, _, hfirst⟩ := opens.exists_cons
      exact absurd (List.cons.inj h).1.symm hfirst
    | cons first others =>
      obtain ⟨rfl, hothers⟩ := List.cons.inj h
      cases others with
      | nil => cases unhidden
      | cons second others =>
        obtain ⟨rfl, hrest⟩ := List.cons.inj hothers
        have hhidden : Text.hides false '\\' = true := rfl
        have hindent : Text.indents lineStart '\\' = false := Bool.and_false _
        rw [List.foldl_cons, List.foldl_cons, hhidden, Text.hides_of_hidden] at unhidden
        rw [List.foldl_cons, List.foldl_cons, hindent, Text.indents_false] at opens
        obtain ⟨front, l, back, lead, tail, rfl, rfl, hl⟩ := ih hrest unhidden opens
        exact ⟨letter '\\' :: letter c :: front, l, back, lead, tail, rfl, rfl, hl⟩
  | trailing =>
    obtain ⟨first, others, rfl, _, hfirst⟩ := opens.exists_cons
    cases before with
    | nil => exact absurd (List.cons.inj h).1.symm hfirst
    | cons first others => simp [sources, source] at h
  | @taken lineStart indent l rest blank closed scanned ih =>
    have hsource : indent ++ (l.text ++ sources rest) = before ++ (delimiter ++ after) := by
      rw [← h, sources_append, sources_map_letter, sources_cons, source]
    obtain ⟨behind, rfl, hbehind⟩ := opens.exists_of_indent blank hsource
    rcases closed.split opens hbehind with ⟨tail, htext⟩ | ⟨lead, rfl, hrest⟩
    · refine ⟨indent.map letter, l, rest, behind, tail, rfl, ?_, htext⟩
      rw [sources_map_letter]
    · have hhides : lead.foldl Text.hides false = false := by
        rw [List.foldl_append] at unhidden
        rwa [← closed.foldl_append opens hrest (fun _ => rfl) (fun _ => ⟨rfl, rfl, rfl⟩)]
      have hindents : lead.foldl Text.indents false =
          (indent ++ (l.text ++ lead)).foldl Text.indents lineStart := by
        rw [List.foldl_append]
        have ends : ∀ state, Text.indents state '$' = false ∧ Text.indents state '>' = false ∧
            Text.indents state '\x60' = false := fun state =>
          ⟨Bool.and_false state, Bool.and_false state, Bool.and_false state⟩
        exact (closed.foldl_append opens hrest (fun _ => rfl) ends _).symm
      rw [← hindents] at opens
      obtain ⟨front, other, back, lead', tail, rfl, rfl, hl⟩ := ih hrest hhides opens
      refine ⟨indent.map letter ++ literal l :: front, other, back, lead', tail, ?_, ?_, hl⟩
      · simp
      · simp [source]

/-- Letters have no blocks. -/
theorem blocks_map_letter (sentinels : Sentinels) (next inSource inScrubbed : Nat) (text : Text) :
    blocks sentinels next inSource inScrubbed (text.map letter) = [] := by
  induction text generalizing inSource inScrubbed with
  | nil => rfl
  | cons first rest ih => exact ih _ _

/-- A literal among the pieces has a block with the span that it covers. -/
theorem exists_block_of_literal (sentinels : Sentinels) (next inSource inScrubbed : Nat)
    (first : List Piece) (l : Literal) (rest : List Piece) :
    ∃ block ∈ blocks sentinels next inSource inScrubbed (first ++ literal l :: rest),
      block.span.start = inSource + Text.width (sources first) ∧
        block.span.stop = block.span.start + Text.width l.text := by
  rw [blocks_append]
  exact ⟨_, List.mem_append_right _ List.mem_cons_self, rfl, rfl⟩

end Piece
namespace Extraction

/-- Extraction leaves no literal behind. The scrubbed text can be extracted again if there are sentinels for
it, and then there are no blocks in it and it stays as it is. Every delimiter of the document that opens a
literal where it stands, and is not hidden by a backslash, lies inside a block. -/
theorem ofSource_leaves_nothing {source : Text} {extraction : Extraction}
    (extracted : ofSource source = .ok extraction) :
    (Sentinels.choose? extraction.scrubbed ≠ none →
      ∃ again, ofSource extraction.scrubbed = .ok again ∧ again.blocks = [] ∧
        again.scrubbed = extraction.scrubbed) ∧
    ∀ before delimiter after, source = before ++ (delimiter ++ after) →
      Text.endsHiding before = false → Literal.Opens (Text.endsIndented before) delimiter →
        ∃ block ∈ extraction.blocks, block.span.start ≤ Text.width before ∧
          Text.width before + Text.width delimiter ≤ block.span.stop := by
  have reserved := reserved_of_ofSource extracted
  obtain ⟨_, hscan⟩ := ofSource_eq_ok_iff.mp extracted
  obtain ⟨pieces, hpieces, hsource, scanned⟩ := Piece.scanned_of_scan hscan
  rw [List.reverse_nil, List.nil_append] at hpieces
  subst hpieces
  constructor
  · intro hchoice
    obtain ⟨sentinels, hsentinels⟩ := Option.ne_none_iff_exists'.mp hchoice
    refine ⟨⟨sentinels, extraction.scrubbed.map .letter⟩, ?_, ?_, ?_⟩
    · exact ofSource_eq_ok_iff.mpr ⟨hsentinels, scanned.scan_scrub reserved 0 []⟩
    · exact Piece.blocks_map_letter sentinels 0 0 0 _
    · have hletters := Piece.scrub_map_letter_append sentinels 0 extraction.scrubbed []
      rwa [List.append_nil, Piece.scrub, List.append_nil] at hletters
  · intro before delimiter after hsplit unhidden opens
    obtain ⟨first, l, rest, lead, tail, hpieces, rfl, hl⟩ :=
      scanned.covers (hsource.trans hsplit) unhidden opens
    obtain ⟨block, hblock, hstart, hstop⟩ :=
      Piece.exists_block_of_literal extraction.sentinels 0 0 0 first l rest
    refine ⟨block, ?_, ?_, ?_⟩
    · rw [blocks, hpieces]
      exact hblock
    · rw [hstart, Text.width_append]
      omega
    · rw [hstop, hstart, hl, Text.width_append, Text.width_append, Text.width_append]
      omega

/-- Inline code between two letters lies in a block, and nothing is left beside its placeholder. -/
theorem ofSource_leaves_nothing_inlineCode :
    ∃ extraction again, ofSource ['a', '\x60', 'x', '\x60', 'b'] = .ok extraction ∧
      ofSource extraction.scrubbed = .ok again ∧ again.blocks = [] ∧
      again.scrubbed = extraction.scrubbed ∧
      ∃ block ∈ extraction.blocks, block.span.start ≤ 1 ∧ 2 ≤ block.span.stop := by
  have extracted : ofSource ['a', '\x60', 'x', '\x60', 'b'] = .ok ⟨.pair 0xE000,
      [.letter 'a', .literal (.inlineCode ['\x60', 'x', '\x60']), .letter 'b']⟩ :=
    @ofSource_of_readLiteral? 'a' [] ['b'] [] (.inlineCode ['\x60', 'x', '\x60']) (by decide)
      (by decide) (by cbv) (by decide) (by cbv) (by decide)
  obtain ⟨settled, covered⟩ := ofSource_leaves_nothing extracted
  have hchoice : Sentinels.choose? (scrubbed ⟨.pair 0xE000,
      [.letter 'a', .literal (.inlineCode ['\x60', 'x', '\x60']), .letter 'b']⟩) ≠ none := by
    intro hnone
    have hmem : Sentinels.pair 0xE002 ∈ Sentinels.candidates :=
      List.mem_append_left _ (List.mem_map.mpr ⟨1, List.mem_range.mpr (by decide), rfl⟩)
    exact List.find?_eq_none.mp hnone _ hmem (by decide)
  obtain ⟨again, hagain, hblocks, hscrubbed⟩ := settled hchoice
  exact ⟨_, again, extracted, hagain, hblocks, hscrubbed,
    covered ['a'] ['\x60'] ['x', '\x60', 'b'] rfl rfl (.ticks Nat.one_pos)⟩

/-- A document in which a verbatim region is closed that has not been opened. -/
def strayMarker : Text := "a <!-- /verbatim --> b".toList

/-- The marker that closes a verbatim region lies in no block where no region is open, although no backslash
hides it. -/
theorem ofSource_leaves_strayMarker :
    ∃ extraction, ofSource strayMarker = .ok extraction ∧
      strayMarker = "a ".toList ++ (Literal.verbatimClosing ++ " b".toList) ∧
      Text.endsHiding "a ".toList = false ∧
      ¬∃ block ∈ extraction.blocks, block.span.start ≤ Text.width "a ".toList ∧
          Text.width "a ".toList + Text.width Literal.verbatimClosing ≤ block.span.stop := by
  have scanned : Piece.scan true [] strayMarker = .ok (strayMarker.map .letter) := by cbv
  have extracted : ofSource strayMarker = .ok ⟨.pair 0xE000, strayMarker.map .letter⟩ :=
    ofSource_eq_ok_iff.mpr ⟨Sentinels.choose?_eq_first (by decide) (by decide), scanned⟩
  refine ⟨_, extracted, by decide, by decide, ?_⟩
  rintro ⟨block, hblock, _⟩
  rw [blocks, Piece.blocks_map_letter] at hblock
  exact absurd hblock List.not_mem_nil

end Extraction
end Courseware
