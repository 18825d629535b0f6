import Courseware.Proofs.Source.Blocks
import Courseware.Proofs.Text.Parts

/-!
# Restored texts are stable

Texts are restored more than once: a note that stands in another directive is restored when it is built,
and again with what it stands in. This does no harm, whatever the text is, also where it holds sentinels
that no placeholder accounts for. A sentinel that is kept stands before a number that is unknown or not
ended as a placeholder ends. Restoring what follows it leaves the digits of that number alone, and what
comes to stand behind them is either the letter that stood there before or the start of a literal
(`Extraction.readNumber?_restore`). A literal starts with its opening delimiter, which neither continues a
number nor ends one.
-/

namespace Courseware

namespace Literal

/-- A literal begins with its delimiter, and no delimiter begins with a digit. -/
theorem Stands.exists_cons {before after : Text} {l : Literal} (stands : l.Stands before after) :
    ∃ first rest, l.text = first :: rest ∧ first.isDigit = false := by
  cases stands with
  | @fence marker run _ _ _ _ _ _ _ _ _ known long =>
    obtain ⟨more, rfl⟩ := Nat.exists_eq_add_of_le' long
    refine ⟨marker, _, rfl, ?_⟩
    rcases known with rfl | rfl <;> decide
  | @inlineCode count _ _ full =>
    obtain ⟨more, rfl⟩ := Nat.exists_eq_add_one.mpr full
    exact ⟨'\x60', _, rfl, by decide⟩
  | displayMath => exact ⟨'$', _, rfl, by decide⟩
  | inlineMath => exact ⟨'$', _, rfl, by decide⟩
  | verbatim => exact ⟨'<', _, rfl, by decide⟩

end Literal

namespace Extraction

variable {extraction : Extraction}

/-- What comes before the first opening sentinel is kept. -/
theorem restore_append_of_notMem {before : Text} (h : extraction.sentinels.opening ∉ before)
    (after : Text) : extraction.restore (before ++ after) = before ++ extraction.restore after := by
  induction before with
  | nil => rfl
  | cons letter rest ih =>
    obtain ⟨hletter, hrest⟩ := List.ne_and_not_mem_of_not_mem_cons h
    rw [List.cons_append, restore_cons hletter.symm, ih hrest, List.cons_append]

/-- A letter is kept where it begins no placeholder. -/
theorem restore_cons_of_none {letter : Char} {rest : Text}
    (h : letter = extraction.sentinels.opening → extraction.readNumber? rest = none) :
    extraction.restore (letter :: rest) = letter :: extraction.restore rest := by
  rw [restore]
  split
  · next hopening =>
    split
    · next hread =>
      rw [h (beq_iff_eq.mp hopening)] at hread
      cases hread
    · rfl
  · rfl

/-- A letter is kept, or it begins a placeholder, which is replaced by a literal. -/
theorem restore_cons_cases (extraction : Extraction) (letter : Char) (rest : Text) :
    extraction.restore (letter :: rest) = letter :: extraction.restore rest ∨
      ∃ literal ∈ extraction.literals, ∃ after,
        extraction.restore (letter :: rest) = literal.text ++ extraction.restore after := by
  rw [restore]
  split
  · split
    · next number literal after hread =>
      exact .inr ⟨literal, mem_literals_of_readNumber? hread, after, rfl⟩
    · exact .inl rfl
  · exact .inl rfl

/-! ## Numbers that stay unread -/

section

variable {digits : Text} (hdigits : ∀ letter ∈ digits, letter.isDigit = true)

include hdigits

/-- No number is read where the digits are not followed by a closing sentinel. -/
theorem readNumber?_append_of_head? {tail : Text}
    (hstop : ∀ next ∈ tail.head?, next.isDigit = false ∧ next ≠ extraction.sentinels.closing) :
    extraction.readNumber? (digits ++ tail) = none := by
  have hsplit := Text.splitWhile_append hdigits fun next hnext => (hstop next hnext).1
  cases tail with
  | nil => simp only [readNumber?, hsplit]
  | cons letter rest =>
    have hletter : letter ≠ extraction.sentinels.closing := (hstop letter rfl).2
    simp [readNumber?, hsplit, hletter]

/-- Whether a number is read before a closing sentinel does not depend on what follows it. -/
theorem readNumber?_append_closing (hclosing : extraction.sentinels.closing.isDigit = false)
    {rest : Text}
    (h : extraction.readNumber? (digits ++ extraction.sentinels.closing :: rest) = none)
    (other : Text) :
    extraction.readNumber? (digits ++ extraction.sentinels.closing :: other) = none := by
  have hstop (tail : Text) : ∀ next ∈ (extraction.sentinels.closing :: tail).head?,
      next.isDigit = false := by
    intro next hnext
    rwa [← Option.some.inj hnext]
  have hsplit (tail : Text) := Text.splitWhile_append hdigits (hstop tail)
  simp only [readNumber?, hsplit] at h ⊢
  split at h
  · next hempty => rw [if_pos hempty]
  · next hempty =>
    rw [Option.map_eq_none_iff] at h
    rw [if_neg hempty, h, Option.map_none]

end

/-- The first letter of a literal is no digit, and it is no sentinel. -/
theorem exists_cons_of_mem_literals {source : Text} (extracted : ofSource source = .ok extraction)
    {literal : Literal} (h : literal ∈ extraction.literals) :
    ∃ first rest, literal.text = first :: rest ∧ first.isDigit = false ∧
      first ≠ extraction.sentinels.closing := by
  obtain ⟨index, hindex⟩ := List.getElem?_of_mem h
  obtain ⟨before, after, hpieces, _⟩ := Piece.exists_of_getElem?_literals hindex
  obtain ⟨first, rest, htext, hdigit⟩ := (stands_of_ofSource extracted hpieces).exists_cons
  refine ⟨first, rest, htext, hdigit, ?_⟩
  rintro rfl
  apply (wellFormed_of_ofSource extracted).closing_notMem
  exact mem_source_of_mem_literals h _ (by rw [htext]; exact List.mem_cons_self)

/-- Where no number can be read, none can be read after restoring. -/
theorem readNumber?_restore {source : Text} (extracted : ofSource source = .ok extraction)
    {text : Text} (h : extraction.readNumber? text = none) :
    extraction.readNumber? (extraction.restore text) = none := by
  have hwell := wellFormed_of_ofSource extracted
  have hdigits : ∀ letter ∈ text.takeWhile Char.isDigit, letter.isDigit = true :=
    fun letter hletter => List.mem_takeWhile_imp hletter
  have hopening : extraction.sentinels.opening ∉ text.takeWhile Char.isDigit := fun hmem =>
    Bool.noConfusion ((hdigits _ hmem).symm.trans hwell.opening_not_digit)
  have hstop : ∀ next ∈ (text.dropWhile Char.isDigit).head?, next.isDigit = false :=
    Literal.eq_false_of_mem_head?_dropWhile
  rw [← List.takeWhile_append_dropWhile (p := Char.isDigit) (l := text)] at h
  rw [← List.takeWhile_append_dropWhile (p := Char.isDigit) (l := text),
    restore_append_of_notMem hopening]
  generalize text.takeWhile Char.isDigit = digits at h hdigits
  cases htail : text.dropWhile Char.isDigit with
  | nil =>
    rw [restore_nil]
    exact readNumber?_append_of_head? hdigits fun _ hnext => nomatch hnext
  | cons letter rest =>
    rw [htail] at h hstop
    rcases restore_cons_cases extraction letter rest with hkept | ⟨literal, hliteral, after, hfound⟩
    · rw [hkept]
      by_cases hletter : letter = extraction.sentinels.closing
      · rw [hletter] at h ⊢
        exact readNumber?_append_closing hdigits hwell.closing_not_digit h _
      · refine readNumber?_append_of_head? hdigits fun next hnext => ?_
        rw [← Option.some.inj hnext]
        exact ⟨hstop letter rfl, hletter⟩
    · obtain ⟨first, others, htext, hfirst⟩ := exists_cons_of_mem_literals extracted hliteral
      rw [hfound, htext]
      refine readNumber?_append_of_head? hdigits fun next hnext => ?_
      rw [← Option.some.inj hnext]
      exact hfirst

/-- Restoring a text that has been restored changes nothing, whatever the text is. -/
theorem restore_restore {source : Text} {extraction : Extraction}
    (extracted : ofSource source = .ok extraction) (text : Text) :
    extraction.restore (extraction.restore text) = extraction.restore text := by
  have hwell := wellFormed_of_ofSource extracted
  fun_induction extraction.restore text with
  | case1 => exact extraction.restore_nil
  | case2 letter rest hopening number literal after hread ih =>
    have habsent : extraction.sentinels.opening ∉ literal.text := fun hmem =>
      hwell.opening_notMem
        (mem_source_of_mem_literals (mem_literals_of_readNumber? hread) _ hmem)
    rw [restore_append_of_notMem habsent, ih]
  | case3 letter rest hopening hread ih =>
    rw [restore_cons_of_none fun _ => readNumber?_restore extracted hread, ih]
  | case4 letter rest hletter ih =>
    rw [restore_cons fun heq => hletter (beq_iff_eq.mpr heq), ih]

/-- A stray sentinel before a number stays where it is, although a literal comes to stand behind the
number. -/
theorem restore_restore_stray :
    ∃ extraction, ofSource ['a', '\x60', 'x', '\x60', 'b'] = .ok extraction ∧
      extraction.restore ['\ue000', '1', '\ue000', '0', '0', '\ue001', '\ue001'] =
        ['\ue000', '1', '\x60', 'x', '\x60', '\ue001'] ∧
      extraction.restore ['\ue000', '1', '\x60', 'x', '\x60', '\ue001'] =
        ['\ue000', '1', '\x60', 'x', '\x60', '\ue001'] := by
  have extracted : ofSource ['a', '\x60', 'x', '\x60', 'b'] = .ok ⟨.pair 0xE000,
      [.letter 'a', .literal (.inlineCode ['\x60', 'x', '\x60']), .letter 'b']⟩ :=
    @ofSource_of_readLiteral? 'a' [] ['b'] [] (.inlineCode ['\x60', 'x', '\x60']) (by decide)
      (by decide) (by cbv) (by decide) (by cbv) (by decide)
  have hrestored : restore ⟨.pair 0xE000,
      [.letter 'a', .literal (.inlineCode ['\x60', 'x', '\x60']), .letter 'b']⟩
        ['\ue000', '1', '\ue000', '0', '0', '\ue001', '\ue001'] =
      ['\ue000', '1', '\x60', 'x', '\x60', '\ue001'] := by cbv
  have hagain := restore_restore extracted ['\ue000', '1', '\ue000', '0', '0', '\ue001', '\ue001']
  rw [hrestored] at hagain
  exact ⟨_, extracted, hrestored, hagain⟩

end Extraction
end Courseware
