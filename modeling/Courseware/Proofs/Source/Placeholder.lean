import Mathlib.Data.List.TakeWhile
import Courseware.Proofs.Source.RoundTrip
import Courseware.Proofs.Text.Margins

/-!
# Texts that cut no placeholder

Texts with placeholders are cut, trimmed and joined in many ways before they are restored. A text is
intact when its sentinels all belong to whole placeholders of known literals. Restoring an intact text
leaves no sentinel at all, and that is again a case of intactness: no literal is known then.

Whether a text stays intact is decided by the characters at which it is cut. Sentinels are private-use
characters and numbers consist of digits, so a cut beside any other character goes through no
placeholder. `Sentinels.Intact.cut` says so once, and every operation on texts is reduced to it.
-/

namespace Courseware

namespace Sentinels

/-- The private-use characters, among which sentinels are chosen. -/
def isReserved (letter : Char) : Bool :=
  (0xE000 ≤ letter.toNat && letter.toNat < 0xF900) || 0xF0000 ≤ letter.toNat

/-- The characters that stand in no placeholder, whichever sentinels are chosen. -/
def isOutside (letter : Char) : Bool := !isReserved letter && !letter.isDigit

/-- Sentinels that are private-use characters. -/
structure Reserved (sentinels : Sentinels) : Prop where
  opening : isReserved sentinels.opening = true
  closing : isReserved sentinels.closing = true

theorem reserved_of_mem_candidates {sentinels : Sentinels} (h : sentinels ∈ candidates) :
    sentinels.Reserved := by
  rw [candidates, List.mem_append, List.mem_map, List.mem_map] at h
  have hreserved : ∀ code : Nat, code.isValidChar →
      (0xE000 ≤ code ∧ code < 0xF900) ∨ 0xF0000 ≤ code → isReserved (Char.ofNat code) = true := by
    intro code hvalid hcode
    rw [isReserved, toNat_ofNat_of_isValidChar hvalid]
    simpa using hcode
  rcases h with ⟨step, hstep, rfl⟩ | ⟨step, hstep, rfl⟩
  · rw [List.mem_range] at hstep
    exact ⟨hreserved _ (Or.inr ⟨by omega, by omega⟩) (by omega),
      hreserved _ (Or.inr ⟨by omega, by omega⟩) (by omega)⟩
  · rw [List.mem_range] at hstep
    exact ⟨hreserved _ (Or.inr ⟨by omega, by omega⟩) (by omega),
      hreserved _ (Or.inr ⟨by omega, by omega⟩) (by omega)⟩

/-- Text that is no sentinel and no part of a number. -/
theorem Reserved.ne_of_isOutside {sentinels : Sentinels} (reserved : sentinels.Reserved)
    {letter : Char} (h : isOutside letter = true) :
    letter ≠ sentinels.opening ∧ letter ≠ sentinels.closing := by
  rw [isOutside, Bool.and_eq_true, Bool.not_eq_true'] at h
  constructor
  · rintro rfl
    exact Bool.noConfusion (h.1.symm.trans reserved.opening)
  · rintro rfl
    exact Bool.noConfusion (h.1.symm.trans reserved.closing)

theorem Reserved.notMem_placeholder {sentinels : Sentinels} (reserved : sentinels.Reserved)
    {letter : Char} (h : isOutside letter = true) (number : Nat) :
    letter ∉ sentinels.placeholder number := by
  obtain ⟨hopening, hclosing⟩ := reserved.ne_of_isOutside h
  rw [placeholder, List.mem_cons, List.mem_append, List.mem_singleton]
  rintro (hletter | hdigit | hletter)
  · exact hopening hletter
  · have hisDigit : letter.isDigit = true :=
      Nat.isDigit_of_mem_toDigits (by decide) (by decide) hdigit
    rw [isOutside, hisDigit, Bool.not_true, Bool.and_false] at h
    exact Bool.noConfusion h
  · exact hclosing hletter

/-- The characters of names and delimiters are not reserved. -/
theorem isReserved_of_isAlphanum {letter : Char} (h : letter.isAlphanum = true) :
    isReserved letter = false := by
  have hbound : letter.toNat < 0x80 := by
    simp only [Char.isAlphanum, Char.isAlpha, Char.isUpper, Char.isLower, Char.isDigit,
      Bool.or_eq_true, Bool.and_eq_true, decide_eq_true_eq, ge_iff_le, UInt32.le_iff_toNat_le] at h
    have hupper : ('Z' : Char).val.toNat = 90 := rfl
    have hlower : ('z' : Char).val.toNat = 122 := rfl
    have hnine : ('9' : Char).val.toNat = 57 := rfl
    change letter.val.toNat < 128
    omega
  rw [isReserved, Bool.or_eq_false_iff, Bool.and_eq_false_iff, decide_eq_false_iff_not,
    decide_eq_false_iff_not, decide_eq_false_iff_not]
  omega

theorem isOutside_of_isBlank {letter : Char} (h : Text.isBlank letter = true) :
    isOutside letter = true := by
  simp only [Text.isBlank, Bool.or_eq_true, Bool.and_eq_true, decide_eq_true_eq,
    beq_iff_eq] at h
  simp only [isOutside, isReserved, Char.isDigit, Bool.and_eq_true, Bool.not_eq_true',
    Bool.or_eq_false_iff, Bool.and_eq_false_iff, decide_eq_false_iff_not, ge_iff_le,
    UInt32.le_iff_toNat_le]
  have hzero : ('0' : Char).val.toNat = 48 := rfl
  have hnine : ('9' : Char).val.toNat = 57 := rfl
  have hcode : letter.toNat = letter.val.toNat := rfl
  omega

/-! ## Intact texts -/

/-- A text whose sentinels all belong to placeholders of the first `count` literals. -/
inductive Intact (sentinels : Sentinels) (count : Nat) : Text → Prop
  | nil : Intact sentinels count []
  | letter {letter : Char} {rest : Text} (opening : letter ≠ sentinels.opening)
      (closing : letter ≠ sentinels.closing) (intact : Intact sentinels count rest) :
      Intact sentinels count (letter :: rest)
  | placeholder {number : Nat} {rest : Text} (known : number < count)
      (intact : Intact sentinels count rest) :
      Intact sentinels count (sentinels.placeholder number ++ rest)

/-- Where no literal is known, an intact text is one without sentinels. -/
theorem intact_zero_iff {sentinels : Sentinels} {text : Text} :
    Intact sentinels 0 text ↔ sentinels.opening ∉ text ∧ sentinels.closing ∉ text := by
  constructor
  · intro intact
    induction intact with
    | nil => exact ⟨List.not_mem_nil, List.not_mem_nil⟩
    | letter opening closing _ ih =>
      exact ⟨List.not_mem_cons_of_ne_of_not_mem opening.symm ih.1,
        List.not_mem_cons_of_ne_of_not_mem closing.symm ih.2⟩
    | placeholder known => exact absurd known (Nat.not_lt_zero _)
  · induction text with
    | nil =>
      intro _
      exact .nil
    | cons letter rest ih =>
      rintro ⟨hopening, hclosing⟩
      obtain ⟨opening, hopening⟩ := List.ne_and_not_mem_of_not_mem_cons hopening
      obtain ⟨closing, hclosing⟩ := List.ne_and_not_mem_of_not_mem_cons hclosing
      exact .letter opening.symm closing.symm (ih ⟨hopening, hclosing⟩)

namespace Intact

variable {sentinels : Sentinels} {count : Nat} {text before after lead : Text}

theorem append (first : Intact sentinels count before) (second : Intact sentinels count after) :
    Intact sentinels count (before ++ after) := by
  induction first with
  | nil => exact second
  | letter opening closing _ ih => exact .letter opening closing ih
  | placeholder known _ ih =>
    rw [List.append_assoc]
    exact .placeholder known ih

/-- What is intact stays so when more literals are known. -/
theorem mono {more : Nat} (intact : Intact sentinels count text) (h : count ≤ more) :
    Intact sentinels more text := by
  induction intact with
  | nil => exact .nil
  | letter opening closing _ ih => exact .letter opening closing ih
  | placeholder known _ ih => exact .placeholder (Nat.lt_of_lt_of_le known h) ih

/-- Parts that are intact are so one after the other. -/
theorem flatten {parts : List Text} (h : ∀ part ∈ parts, Intact sentinels count part) :
    Intact sentinels count parts.flatten := by
  induction parts with
  | nil => exact .nil
  | cons part rest ih =>
    obtain ⟨hpart, hrest⟩ := List.forall_mem_cons.mp h
    exact hpart.append (ih hrest)

/-- Texts of characters that stand in no placeholder. -/
theorem of_isOutside (reserved : sentinels.Reserved)
    (h : ∀ letter ∈ text, isOutside letter = true) : Intact sentinels count text := by
  induction text with
  | nil => exact .nil
  | cons letter rest ih =>
    obtain ⟨hletter, hrest⟩ := List.forall_mem_cons.mp h
    obtain ⟨hopening, hclosing⟩ := reserved.ne_of_isOutside hletter
    exact .letter hopening hclosing (ih hrest)

/-! ### Cuts -/

/-- A cut beside a character that stands in no placeholder goes through none. -/
theorem cut (reserved : sentinels.Reserved) {letter : Char}
    (intact : Intact sentinels count (before ++ letter :: after))
    (h : isOutside letter = true) :
    Intact sentinels count before ∧ Intact sentinels count after := by
  generalize htext : before ++ letter :: after = text at intact
  induction intact generalizing before with
  | nil => exact absurd htext (by simp)
  | @letter first rest opening closing intact ih =>
    cases before with
    | nil =>
      obtain ⟨rfl, rfl⟩ := List.cons.inj htext
      exact ⟨.nil, intact⟩
    | cons head tail =>
      obtain ⟨rfl, hrest⟩ := List.cons.inj htext
      obtain ⟨htail, hafter⟩ := ih hrest
      exact ⟨.letter opening closing htail, hafter⟩
  | @placeholder number rest known intact ih =>
    rcases List.append_eq_append_iff.mp htext with ⟨tail, hnumber, hrest⟩ | ⟨tail, rfl, hrest⟩
    · cases tail with
      | nil =>
        obtain ⟨_, hafter⟩ := @ih [] hrest
        rw [List.append_nil] at hnumber
        rw [← hnumber, ← List.append_nil (sentinels.placeholder number)]
        exact ⟨.placeholder known .nil, hafter⟩
      | cons head tail =>
        obtain ⟨rfl, _⟩ := List.cons.inj hrest
        refine absurd ?_ (reserved.notMem_placeholder h number)
        rw [hnumber]
        exact List.mem_append_right _ List.mem_cons_self
    · obtain ⟨htail, hafter⟩ := ih hrest.symm
      exact ⟨.placeholder known htail, hafter⟩

theorem tail (reserved : sentinels.Reserved) {letter : Char}
    (intact : Intact sentinels count (letter :: text)) (h : isOutside letter = true) :
    Intact sentinels count text := by
  rw [← List.nil_append (letter :: text)] at intact
  exact (intact.cut reserved h).2

/-- A cut after characters that stand in no placeholder. -/
theorem right_of_isOutside (reserved : sentinels.Reserved)
    (intact : Intact sentinels count (lead ++ text))
    (h : ∀ letter ∈ lead, isOutside letter = true) : Intact sentinels count text := by
  induction lead with
  | nil => exact intact
  | cons letter rest ih =>
    obtain ⟨hletter, hrest⟩ := List.forall_mem_cons.mp h
    exact ih (intact.tail reserved hletter) hrest

/-- A cut before characters that stand in no placeholder. -/
theorem left_of_isOutside (reserved : sentinels.Reserved)
    (intact : Intact sentinels count (text ++ after))
    (h : ∀ letter ∈ after, isOutside letter = true) : Intact sentinels count text := by
  cases after with
  | nil => rwa [List.append_nil] at intact
  | cons letter rest => exact (intact.cut reserved (h letter List.mem_cons_self)).1

/-- What stands before and after a part of characters that stand in no placeholder. -/
theorem around (reserved : sentinels.Reserved) {part : Text} (full : part ≠ [])
    (h : part.all isOutside = true) (intact : Intact sentinels count (before ++ part ++ after)) :
    Intact sentinels count before ∧ Intact sentinels count after := by
  obtain ⟨letter, rest, rfl⟩ := List.exists_cons_of_ne_nil full
  rw [List.all_eq_true] at h
  obtain ⟨hletter, hrest⟩ := List.forall_mem_cons.mp h
  rw [List.append_assoc, List.cons_append] at intact
  obtain ⟨hbefore, hrestAfter⟩ := intact.cut reserved hletter
  exact ⟨hbefore, hrestAfter.right_of_isOutside reserved hrest⟩

theorem dropWhile (reserved : sentinels.Reserved) {drop : Char → Bool}
    (intact : Intact sentinels count text)
    (h : ∀ letter, drop letter = true → isOutside letter = true) :
    Intact sentinels count (text.dropWhile drop) := by
  rw [← List.takeWhile_append_dropWhile (p := drop) (l := text)] at intact
  apply intact.right_of_isOutside reserved
  intro letter hletter
  exact h letter (List.mem_takeWhile_imp hletter)

/-- A text is cut where the first character stands that is not to be kept. -/
theorem splitWhile (reserved : sentinels.Reserved) {keep : Char → Bool}
    (intact : Intact sentinels count text)
    (h : ∀ letter, keep letter = false → isOutside letter = true) :
    Intact sentinels count (text.takeWhile keep) ∧ Intact sentinels count (text.dropWhile keep) := by
  have hsplit := List.takeWhile_append_dropWhile (p := keep) (l := text)
  cases hafter : text.dropWhile keep with
  | nil =>
    rw [hafter, List.append_nil] at hsplit
    rw [hsplit]
    exact ⟨intact, .nil⟩
  | cons first rest =>
    have hfirst : keep first = false := by
      have hhead := List.head?_dropWhile_not keep text
      rwa [hafter] at hhead
    rw [← hsplit, hafter] at intact
    obtain ⟨hbefore, hrest⟩ := intact.cut reserved (h first hfirst)
    obtain ⟨hopening, hclosing⟩ := reserved.ne_of_isOutside (h first hfirst)
    exact ⟨hbefore, .letter hopening hclosing hrest⟩

theorem dropTrailing (reserved : sentinels.Reserved) {drop : Char → Bool}
    (intact : Intact sentinels count text)
    (h : ∀ letter, drop letter = true → isOutside letter = true) :
    Intact sentinels count (Text.dropTrailing drop text) := by
  have hsplit : Text.dropTrailing drop text ++ (text.reverse.takeWhile drop).reverse = text := by
    rw [Text.dropTrailing, ← List.reverse_append, List.takeWhile_append_dropWhile,
      List.reverse_reverse]
  rw [← hsplit] at intact
  apply intact.left_of_isOutside reserved
  intro letter hletter
  rw [List.mem_reverse] at hletter
  exact h letter (List.mem_takeWhile_imp hletter)

theorem trimStart (reserved : sentinels.Reserved) (intact : Intact sentinels count text) :
    Intact sentinels count (Text.trimStart text) :=
  intact.dropWhile reserved fun _ => isOutside_of_isBlank

theorem trimEnd (reserved : sentinels.Reserved) (intact : Intact sentinels count text) :
    Intact sentinels count (Text.trimEnd text) :=
  intact.dropTrailing reserved fun _ => isOutside_of_isBlank

theorem trim (reserved : sentinels.Reserved) (intact : Intact sentinels count text) :
    Intact sentinels count (Text.trim text) :=
  (intact.trimStart reserved).trimEnd reserved

/-! ### Parts and lines -/

/-- Writing intact texts one after the other with an intact text between them. -/
theorem join {separator : Text} {parts : List Text} (between : Intact sentinels count separator)
    (h : ∀ part ∈ parts, Intact sentinels count part) :
    Intact sentinels count (Text.join separator parts) := by
  rw [Text.join, List.intercalate]
  apply flatten
  induction parts with
  | nil => exact fun part hpart => absurd hpart List.not_mem_nil
  | cons first rest ih =>
    obtain ⟨hfirst, hrest⟩ := List.forall_mem_cons.mp h
    cases rest with
    | nil => simpa using hfirst
    | cons second others =>
      rw [List.intersperse_cons_cons, List.forall_mem_cons, List.forall_mem_cons]
      exact ⟨hfirst, between, ih hrest⟩

/-- The parts of a text between separators. In the induction on what is still to be split, `before` has
been read since the last separator. -/
theorem split_append (reserved : sentinels.Reserved) {separator : Char}
    (h : isOutside separator = true) (intact : Intact sentinels count (before ++ text)) :
    ∃ first others, Text.split separator text = first :: others ∧
      Intact sentinels count (before ++ first) ∧
      ∀ part ∈ others, Intact sentinels count part := by
  induction text generalizing before with
  | nil => exact ⟨[], [], rfl, intact, fun part hpart => absurd hpart List.not_mem_nil⟩
  | cons letter rest ih =>
    rw [Text.split]
    by_cases hletter : letter = separator
    · subst hletter
      obtain ⟨hbefore, hrest⟩ := intact.cut reserved h
      obtain ⟨first, others, hsplit, hfirst, hothers⟩ := @ih [] hrest
      rw [if_pos (beq_self_eq_true _), hsplit]
      refine ⟨[], first :: others, rfl, ?_, List.forall_mem_cons.mpr ⟨hfirst, hothers⟩⟩
      rwa [List.append_nil]
    · rw [← List.singleton_append, ← List.append_assoc] at intact
      obtain ⟨first, others, hsplit, hfirst, hothers⟩ := ih intact
      rw [if_neg (by simpa using hletter), hsplit]
      refine ⟨letter :: first, others, rfl, ?_, hothers⟩
      rwa [List.append_assoc, List.singleton_append] at hfirst

theorem split (reserved : sentinels.Reserved) {separator : Char}
    (h : isOutside separator = true) (intact : Intact sentinels count text) :
    ∀ part ∈ Text.split separator text, Intact sentinels count part := by
  rw [← List.nil_append text] at intact
  obtain ⟨first, others, hsplit, hfirst, hothers⟩ := intact.split_append reserved h
  rw [hsplit]
  exact List.forall_mem_cons.mpr ⟨hfirst, hothers⟩

theorem dropReturn (reserved : sentinels.Reserved) (intact : Intact sentinels count text) :
    Intact sentinels count (Text.dropReturn text) := by
  unfold Text.dropReturn
  split
  · next hlast =>
    obtain ⟨line, rfl⟩ := List.getLast?_eq_some_iff.mp hlast
    rw [List.dropLast_concat]
    exact (intact.cut reserved (by decide)).1
  · exact intact

/-- Lines end at line feeds. -/
theorem lines (reserved : sentinels.Reserved) (intact : Intact sentinels count text) :
    ∀ line ∈ Text.lines text, Intact sentinels count line := by
  have hfeed : ∀ letter : Char, (letter != '\n') = false → isOutside letter = true := by
    intro letter hletter
    rw [bne_eq_false_iff_eq] at hletter
    subst hletter
    decide
  fun_induction Text.lines text with
  | case1 => exact fun line hline => absurd hline List.not_mem_nil
  | case2 letter rest hafter =>
    rw [List.forall_mem_singleton]
    exact intact
  | case3 letter rest feed after hafter ih =>
    obtain ⟨hline, hrest⟩ := intact.splitWhile reserved hfeed
    rw [hafter] at hrest
    have hfeedOutside : isOutside feed = true := by
      have hhead := List.head?_dropWhile_not (· != '\n') (letter :: rest)
      rw [hafter] at hhead
      exact hfeed feed hhead
    rw [List.forall_mem_cons]
    exact ⟨hline.dropReturn reserved, ih (hrest.tail reserved hfeedOutside)⟩

/-! ### Indents -/

theorem isOutside_of_isIndent {letter : Char} (h : Text.isIndent letter = true) :
    isOutside letter = true := by
  rw [Text.isIndent_iff] at h
  rcases h with rfl | rfl <;> decide

/-- A line loses an indent that it has, or it is blank and has nothing to lose. -/
theorem unindent (reserved : sentinels.Reserved) {bytes : Nat}
    (intact : Intact sentinels count text)
    (h : Text.isAllBlank text = true ∨ bytes ≤ Text.indentOf text) :
    Intact sentinels count (Text.unindent bytes text) := by
  rcases h with hblank | hindent
  · rw [Text.isAllBlank, List.all_eq_true] at hblank
    apply of_isOutside reserved
    intro letter hletter
    exact isOutside_of_isBlank (hblank letter ((Text.unindent_suffix bytes text).mem hletter))
  · obtain ⟨lead, hline, hlead, _⟩ := Text.exists_append_unindent hindent
    rw [hline] at intact
    exact intact.right_of_isOutside reserved fun letter hletter =>
      isOutside_of_isIndent (hlead letter hletter)

theorem dedent (reserved : sentinels.Reserved) (intact : Intact sentinels count text) :
    Intact sentinels count (Text.dedent text) := by
  rw [Text.dedent]
  apply join (of_isOutside reserved (List.forall_mem_singleton.mpr (by decide)))
  intro part hpart
  obtain ⟨line, hline, rfl⟩ := List.mem_map.mp hpart
  have hmem : line ∈ Text.lines text := (List.dropWhile_sublist _).mem hline
  apply (intact.lines reserved line hmem).unindent reserved
  by_cases hblank : Text.isAllBlank line = true
  · exact .inl hblank
  · right
    apply List.min?_getD_le_of_mem
    apply List.mem_map_of_mem
    rw [List.mem_filter]
    exact ⟨hline, by simpa using hblank⟩

end Intact

/-! ## Texts without sentinels -/

/-- No sentinel is in any of some texts. -/
def Absent (sentinels : Sentinels) (texts : List Text) : Prop :=
  ∀ text ∈ texts, Intact sentinels 0 text

section
variable {sentinels : Sentinels}

@[simp]
theorem absent_nil : Absent sentinels [] := fun _ h => absurd h List.not_mem_nil

@[simp]
theorem absent_cons_iff {text : Text} {texts : List Text} :
    Absent sentinels (text :: texts) ↔ Intact sentinels 0 text ∧ Absent sentinels texts :=
  List.forall_mem_cons

@[simp]
theorem absent_append_iff {first second : List Text} :
    Absent sentinels (first ++ second) ↔ Absent sentinels first ∧ Absent sentinels second :=
  List.forall_mem_append

@[simp]
theorem absent_flatMap_iff {α : Type} {items : List α} {texts : α → List Text} :
    Absent sentinels (items.flatMap texts) ↔ ∀ item ∈ items, Absent sentinels (texts item) := by
  constructor
  · intro h item hitem text htext
    exact h text (List.mem_flatMap.mpr ⟨item, hitem, htext⟩)
  · intro h text htext
    obtain ⟨item, hitem, htext⟩ := List.mem_flatMap.mp htext
    exact h item hitem text htext

@[simp]
theorem absent_reverse_iff {texts : List Text} :
    Absent sentinels texts.reverse ↔ Absent sentinels texts := by
  simp only [Absent, List.mem_reverse]

end
end Sentinels

/-! ## Restoring -/

namespace Extraction

/-- The literals of a document are parts of it. -/
theorem mem_source_of_mem_literals {extraction : Extraction} {literal : Literal}
    (h : literal ∈ extraction.literals) : ∀ letter ∈ literal.text, letter ∈ extraction.source := by
  intro letter hletter
  rw [literals] at h
  rw [source]
  generalize extraction.pieces = pieces at h ⊢
  induction pieces with
  | nil => exact absurd h List.not_mem_nil
  | cons piece rest ih =>
    rw [Piece.sources_cons, List.mem_append]
    cases piece with
    | letter c => exact .inr (ih h)
    | literal l =>
      rcases List.mem_cons.mp h with rfl | hrest
      · exact .inl hletter
      · exact .inr (ih hrest)

/-- A number that is read is that of a literal. -/
theorem mem_literals_of_readNumber? {extraction : Extraction} {text rest : Text} {number : Nat}
    {literal : Literal} (h : extraction.readNumber? text = some (number, literal, rest)) :
    literal ∈ extraction.literals := by
  unfold readNumber? at h
  simp only at h
  split at h
  · cases h
  · split at h
    · cases h
    · obtain ⟨found, hfound, heq⟩ := Option.map_eq_some_iff.mp h
      cases heq
      exact List.mem_of_getElem? hfound

/-- A part of a document holds no sentinel. -/
theorem WellFormed.intact {extraction : Extraction} (hwell : extraction.WellFormed) {text : Text}
    (h : ∀ letter ∈ text, letter ∈ extraction.source) : extraction.sentinels.Intact 0 text :=
  Sentinels.intact_zero_iff.mpr
    ⟨fun hmem => hwell.opening_notMem (h _ hmem), fun hmem => hwell.closing_notMem (h _ hmem)⟩

/-- Restoring an intact text leaves no sentinel. -/
theorem WellFormed.intact_restore {extraction : Extraction} (hwell : extraction.WellFormed)
    {text : Text} (intact : extraction.sentinels.Intact extraction.literals.length text) :
    extraction.sentinels.Intact 0 (extraction.restore text) := by
  induction intact with
  | nil =>
    rw [restore_nil]
    exact .nil
  | letter opening closing _ ih =>
    rw [restore_cons opening]
    exact .letter opening closing ih
  | @placeholder number rest known _ ih =>
    have hliteral := List.getElem?_eq_getElem known
    rw [restore_placeholder hwell.closing_not_digit hliteral]
    exact (hwell.intact (mem_source_of_mem_literals (List.getElem_mem known))).append ih

/-- The scrubbed form of some pieces is intact. -/
theorem intact_scrub {sentinels : Sentinels} {next count : Nat} {pieces : List Piece}
    (hopening : sentinels.opening ∉ Piece.sources pieces)
    (hclosing : sentinels.closing ∉ Piece.sources pieces)
    (h : next + (Piece.literals pieces).length ≤ count) :
    sentinels.Intact count (Piece.scrub sentinels next pieces) := by
  induction pieces generalizing next with
  | nil => exact .nil
  | cons piece rest ih =>
    rw [Piece.sources_cons, List.mem_append, not_or] at hopening hclosing
    cases piece with
    | letter c =>
      refine .letter ?_ ?_ (ih hopening.2 hclosing.2 h)
      · rintro rfl
        exact hopening.1 (List.mem_singleton_self _)
      · rintro rfl
        exact hclosing.1 (List.mem_singleton_self _)
    | literal l =>
      rw [Piece.literals, List.length_cons] at h
      exact .placeholder (by omega) (ih hopening.2 hclosing.2 (by omega))

/-- The scrubbed text is intact. -/
theorem WellFormed.intact_scrubbed {extraction : Extraction} (hwell : extraction.WellFormed) :
    extraction.sentinels.Intact extraction.literals.length extraction.scrubbed :=
  intact_scrub hwell.opening_notMem hwell.closing_notMem (Nat.le_of_eq (Nat.zero_add _))

theorem reserved_of_ofSource {source : Text} {extraction : Extraction}
    (h : ofSource source = .ok extraction) : extraction.sentinels.Reserved :=
  Sentinels.reserved_of_mem_candidates (Sentinels.spec_of_choose? (ofSource_eq_ok_iff.mp h).1).1

end Extraction
end Courseware
