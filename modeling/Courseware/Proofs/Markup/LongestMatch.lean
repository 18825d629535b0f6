import Courseware.Proofs.Markup.Lexing
import Courseware.Proofs.Text.Parts

/-!
# Lexemes are longest matches

Every kind of lexeme has a pattern. `Token.Matches` gives the patterns, one rule for each, and says nothing of
which of them is tried first: a text is cut where the longest match ends that begins where the one before has
ended (`Lexeme.Cuts`). The reader of lexemes does not try patterns. It looks at the first letter, and at a
number sign or a backslash also at what follows. It nevertheless finds the longest match, and since no text
matches two patterns, there is only one way to cut a text (`Lexeme.cuts_iff`).
-/

namespace Courseware

namespace Token

variable {token other : Token} {part more rest after text : Text} {first : Char}

/-- A name is a letter, and then letters, digits and underscores. -/
def IsName (name : Text) : Prop :=
  ∃ first rest, name = first :: rest ∧ first.isAlpha = true ∧ ∀ letter ∈ rest, isNameRest letter = true

theorem IsName.ne_nil {name : Text} (named : IsName name) : name ≠ [] := by
  obtain ⟨first, rest, rfl, _⟩ := named
  exact List.cons_ne_nil first rest

/-- The letters of a name may all stand behind its first. -/
theorem IsName.forall_isNameRest {name : Text} (named : IsName name) :
    ∀ letter ∈ name, isNameRest letter = true := by
  obtain ⟨first, rest, rfl, halpha, hrest⟩ := named
  refine List.forall_mem_cons.mpr ⟨?_, hrest⟩
  rw [isNameRest, Char.isAlphanum, halpha, Bool.true_or, Bool.true_or]

/-- Delimiters stand in no name. -/
theorem isDelimiter_of_isNameRest {letter : Char} (h : isNameRest letter = true) :
    isDelimiter letter = false := by
  by_contra hdelimiter
  rw [Bool.not_eq_false, isDelimiter] at hdelimiter
  simp only [Bool.or_eq_true, beq_iff_eq] at hdelimiter
  rcases hdelimiter with ((((rfl | rfl) | rfl) | rfl) | rfl) | rfl <;> exact absurd h (by decide)

/-! ## Openings -/

/-- An opening is read where a name stands before a bracket or brace, and only there. -/
theorem readOpening?_eq_some_iff {name : Text} :
    readOpening? text = some (token, name, rest) ↔
      ∃ enclosure letters, token.names? = some enclosure ∧ IsName letters ∧
        name = letters ++ [enclosure.opening] ∧ text = letters ++ enclosure.opening :: rest := by
  constructor
  · intro h
    have happend := append_of_readOpening? h
    unfold readOpening? at h
    simp only [Text.splitWhile] at h
    split at h
    · next first others bracket after hname hafter =>
      split at h
      · next halpha =>
        obtain ⟨found, hfound, heq⟩ := Option.map_eq_some_iff.mp h
        obtain ⟨rfl, rfl, rfl⟩ := heq
        have named : IsName (text.takeWhile isNameRest) :=
          ⟨first, others, hname, halpha, fun letter hletter =>
            List.mem_takeWhile_imp (hname ▸ List.mem_cons_of_mem first hletter)⟩
        rw [List.append_assoc] at happend
        unfold opening? at hfound
        split at hfound
        · cases hfound
          exact ⟨.bracket, _, rfl, named, rfl, happend.symm⟩
        · cases hfound
          exact ⟨.brace, _, rfl, named, rfl, happend.symm⟩
        · cases hfound
      · cases h
    · cases h
  · rintro ⟨enclosure, letters, hnames, named, rfl, rfl⟩
    have hstop : isNameRest enclosure.opening = false := by cases enclosure <;> decide
    have hsplit : Text.splitWhile isNameRest (letters ++ enclosure.opening :: rest) =
        (letters, enclosure.opening :: rest) :=
      Text.splitWhile_append named.forall_isNameRest fun _ hnext => Option.some.inj hnext ▸ hstop
    have hopening : opening? enclosure.opening = some token := by
      cases token <;> cases hnames <;> rfl
    obtain ⟨first, others, rfl, halpha, _⟩ := named
    rw [readOpening?, hsplit]
    simp only [halpha, if_true, hopening, Option.map_some]

/-! ## Patterns -/

/-- The patterns: what text a lexeme of each kind may have. -/
inductive Matches : Token → Text → Prop
  | blockOpen {name : Text} (named : IsName name) : Matches .blockOpen ('#' :: (name ++ ['[']))
  | slotOpen {name : Text} (named : IsName name) : Matches .slotOpen ('#' :: (name ++ ['{']))
  | bracketOpen : Matches .bracketOpen ['[']
  | bracketClose : Matches .bracketClose [']']
  | braceOpen : Matches .braceOpen ['{']
  | braceClose : Matches .braceClose ['}']
  | escaped {letter : Char} (delimiter : isDelimiter letter = true) : Matches .escaped ['\\', letter]
  | hash : Matches .hash ['#']
  | backslash : Matches .backslash ['\\']
  | text {letters : Text} (full : letters ≠ [])
      (plain : ∀ letter ∈ letters, isDelimiter letter = false) : Matches .text letters

theorem Matches.of_names? {enclosure : Enclosure} {name : Text} (names : token.names? = some enclosure)
    (named : IsName name) : Matches token ('#' :: (name ++ [enclosure.opening])) := by
  cases token <;> cases names
  · exact .blockOpen named
  · exact .slotOpen named

theorem Matches.ne_nil (h : Matches token part) : part ≠ [] := by
  cases h with
  | text full _ => exact full
  | _ => exact List.cons_ne_nil _ _

/-- A match at the start of a text that is not shorter than any other match there. -/
structure IsLongest (token : Token) (part rest : Text) : Prop where
  isMatch : Matches token part
  longest : ∀ other more, Matches other more → more <+: part ++ rest → more.length ≤ part.length

/-- A whole text is a longest match of itself. -/
theorem Matches.isLongest_nil (h : Matches token part) : IsLongest token part [] where
  isMatch := h
  longest _ _ _ hprefix := by
    rw [List.append_nil] at hprefix
    exact hprefix.length_le

/-! ## Reading finds the longest match -/

theorem read_opening (enclosure : Enclosure) (names : token.names? = some enclosure) {name : Text}
    (named : IsName name) (rest : Text) :
    read '#' (name ++ [enclosure.opening] ++ rest) =
      (token, '#' :: (name ++ [enclosure.opening]), rest) := by
  have hread : readOpening? (name ++ [enclosure.opening] ++ rest) =
      some (token, name ++ [enclosure.opening], rest) :=
    readOpening?_eq_some_iff.mpr ⟨enclosure, name, names, named, rfl, List.append_assoc ..⟩
  simp only [read, hread]

theorem read_text (plain : isDelimiter first = false) (rest : Text) :
    read first rest = (.text, first :: rest.takeWhile fun next => !isDelimiter next,
      rest.dropWhile fun next => !isDelimiter next) := by
  unfold read
  split
  case h_7 => rfl
  all_goals exact absurd plain (by decide)

/-- The longest match is what is read. -/
theorem IsLongest.read_eq (h : IsLongest token (first :: more) rest) :
    read first (more ++ rest) = (token, first :: more, rest) := by
  obtain ⟨isMatch, longest⟩ := h
  generalize hpart : first :: more = part at isMatch longest
  cases isMatch with
  | blockOpen named =>
    obtain ⟨rfl, rfl⟩ := List.cons.inj hpart
    exact read_opening .bracket rfl named rest
  | slotOpen named =>
    obtain ⟨rfl, rfl⟩ := List.cons.inj hpart
    exact read_opening .brace rfl named rest
  | bracketOpen | bracketClose | braceOpen | braceClose =>
    obtain ⟨rfl, rfl⟩ := List.cons.inj hpart
    rfl
  | escaped delimiter =>
    obtain ⟨rfl, rfl⟩ := List.cons.inj hpart
    exact if_pos delimiter
  | hash =>
    obtain ⟨rfl, rfl⟩ := List.cons.inj hpart
    -- An opening would be longer than the number sign.
    cases hopening : readOpening? rest with
    | none =>
      rw [List.nil_append, read]
      simp only [hopening]
    | some found =>
      obtain ⟨enclosure, letters, hnames, named, _, rfl⟩ := readOpening?_eq_some_iff.mp hopening
      have hlonger := longest _ _ (.of_names? hnames named) ⟨found.2.2, by simp⟩
      simp at hlonger
  | backslash =>
    obtain ⟨rfl, rfl⟩ := List.cons.inj hpart
    cases rest with
    | nil => rfl
    | cons next after =>
      have hnext : ¬isDelimiter next = true := fun delimiter => by
        have hlonger := longest _ _ (.escaped delimiter) ⟨after, rfl⟩
        simp at hlonger
      exact if_neg hnext
  | text full plain =>
    subst hpart
    -- Another letter that is plain would make the text longer.
    have hstop : ∀ next ∈ rest.head?, (!isDelimiter next) = false := by
      intro next hnext
      obtain ⟨after, rfl⟩ := List.head?_eq_some_iff.mp hnext
      by_contra hplain
      have hmore : Matches .text (first :: more ++ [next]) := by
        refine .text (List.cons_ne_nil _ _) (List.forall_mem_append.mpr ⟨plain, ?_⟩)
        exact List.forall_mem_singleton.mpr (by simpa using hplain)
      have hlonger := longest _ _ hmore ⟨after, by simp⟩
      rw [List.length_append, List.length_singleton] at hlonger
      omega
    have hkept : ∀ letter ∈ more, (!isDelimiter letter) = true := by
      intro letter hletter
      rw [plain letter (List.mem_cons_of_mem first hletter), Bool.not_false]
    have hsplit := Text.splitWhile_append hkept hstop
    rw [Text.splitWhile, Prod.mk.injEq] at hsplit
    rw [read_text (plain first List.mem_cons_self), hsplit.1, hsplit.2]

/-- No text matches two patterns. -/
theorem Matches.unique (h : Matches token part) (hother : Matches other part) : token = other := by
  obtain ⟨first, more, rfl⟩ := List.exists_cons_of_ne_nil h.ne_nil
  have hread := h.isLongest_nil.read_eq.symm.trans hother.isLongest_nil.read_eq
  exact congrArg Prod.fst hread

theorem matches_read (first : Char) (rest : Text) :
    Matches (read first rest).1 (read first rest).2.1 := by
  by_cases delimiter : isDelimiter first = true
  · simp only [isDelimiter, Bool.or_eq_true, beq_iff_eq] at delimiter
    rcases delimiter with ((((rfl | rfl) | rfl) | rfl) | rfl) | rfl
    · cases opening : readOpening? rest with
      | none =>
        simp only [read, opening]
        exact .hash
      | some found =>
        obtain ⟨enclosure, letters, hnames, named, hname, _⟩ := readOpening?_eq_some_iff.mp opening
        simp only [read, opening, hname]
        exact .of_names? hnames named
    · exact .bracketOpen
    · exact .bracketClose
    · exact .braceOpen
    · exact .braceClose
    · cases rest with
      | nil => exact .backslash
      | cons next after =>
        by_cases hnext : isDelimiter next = true
        · simp only [read, if_pos hnext]
          exact .escaped hnext
        · simp only [read, if_neg hnext]
          exact .backslash
  · have plain : isDelimiter first = false := Bool.eq_false_iff.mpr delimiter
    rw [read_text plain]
    refine .text (List.cons_ne_nil _ _) (List.forall_mem_cons.mpr ⟨plain, fun letter hletter => ?_⟩)
    simpa using List.mem_takeWhile_imp hletter

/-- What is read is the longest match. -/
theorem isLongest_read (first : Char) (rest : Text) :
    IsLongest (read first rest).1 (read first rest).2.1 (read first rest).2.2 where
  isMatch := matches_read first rest
  longest other more isMatch hprefix := by
    rw [append_read] at hprefix
    have hsingle : 1 ≤ (read first rest).2.1.length := List.length_pos_iff.mpr (read_ne_nil first rest)
    obtain ⟨after, hafter⟩ := hprefix
    cases isMatch with
    | @blockOpen name named =>
      obtain ⟨rfl, rfl⟩ : '#' = first ∧ name ++ ['['] ++ after = rest := List.cons.inj hafter
      have hread : read '#' (name ++ ['['] ++ after) = (.blockOpen, '#' :: (name ++ ['[']), after) :=
        read_opening .bracket rfl named after
      rw [hread]
    | @slotOpen name named =>
      obtain ⟨rfl, rfl⟩ : '#' = first ∧ name ++ ['{'] ++ after = rest := List.cons.inj hafter
      have hread : read '#' (name ++ ['{'] ++ after) = (.slotOpen, '#' :: (name ++ ['{']), after) :=
        read_opening .brace rfl named after
      rw [hread]
    | @escaped letter delimiter =>
      obtain ⟨rfl, rfl⟩ : '\\' = first ∧ letter :: after = rest := List.cons.inj hafter
      have hread : read '\\' (letter :: after) = (.escaped, ['\\', letter], after) := if_pos delimiter
      rw [hread]
    | text full plain =>
      obtain ⟨letter, others, rfl⟩ := List.exists_cons_of_ne_nil full
      obtain ⟨rfl, rfl⟩ : letter = first ∧ others ++ after = rest := List.cons.inj hafter
      obtain ⟨hletter, hothers⟩ := List.forall_mem_cons.mp plain
      have hkept : ∀ next ∈ others, (!isDelimiter next) = true := by
        intro next hnext
        rw [hothers next hnext, Bool.not_false]
      rw [read_text hletter, List.takeWhile_append_of_pos hkept]
      simp
    | bracketOpen | bracketClose | braceOpen | braceClose | hash | backslash => exact hsingle

/-- There is only one longest match at the start of a text. -/
theorem isLongest_iff : IsLongest token part rest ↔
    ∃ first more, part ++ rest = first :: more ∧ read first more = (token, part, rest) := by
  constructor
  · intro h
    obtain ⟨first, more, rfl⟩ := List.exists_cons_of_ne_nil h.isMatch.ne_nil
    exact ⟨first, more ++ rest, rfl, h.read_eq⟩
  · rintro ⟨first, more, _, hread⟩
    have h := isLongest_read first more
    rwa [hread] at h

end Token

namespace Lexeme

variable {start : Nat} {text : Text} {lexemes : List Lexeme}

/-- How a text that starts at a byte offset is cut by the longest match. -/
inductive Cuts : Nat → Text → List Lexeme → Prop
  | nil (start : Nat) : Cuts start [] []
  | cons {start : Nat} {token : Token} {part rest : Text} {lexemes : List Lexeme}
      (first : Token.IsLongest token part rest) (others : Cuts (start + Text.width part) rest lexemes) :
      Cuts start (part ++ rest) (⟨token, start, part⟩ :: lexemes)

theorem cuts_scan (start : Nat) (text : Text) : Cuts start text (scan start text) := by
  fun_induction scan start text with
  | case1 => exact .nil _
  | case2 start first rest reading ih =>
    have hcuts := Cuts.cons (Token.isLongest_read first rest) ih
    rwa [Token.append_read] at hcuts

/-- Cutting by the longest match gives the lexemes of a text, and nothing else. -/
theorem cuts_iff : Cuts start text lexemes ↔ lexemes = scan start text := by
  constructor
  · intro h
    induction h with
    | nil start => rw [scan]
    | @cons start token part rest lexemes first others ih =>
      obtain ⟨letter, more, hsplit, hread⟩ := Token.isLongest_iff.mp first
      rw [hsplit, scan, hread, ← ih]
  · rintro rfl
    exact cuts_scan start text

end Lexeme
end Courseware
