import Courseware.Proofs.Markup.LongestMatch
import Courseware.Proofs.Markup.Tiling
import Courseware.Proofs.Source.Escapes

/-!
# Delimiters behind backslashes

A bracket, a brace or a number sign counts as a delimiter when the number of backslashes right before it is even,
and is escaped when it is odd. The lexemes of a text know nothing of such numbers: each begins where the one
before has ended. They agree because a run of backslashes is read in pairs from its start. Where a lexeme begins
with a delimiter, what stands before it hides nothing (`Token.Quiet`), and every lexeme leaves it so, also one
that begins like an opening and comes to none. What is left to see is where within a lexeme a delimiter stands
(`Token.Matches.spec_of_mem_delimiters`).
-/

namespace Courseware

namespace Token

variable {token : Token} {part rest lead front back : Text} {letter : Char}

/-- The letters other than backslashes that are more than text. -/
def delimiters : List Char := ['[', ']', '{', '}', '#']

/-- Whether a token stands for delimiters: it opens or closes something, or it is a number sign that opens
nothing. -/
def isDelimiting : Token → Bool
  | escaped | backslash | text => false
  | _ => true

theorem mem_delimiters_iff : letter ∈ delimiters ↔ isDelimiter letter = true ∧ letter ≠ '\\' := by
  constructor
  · intro h
    fin_cases h <;> decide
  · rintro ⟨hdelimiter, hne⟩
    simp only [isDelimiter, Bool.or_eq_true, beq_iff_eq] at hdelimiter
    rcases hdelimiter with ((((rfl | rfl) | rfl) | rfl) | rfl) | rfl
    all_goals first | exact absurd rfl hne | decide

/-! ## Within a lexeme -/

/-- No backslash stands in a lexeme of delimiters, and a number sign only at its start. -/
theorem Matches.spec_of_isDelimiting (h : Matches token part) (delimiting : token.isDelimiting = true) :
    '\\' ∉ part ∧ '#' ∉ part.tail := by
  have hname : ∀ {name : Text}, IsName name → ∀ letter, isDelimiter letter = true → letter ∉ name :=
    fun named letter delimiter hmem =>
      Bool.false_ne_true ((isDelimiter_of_isNameRest (named.forall_isNameRest letter hmem)).symm.trans
        delimiter)
  cases h with
  | blockOpen named | slotOpen named =>
    have hbackslash := hname named '\\' rfl
    have hsign := hname named '#' rfl
    simp [hbackslash, hsign]
  | bracketOpen | bracketClose | braceOpen | braceClose | hash => decide
  | escaped | backslash | text => cases delimiting

/-- A delimiter in a lexeme is the second letter of an escape, or it stands in a lexeme of delimiters. -/
theorem Matches.spec_of_mem_delimiters (h : Matches token (front ++ letter :: back))
    (delimiter : letter ∈ delimiters) :
    (token = .escaped ∧ front = ['\\'] ∧ back = []) ∨
      (token.isDelimiting = true ∧ '\\' ∉ front ∧ (letter = '#' → front = [])) := by
  obtain ⟨hdelimiter, hne⟩ := mem_delimiters_iff.mp delimiter
  by_cases delimiting : token.isDelimiting = true
  · obtain ⟨hbackslash, hsign⟩ := h.spec_of_isDelimiting delimiting
    refine .inr ⟨delimiting, fun hmem => hbackslash (List.mem_append_left _ hmem), ?_⟩
    rintro rfl
    cases front with
    | nil => rfl
    | cons first others => exact absurd (List.mem_append_right others List.mem_cons_self) hsign
  · left
    generalize hpart : front ++ letter :: back = part at h
    cases h with
    | escaped _ =>
      rcases front with _ | ⟨first, _ | ⟨second, others⟩⟩
      · exact absurd (List.cons.inj hpart).1 hne
      · obtain ⟨rfl, hback⟩ := List.cons.inj hpart
        exact ⟨rfl, rfl, (List.cons.inj hback).2⟩
      · simp at hpart
    | backslash =>
      rcases front with _ | ⟨first, others⟩
      · exact absurd (List.cons.inj hpart).1 hne
      · simp at hpart
    | text _ plain =>
      have hplain := plain letter (hpart ▸ List.mem_append_right front List.mem_cons_self)
      exact absurd (hplain.symm.trans hdelimiter) Bool.false_ne_true
    | _ => exact absurd rfl delimiting

/-- A number sign opens a block or a slot where a name stands before a bracket or brace, and only there. -/
theorem read_sign_iff (enclosure : Enclosure) (names : token.names? = some enclosure) {after : Text} :
    (read '#' after).1 = token ↔ ∃ name rest, IsName name ∧ after = name ++ enclosure.opening :: rest := by
  constructor
  · intro h
    cases hopening : readOpening? after with
    | none =>
      simp only [read, hopening] at h
      subst h
      cases names
    | some found =>
      simp only [read, hopening] at h
      subst h
      obtain ⟨other, name, hother, named, _, hafter⟩ := readOpening?_eq_some_iff.mp hopening
      obtain rfl := Option.some.inj (hother.symm.trans names)
      exact ⟨name, found.2.2, named, hafter⟩
  · rintro ⟨name, rest, named, rfl⟩
    have hread := read_opening enclosure names named rest
    rw [List.append_assoc, List.singleton_append] at hread
    rw [hread]

/-! ## Between lexemes -/

/-- Whether what stands before a text does not hide its first letter, if this is a delimiter. -/
def Quiet (lead text : Text) : Prop :=
  ∀ first ∈ text.head?, isDelimiter first = true → Text.endsHiding lead = false

/-- A lexeme hides nothing behind it, but for a backslash that stands before no delimiter. -/
theorem IsLongest.quiet (h : IsLongest token part rest) (quiet : Quiet lead (part ++ rest)) :
    Quiet (lead ++ part) rest := by
  intro first hfirst delimiter
  have hvisible : '\\' ∉ part → Text.endsHiding (lead ++ part) = false :=
    fun visible => Text.endsHiding_append visible fun hnil => absurd hnil h.isMatch.ne_nil
  obtain ⟨isMatch, longest⟩ := h
  cases isMatch with
  | @escaped letter _ =>
    have hlead : Text.endsHiding lead = false := quiet '\\' rfl rfl
    rw [← List.singleton_append, ← List.append_assoc, Text.endsHiding_concat, Text.endsHiding_concat, hlead]
    exact Text.hides_of_hidden letter
  | backslash =>
    obtain ⟨after, rfl⟩ := List.head?_eq_some_iff.mp hfirst
    have hlonger := longest _ _ (.escaped delimiter) ⟨after, rfl⟩
    simp at hlonger
  | text _ plain =>
    apply hvisible
    intro hmem
    exact absurd (plain '\\' hmem) (by decide)
  | blockOpen named => exact hvisible ((Matches.blockOpen named).spec_of_isDelimiting rfl).1
  | slotOpen named => exact hvisible ((Matches.slotOpen named).spec_of_isDelimiting rfl).1
  | _ => exact hvisible (by decide)

end Token

namespace Lexeme

open Token (IsName Quiet delimiters)

variable {start : Nat} {text lead before after : Text} {letter : Char} {lexemes earlier later : List Lexeme}
  {lexeme : Lexeme}

/-- The part of a text that a lexeme covers. -/
def span (lexeme : Lexeme) : Span := ⟨lexeme.start, lexeme.stop⟩

/-- Lexemes that stand one after the other tile the text that they cover. -/
theorem Adjoin.tile (adjoin : Adjoin start lexemes) :
    Span.Tile start (lexemes.map span) (start + Text.width (join lexemes)) := by
  induction lexemes generalizing start with
  | nil => exact (Nat.add_zero start).symm
  | cons lexeme rest ih =>
    obtain ⟨rfl, hfull, hrest⟩ := adjoin
    have hstop : lexeme.stop = lexeme.start + Text.width lexeme.text := rfl
    have hwidth : 0 < Text.width lexeme.text := by
      obtain ⟨first, others, htext⟩ := List.exists_cons_of_ne_nil hfull
      have hsize := first.utf8Size_pos
      rw [htext, Text.width_cons]
      omega
    refine ⟨rfl, ?_, ?_⟩
    · change lexeme.start < lexeme.stop
      omega
    · rw [join_cons, Text.width_append, ← Nat.add_assoc, ← hstop]
      exact ih hrest

/-- A letter of the text that lexemes cover stands in one of them. -/
theorem exists_split_of_join (h : join lexemes = before ++ letter :: after) :
    ∃ earlier lexeme later front back, lexemes = earlier ++ lexeme :: later ∧
      lexeme.text = front ++ letter :: back ∧ before = join earlier ++ front ∧
      after = back ++ join later := by
  induction lexemes generalizing before with
  | nil => simp at h
  | cons first rest ih =>
    rw [join_cons] at h
    rcases List.append_eq_append_iff.mp h with ⟨part, rfl, hpart⟩ | ⟨part, htext, hpart⟩
    · obtain ⟨earlier, lexeme, later, front, back, rfl, htext, rfl, rfl⟩ := ih hpart
      exact ⟨first :: earlier, lexeme, later, front, back, rfl, htext, by simp, rfl⟩
    · cases part with
      | nil =>
        have hrest : join rest = [] ++ letter :: after := hpart.symm
        obtain ⟨earlier, lexeme, later, front, back, rfl, hletter, hfront, rfl⟩ := ih hrest
        refine ⟨first :: earlier, lexeme, later, front, back, rfl, hletter, ?_, rfl⟩
        rw [join_cons, List.append_assoc, ← hfront, htext, List.append_nil, List.append_nil]
      | cons other back =>
        obtain ⟨rfl, rfl⟩ := List.cons.inj hpart
        exact ⟨[], first, rest, before, back, rfl, htext, rfl, rfl⟩

/-- Each lexeme is the longest match where it begins. -/
theorem isLongest_of_tokenize (h : scan start text = earlier ++ lexeme :: later) :
    Token.IsLongest lexeme.token lexeme.text (join later) := by
  have hcuts := cuts_scan start text
  rw [h] at hcuts
  clear h
  induction earlier generalizing start text with
  | nil =>
    cases hcuts with
    | cons first others =>
      rw [cuts_iff.mp others, join_scan]
      exact first
  | cons first rest ih =>
    cases hcuts with
    | cons _ others => exact ih others

/-- What stands before a lexeme does not hide the delimiter with which it begins. -/
theorem quiet_of_tokenize (h : scan start text = earlier ++ lexeme :: later) (quiet : Quiet lead text) :
    Quiet (lead ++ join earlier) (lexeme.text ++ join later) := by
  have hcuts := cuts_scan start text
  have hjoin := join_scan start text
  rw [h] at hcuts hjoin
  clear h
  induction earlier generalizing start text lead with
  | nil =>
    rw [join_nil, List.append_nil, ← join_cons]
    rwa [← hjoin] at quiet
  | cons first rest ih =>
    cases hcuts with
    | cons isLongest others =>
      rw [join_cons, ← List.append_assoc]
      refine ih (isLongest.quiet quiet) others ?_
      simpa using hjoin

/-! ## Delimiters -/

/-- What is to be said of the lexeme in which a delimiter stands, by what stands before and after the
delimiter. -/
structure Holds (lexeme : Lexeme) (before : Text) (letter : Char) (after : Text) : Prop where
  covers : lexeme.start ≤ Text.width before ∧ Text.width before < lexeme.stop
  delimiting : lexeme.token.isDelimiting = true ↔ Text.backslashes before % 2 = 0
  unescaped : lexeme.token ≠ .escaped ↔ Text.backslashes before % 2 = 0
  escaped : Text.backslashes before % 2 = 1 →
    lexeme.start + 1 = Text.width before ∧ lexeme.stop = Text.width before + 1
  starts : letter = '#' → Text.backslashes before % 2 = 0 → lexeme.start = Text.width before
  blockOpen : letter = '#' → Text.backslashes before % 2 = 0 →
    (lexeme.token = .blockOpen ↔ ∃ name rest, IsName name ∧ after = name ++ '[' :: rest)
  slotOpen : letter = '#' → Text.backslashes before % 2 = 0 →
    (lexeme.token = .slotOpen ↔ ∃ name rest, IsName name ∧ after = name ++ '{' :: rest)

theorem holds_of_tokenize {front back : Text} (h : tokenize text = earlier ++ lexeme :: later)
    (htext : lexeme.text = front ++ letter :: back) (delimiter : letter ∈ delimiters) :
    lexeme.Holds (join earlier ++ front) letter (back ++ join later) := by
  have hlongest := isLongest_of_tokenize h
  have hquiet : Quiet ([] ++ join earlier) (lexeme.text ++ join later) :=
    quiet_of_tokenize h fun _ _ _ => rfl
  rw [List.nil_append] at hquiet
  have hadjoin := adjoin_tokenize text
  rw [h, List.append_cons, adjoin_append_iff] at hadjoin
  obtain ⟨_, hstart, _, _⟩ := hadjoin.1.spec
  have hstop : lexeme.stop = lexeme.start + Text.width lexeme.text := rfl
  have hsize : letter.utf8Size = 1 := by fin_cases delimiter <;> rfl
  have hodd := Text.endsHiding_iff_odd (join earlier ++ front)
  rw [htext] at hlongest hquiet hstop
  rcases hlongest.isMatch.spec_of_mem_delimiters delimiter with
    ⟨htoken, rfl, rfl⟩ | ⟨delimiting, visible, hsign⟩
  · -- The backslash of an escape begins a lexeme, so it is not hidden and hides the delimiter.
    have hhidden : Text.endsHiding (join earlier ++ ['\\']) = true := by
      rw [Text.endsHiding_concat, hquiet '\\' rfl rfl]
      rfl
    have hbackslashes := hodd.mp hhidden
    have hbefore : Text.width (join earlier ++ ['\\']) = lexeme.start + 1 := by
      rw [Text.width_append, hstart]
      rfl
    have hwidth : Text.width (['\\'] ++ [letter]) = 2 := by
      rw [Text.width_append, Text.width_cons letter, hsize]
      rfl
    have hlost : ∀ {statement : Prop}, Text.backslashes (join earlier ++ ['\\']) % 2 = 0 → statement :=
      fun heven => absurd heven (by omega)
    refine ⟨by omega, ?_, ?_, fun _ => by omega, fun _ => hlost, fun _ => hlost, fun _ => hlost⟩
    · rw [htoken]
      exact ⟨fun hdelimiting => (nomatch hdelimiting), hlost⟩
    · exact ⟨fun hne => absurd htoken hne, hlost⟩
  · have hshown : Text.endsHiding (join earlier ++ front) = false := by
      apply Text.endsHiding_append visible
      rintro rfl
      exact hquiet letter rfl (Token.mem_delimiters_iff.mp delimiter).1
    have heven : Text.backslashes (join earlier ++ front) % 2 = 0 := by
      have hnot := mt hodd.mpr (Bool.eq_false_iff.mp hshown)
      omega
    have hbefore : Text.width (join earlier ++ front) = lexeme.start + Text.width front := by
      rw [Text.width_append, hstart]
    have hwidth : Text.width (front ++ letter :: back) = Text.width front + (1 + Text.width back) := by
      rw [Text.width_append, Text.width_cons, hsize]
    -- A number sign begins its lexeme, and what is read there depends on what follows it.
    have hread : letter = '#' → front = [] ∧ (Token.read '#' (back ++ join later)).1 = lexeme.token := by
      rintro rfl
      obtain rfl := hsign rfl
      rw [List.nil_append] at hlongest
      exact ⟨rfl, congrArg Prod.fst hlongest.read_eq⟩
    refine ⟨by omega, ?_, ?_, fun hhidden => by omega, fun heq _ => ?_, fun heq _ => ?_, fun heq _ => ?_⟩
    · exact ⟨fun _ => heven, fun _ => delimiting⟩
    · refine ⟨fun _ => heven, fun _ htoken => ?_⟩
      rw [htoken] at delimiting
      exact nomatch delimiting
    · rw [hbefore, (hread heq).1]
      rfl
    · rw [← (hread heq).2]
      exact Token.read_sign_iff .bracket rfl
    · rw [← (hread heq).2]
      exact Token.read_sign_iff .brace rfl

/-- A text falls into lexemes without loss, by the longest match: their texts make up the text, and their spans
follow one another from its start to its end and are not empty. A bracket, a brace or a number sign stands in a
lexeme of delimiters when the number of backslashes right before it is even, and else it is the second letter of
an escape. A number sign that is not escaped begins a lexeme, which opens a block or a slot when a name stands
behind it and then a bracket or a brace, and not otherwise. -/
theorem tokenize_respects_escapes (text : Text) :
    (∀ lexemes, Cuts 0 text lexemes ↔ lexemes = tokenize text) ∧
      join (tokenize text) = text ∧
      Span.Tile 0 ((tokenize text).map span) (Text.width text) ∧
      ∀ before letter after, text = before ++ letter :: after → letter ∈ ['[', ']', '{', '}', '#'] →
        ∃ lexeme ∈ tokenize text, lexeme.Holds before letter after := by
  have htile := (adjoin_tokenize text).tile
  rw [join_tokenize, Nat.zero_add] at htile
  refine ⟨fun lexemes => cuts_iff, join_tokenize text, htile, fun before letter after h delimiter => ?_⟩
  obtain ⟨earlier, lexeme, later, front, back, hsplit, htext, rfl, rfl⟩ :=
    exists_split_of_join ((join_tokenize text).trans h)
  refine ⟨lexeme, ?_, holds_of_tokenize hsplit htext delimiter⟩
  rw [hsplit]
  exact List.mem_append_right earlier List.mem_cons_self

/-- Of three backslashes the first two escape each other, so the number sign behind them opens a block. The third
one escapes the bracket. -/
theorem tokenize_respects_escapes_threeBackslashes :
    let text : Text := ['\\', '\\', '#', 'a', '[', '\\', ']']
    (text = ['\\', '\\'] ++ '#' :: ['a', '[', '\\', ']'] ∧
      ∃ lexeme ∈ tokenize text, lexeme.start = 2 ∧ lexeme.token = .blockOpen) ∧
    (text = ['\\', '\\', '#', 'a', '[', '\\'] ++ ']' :: [] ∧
      ∃ lexeme ∈ tokenize text, lexeme.token = .escaped ∧ lexeme.start + 1 = 6 ∧ lexeme.stop = 7) := by
  intro text
  have holds := (tokenize_respects_escapes text).2.2.2
  obtain ⟨sign, hsign, holdsSign⟩ := holds ['\\', '\\'] '#' ['a', '[', '\\', ']'] rfl (by decide)
  obtain ⟨bracket, hbracket, holdsBracket⟩ :=
    holds ['\\', '\\', '#', 'a', '[', '\\'] ']' [] rfl (by decide)
  have hopens : sign.token = .blockOpen :=
    (holdsSign.blockOpen rfl (by decide)).mpr ⟨['a'], ['\\', ']'], ⟨'a', [], rfl, rfl, by simp⟩, rfl⟩
  have hescaped : bracket.token = .escaped := by
    by_contra hne
    exact absurd (holdsBracket.unescaped.mp hne) (by decide)
  exact ⟨⟨rfl, sign, hsign, holdsSign.starts rfl (by decide), hopens⟩,
    rfl, bracket, hbracket, hescaped, holdsBracket.escaped (by decide)⟩

end Lexeme
end Courseware
