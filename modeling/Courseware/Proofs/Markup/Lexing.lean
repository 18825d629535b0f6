import Mathlib.Data.List.TakeWhile
import Courseware.Proofs.Markup.Step

/-!
# Lexemes cover a text

The lexemes of a text stand one after the other and leave nothing out. So the lexemes that have been
read say how far a reader has come, and each lexeme is found again in the text at the offset at which
it starts. A lexeme that names or closes something is spelled in one way only; `Lexeme.Spelled` says
how.
-/

namespace Courseware

namespace Enclosure

/-- The character that opens what is enclosed. -/
def opening : Enclosure → Char
  | bracket => '['
  | brace => '{'

/-- The character that closes what is enclosed. -/
def closing : Enclosure → Char
  | bracket => ']'
  | brace => '}'

end Enclosure

namespace Token

/-- What opens a block or a slot is a name whose characters are letters, digits and underscores, and a
bracket or brace. -/
theorem spec_of_readOpening? {text name rest : Text} {token : Token}
    (h : readOpening? text = some (token, name, rest)) :
    ∃ letters enclosure, token.names? = some enclosure ∧ token.closes? = none ∧
      name = letters ++ [enclosure.opening] ∧ ∀ letter ∈ letters, isNameRest letter = true := by
  unfold readOpening? at h
  simp only [Text.splitWhile] at h
  split at h
  · next first others bracket after hname hafter =>
    split at h
    · obtain ⟨found, hfound, heq⟩ := Option.map_eq_some_iff.mp h
      obtain ⟨rfl, rfl, rfl⟩ := heq
      have hletters : ∀ letter ∈ first :: others, isNameRest letter = true := by
        intro letter hletter
        rw [← hname] at hletter
        exact List.mem_takeWhile_imp hletter
      rw [hname]
      unfold opening? at hfound
      split at hfound
      · cases hfound
        exact ⟨_, .bracket, rfl, rfl, rfl, hletters⟩
      · cases hfound
        exact ⟨_, .brace, rfl, rfl, rfl, hletters⟩
      · cases hfound
    · cases h
  · cases h

end Token

namespace Lexeme

/-! ## One after the other -/

/-- The text that some lexemes cover. -/
def join (lexemes : List Lexeme) : Text := lexemes.flatMap Lexeme.text

@[simp]
theorem join_nil : join [] = [] := rfl

@[simp]
theorem join_cons (lexeme : Lexeme) (rest : List Lexeme) :
    join (lexeme :: rest) = lexeme.text ++ join rest := rfl

@[simp]
theorem join_append (before after : List Lexeme) : join (before ++ after) = join before ++ join after :=
  List.flatMap_append

/-- Lexemes stand one after the other, the first at a byte offset, and none of them is empty. -/
def Adjoin (start : Nat) : List Lexeme → Prop
  | [] => True
  | lexeme :: rest => lexeme.start = start ∧ lexeme.text ≠ [] ∧ Adjoin lexeme.stop rest

theorem adjoin_append_iff {start : Nat} {before after : List Lexeme} :
    Adjoin start (before ++ after) ↔
      Adjoin start before ∧ Adjoin (start + Text.width (join before)) after := by
  induction before generalizing start with
  | nil => simp [Adjoin]
  | cons lexeme rest ih =>
    simp only [List.cons_append, Adjoin, ih, join_cons, Text.width_append, and_assoc]
    constructor
    · rintro ⟨rfl, hfull, hrest, hafter⟩
      rw [stop, Nat.add_assoc] at hafter
      exact ⟨rfl, hfull, hrest, hafter⟩
    · rintro ⟨rfl, hfull, hrest, hafter⟩
      rw [← Nat.add_assoc] at hafter
      exact ⟨rfl, hfull, hrest, hafter⟩

/-- The lexemes of a text cover it. -/
@[simp]
theorem join_scan (start : Nat) (text : Text) : join (scan start text) = text := by
  fun_induction scan start text with
  | case1 => rfl
  | case2 start first rest reading ih =>
    rw [join_cons, ih]
    exact Token.append_read first rest

theorem adjoin_scan (start : Nat) (text : Text) : Adjoin start (scan start text) := by
  fun_induction scan start text with
  | case1 => trivial
  | case2 start first rest reading ih => exact ⟨rfl, Token.read_ne_nil first rest, ih⟩

@[simp]
theorem join_tokenize (text : Text) : join (tokenize text) = text := join_scan 0 text

theorem adjoin_tokenize (text : Text) : Adjoin 0 (tokenize text) := adjoin_scan 0 text

theorem start_lt_stop {lexeme : Lexeme} (full : lexeme.text ≠ []) : lexeme.start < lexeme.stop := by
  obtain ⟨letter, rest, htext⟩ := List.exists_cons_of_ne_nil full
  have hsize := letter.utf8Size_pos
  rw [stop, htext, Text.width_cons]
  omega

/-- Where a lexeme starts that is read after others, and where it stops. -/
theorem Adjoin.spec {lexeme : Lexeme} {before : List Lexeme} (h : Adjoin 0 (before ++ [lexeme])) :
    Adjoin 0 before ∧ lexeme.start = Text.width (join before) ∧
      lexeme.stop = Text.width (join (before ++ [lexeme])) ∧ lexeme.start < lexeme.stop := by
  obtain ⟨hbefore, hstart, hfull, _⟩ := adjoin_append_iff.mp h
  rw [Nat.zero_add] at hstart
  refine ⟨hbefore, hstart, ?_, start_lt_stop hfull⟩
  simp [stop, hstart]

theorem Adjoin.start_lt_stop_of_mem {start : Nat} {lexemes : List Lexeme} (adjoin : Adjoin start lexemes)
    {lexeme : Lexeme} (h : lexeme ∈ lexemes) : lexeme.start < lexeme.stop := by
  obtain ⟨before, after, rfl⟩ := List.append_of_mem h
  exact start_lt_stop (adjoin_append_iff.mp adjoin).2.2.1

/-- A lexeme stands in the text at the offset at which it starts. -/
theorem exists_split_of_mem_tokenize {text : Text} {lexeme : Lexeme} (h : lexeme ∈ tokenize text) :
    ∃ before after, text = before ++ (lexeme.text ++ after) ∧ lexeme.start = Text.width before := by
  obtain ⟨before, after, hsplit⟩ := List.append_of_mem h
  have hadjoin := adjoin_tokenize text
  have hjoin := join_tokenize text
  rw [hsplit] at hadjoin hjoin
  obtain ⟨_, hstart, _⟩ := adjoin_append_iff.mp hadjoin
  rw [Nat.zero_add] at hstart
  refine ⟨join before, join after, ?_, hstart⟩
  rw [← hjoin, join_append, join_cons]

/-! ## How lexemes are spelled -/

/-- A lexeme that opens a block or a slot is a number sign, a name and a bracket or brace, and one that
closes something is a bracket or brace alone. -/
structure Spelled (lexeme : Lexeme) : Prop where
  names : ∀ enclosure, lexeme.token.names? = some enclosure →
    ∃ letters, lexeme.text = '#' :: (letters ++ [enclosure.opening]) ∧
      ∀ letter ∈ letters, Token.isNameRest letter = true
  closes : ∀ enclosure, lexeme.token.closes? = some enclosure → lexeme.text = [enclosure.closing]

theorem spelled_read (start : Nat) (first : Char) (rest : Text) :
    Spelled ⟨(Token.read first rest).1, start, (Token.read first rest).2.1⟩ := by
  unfold Token.read
  split
  case h_5 =>
    split
    · next token name after hopening =>
      obtain ⟨letters, enclosure, hnames, hcloses, rfl, hletters⟩ :=
        Token.spec_of_readOpening? hopening
      refine ⟨?_, fun other h => ?_⟩
      · intro other h
        obtain rfl := Option.some.inj (hnames.symm.trans h)
        exact ⟨letters, rfl, hletters⟩
      · exact nomatch hcloses.symm.trans h
    · exact ⟨nofun, nofun⟩
  case h_6 =>
    split
    · split <;> exact ⟨nofun, nofun⟩
    · exact ⟨nofun, nofun⟩
  case h_2 | h_4 =>
    refine ⟨nofun, ?_⟩
    rintro enclosure ⟨⟩
    rfl
  all_goals exact ⟨nofun, nofun⟩

theorem spelled_of_mem_scan {start : Nat} {text : Text} {lexeme : Lexeme}
    (h : lexeme ∈ scan start text) : Spelled lexeme := by
  fun_induction scan start text with
  | case1 => exact absurd h List.not_mem_nil
  | case2 start first rest reading ih =>
    rcases List.mem_cons.mp h with rfl | hrest
    · exact spelled_read start first rest
    · exact ih hrest

/-- What a lexeme names stands between its number sign and its bracket or brace. -/
theorem Spelled.text_of_names? {lexeme : Lexeme} {enclosure : Enclosure} (spelled : Spelled lexeme)
    (named : lexeme.token.names? = some enclosure) :
    lexeme.text = '#' :: (lexeme.name.toList ++ [enclosure.opening]) := by
  obtain ⟨letters, htext, _⟩ := spelled.names enclosure named
  rw [name, htext, List.drop_succ_cons, List.drop_zero, List.dropLast_concat, String.toList_ofList]

end Lexeme

/-! ## Walks over the lexemes of a text -/

namespace Reader

variable {scope : ReaderScope} {reader next : Reader}

/-- A property of what has been read that every step keeps holds along every walk over lexemes that stand
one after the other. -/
theorem Walk.invariant_of_adjoin (property : List Lexeme → Reader → Prop) {lexemes : List Lexeme}
    (adjoin : Lexeme.Adjoin 0 lexemes) (start : property [] reader)
    (keep : ∀ before middle lexeme after, Lexeme.Adjoin 0 (before ++ [lexeme]) →
      Walk scope reader before middle → property before middle → Step scope middle lexeme after →
        property (before ++ [lexeme]) after)
    (walk : Walk scope reader lexemes next) : property lexemes next := by
  refine walk.invariant (fun done reached => Lexeme.Adjoin 0 done → property done reached)
    (fun _ => start) ?_ adjoin
  intro before middle lexeme after hwalk ih step hadjoin
  exact keep before middle lexeme after hadjoin hwalk (ih hadjoin.spec.1) step

end Reader
end Courseware
