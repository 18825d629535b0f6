import Courseware.Course.Artifact
import Courseware.Text.Blank

/-!
# Reading the database script

The script is read back by a reader that knows the rules of literals but not what values to expect. Its
scanner takes one letter after the other. A literal begins with a quote and ends with a quote that no
other quote follows, and two quotes inside it stand for one; letters, digits and underscores make words;
blanks separate; every other letter is a mark. Statements end with a semicolon outside of literals, and
each must be an insertion with a list of columns and a list of values.

The proof follows the scanner through a script. Whatever a value is made of, after its literal the scanner
is at a quote that may still turn out to be one of two, and the comma or the bracket behind it decides
that it is not. So every value leaves one token, every statement leaves its own tokens and a semicolon,
and the scanner is at the end of a statement where it was at its start.
-/

namespace Courseware.SqlScript

/-! ## Tokens -/

/-- A token of a script: the text that a literal stands for, a word, or a mark. -/
inductive Token
  | literal (value : String)
  | word (letters : String)
  | mark (letter : Char)
deriving DecidableEq, Repr

/-- Words are made of letters, digits and underscores. -/
def isWordLetter (letter : Char) : Bool := letter.isAlphanum || letter == '_'

/-- What a scanner is inside of, with its letters so far, latest first. After a quote in a literal it is
open whether the literal goes on. -/
inductive Pending
  | nothing
  | word (latestFirst : Text)
  | literal (latestFirst : Text)
  | quote (latestFirst : Text)
deriving DecidableEq, Repr

/-- A scanner, with the tokens that are complete, latest first. -/
structure Scanner where
  pending : Pending
  tokens : List Token
deriving DecidableEq, Repr

namespace Scanner

/-- Begin anew with a letter, after some tokens. -/
def start (tokens : List Token) (letter : Char) : Scanner :=
  if letter = '\'' then ⟨.literal [], tokens⟩
  else if isWordLetter letter then ⟨.word [letter], tokens⟩
  else if Text.isBlank letter then ⟨.nothing, tokens⟩
  else ⟨.nothing, .mark letter :: tokens⟩

/-- Take a letter. -/
def read (scanner : Scanner) (letter : Char) : Scanner :=
  match scanner.pending with
  | .nothing => start scanner.tokens letter
  | .word letters =>
    if isWordLetter letter then { scanner with pending := .word (letter :: letters) }
    else start (.word (String.ofList letters.reverse) :: scanner.tokens) letter
  | .literal letters =>
    if letter = '\'' then { scanner with pending := .quote letters }
    else { scanner with pending := .literal (letter :: letters) }
  | .quote letters =>
    if letter = '\'' then { scanner with pending := .literal ('\'' :: letters) }
    else start (.literal (String.ofList letters.reverse) :: scanner.tokens) letter

/-- The tokens of a text that has been scanned to its end, which is not inside a literal. -/
def finish? (scanner : Scanner) : Option (List Token) :=
  match scanner.pending with
  | .nothing => some scanner.tokens.reverse
  | .word letters => some (.word (String.ofList letters.reverse) :: scanner.tokens).reverse
  | .literal _ => none
  | .quote letters => some (.literal (String.ofList letters.reverse) :: scanner.tokens).reverse

end Scanner

/-- The tokens of a text. -/
def tokens? (text : Text) : Option (List Token) :=
  (text.foldl Scanner.read ⟨.nothing, []⟩).finish?

/-! ## Statements -/

/-- A statement that inserts a row of values, each of them a text or `NULL`, into the columns of a table,
unless the table has a row with the same value in the column `key` already. -/
structure Insertion where
  table : String
  columns : List String
  values : List (Option String)
  key : String
deriving DecidableEq, Repr

namespace Insertion

/-- A name is a word. -/
def name? : Token → Option String
  | .word letters => some letters
  | _ => none

/-- A value is a literal or the word `NULL`. -/
def value? : Token → Option (Option String)
  | .literal value => some (some value)
  | .word letters => if letters = "NULL" then some none else none
  | .mark _ => none

/-- Read items with commas between them up to a closing bracket, and what follows it. -/
def readList? {α : Type} (item? : Token → Option α) : List Token → Option (List α × List Token)
  | token :: .mark ',' :: rest => do
    let item ← item? token
    let (items, after) ← readList? item? rest
    some (item :: items, after)
  | token :: .mark ')' :: rest => do
    let item ← item? token
    some ([item], rest)
  | _ => none

/-- Read the tokens of an insertion. -/
def ofTokens? : List Token → Option Insertion
  | .word "INSERT" :: .word "INTO" :: .word table :: .mark '(' :: rest => do
    let (columns, rest) ← readList? name? rest
    match rest with
    | .word "VALUES" :: .mark '(' :: rest => do
      let (values, rest) ← readList? value? rest
      match rest with
      | [.word "ON", .word "CONFLICT", .mark '(', .word key, .mark ')', .word "DO",
          .word "NOTHING"] => some ⟨table, columns, values, key⟩
      | _ => none
    | _ => none
  | _ => none

end Insertion

/-- The insertions of a script. Nothing may follow the last semicolon. -/
def read? (text : Text) : Option (List Insertion) := do
  let statements := (← tokens? text).splitOnP (· == .mark ';')
  if statements.getLast? = some [] then
    statements.dropLast.mapM Insertion.ofTokens?
  else
    none

/-- The values that are to be registered for a course: its id, the ids of its current topic and chapter,
and the date until which registration is open. -/
def values (course : Course) : List (Option String) :=
  [some course.id, course.current?.map fun (topic, _) => topic.id,
    course.current?.map fun (_, chapter) => chapter.id, course.registrationOpenUntil]

theorem values_ne_nil (course : Course) : values course ≠ [] := List.cons_ne_nil _ _

/-- The insertion that registers a course. -/
def insertion (course : Course) : Insertion where
  table := "courses"
  columns := ["course_id", "current_topic_id", "current_chapter_id", "registration_open_until"]
  values := values course
  key := "course_id"

/-! ## Scanning what is written -/

/-- The token of a value. -/
def valueToken : Option String → Token
  | some value => .literal value
  | none => .word "NULL"

/-- What has been scanned before is kept. -/
theorem foldl_read_tokens (text : Text) (pending : Pending) (tokens : List Token) :
    text.foldl Scanner.read ⟨pending, tokens⟩ =
      ⟨(text.foldl Scanner.read ⟨pending, []⟩).pending,
        (text.foldl Scanner.read ⟨pending, []⟩).tokens ++ tokens⟩ := by
  induction text generalizing pending tokens with
  | nil => rfl
  | cons letter rest ih =>
    have hletter : Scanner.read ⟨pending, tokens⟩ letter =
        ⟨(Scanner.read ⟨pending, []⟩ letter).pending,
          (Scanner.read ⟨pending, []⟩ letter).tokens ++ tokens⟩ := by
      cases pending <;> grind [Scanner.read, Scanner.start]
    rw [List.foldl_cons, List.foldl_cons, hletter, ih, ih _ (Scanner.read _ letter).tokens,
      List.append_assoc]

/-- Inside a literal, the letters of a value are read as they are, quotes included. -/
theorem foldl_read_escaped (letters done : Text) (tokens : List Token) :
    (letters.flatMap fun letter => if letter == '\'' then ['\'', '\''] else [letter]).foldl
        Scanner.read ⟨.literal done, tokens⟩ = ⟨.literal (letters.reverse ++ done), tokens⟩ := by
  induction letters generalizing done with
  | nil => rfl
  | cons letter rest ih =>
    rw [List.flatMap_cons, List.foldl_append, List.reverse_cons, List.append_assoc]
    by_cases hquote : letter = '\''
    · subst hquote
      exact ih ('\'' :: done)
    · have hread : Scanner.read ⟨.literal done, tokens⟩ letter =
          ⟨.literal (letter :: done), tokens⟩ := if_neg hquote
      rw [if_neg (by simpa using hquote), List.foldl_cons, List.foldl_nil, hread]
      exact ih (letter :: done)

/-- After the closing quote of a literal the scanner is at a quote. -/
theorem foldl_read_literal (value : String) (tokens : List Token) :
    (literal value).foldl Scanner.read ⟨.nothing, tokens⟩ =
      ⟨.quote value.toList.reverse, tokens⟩ := by
  have hopen : Scanner.read ⟨.nothing, tokens⟩ '\'' = ⟨.literal [], tokens⟩ := rfl
  rw [literal, List.cons_append, List.foldl_cons, hopen, List.foldl_append, foldl_read_escaped,
    List.append_nil]
  rfl

/-- A value leaves its token, whatever letters it has: the mark that follows ends it. -/
theorem foldl_read_optionalLiteral (value : Option String) (tokens : List Token) {mark : Char}
    (h : mark = ',' ∨ mark = ')') :
    (optionalLiteral value ++ [mark]).foldl Scanner.read ⟨.nothing, tokens⟩ =
      ⟨.nothing, .mark mark :: valueToken value :: tokens⟩ := by
  cases value with
  | none => rcases h with rfl | rfl <;> rfl
  | some value =>
    have hends : ∀ letters, Scanner.read ⟨.quote letters, tokens⟩ mark =
        ⟨.nothing, .mark mark :: .literal (String.ofList letters.reverse) :: tokens⟩ := by
      rcases h with rfl | rfl <;> exact fun _ => rfl
    rw [optionalLiteral, List.foldl_append, foldl_read_literal, List.foldl_cons, hends,
      List.reverse_reverse, String.ofList_toList]
    rfl

/-- The tokens of values with commas between them, and the bracket that closes them. -/
def valueTokens : List (Option String) → List Token
  | [] => []
  | [value] => [valueToken value, .mark ')']
  | value :: rest => valueToken value :: .mark ',' :: valueTokens rest

/-- A row leaves the tokens of its values. -/
theorem foldl_read_row {values : List (Option String)} (full : values ≠ []) (tokens : List Token) :
    (Text.join [',', ' '] (values.map optionalLiteral) ++ [')']).foldl Scanner.read
        ⟨.nothing, tokens⟩ = ⟨.nothing, (valueTokens values).reverse ++ tokens⟩ := by
  induction values generalizing tokens with
  | nil => exact absurd rfl full
  | cons value rest ih =>
    cases rest with
    | nil =>
      rw [List.map_singleton, Text.join, List.intercalate_singleton,
        foldl_read_optionalLiteral value tokens (.inr rfl)]
      rfl
    | cons second others =>
      have hsplit : Text.join [',', ' '] ((value :: second :: others).map optionalLiteral) ++ [')'] =
          (optionalLiteral value ++ [',']) ++
            ' ' :: (Text.join [',', ' '] ((second :: others).map optionalLiteral) ++ [')']) := by
        simp [Text.join, List.intercalate_cons_cons]
      have hblank : ∀ tokens, Scanner.read ⟨.nothing, tokens⟩ ' ' = ⟨.nothing, tokens⟩ :=
        fun _ => rfl
      rw [hsplit, List.foldl_append, foldl_read_optionalLiteral value tokens (.inl rfl),
        List.foldl_cons, hblank, ih (List.cons_ne_nil _ _)]
      simp [valueTokens]

/-- The tokens of the columns, and the bracket that closes them. -/
def columnTokens : List Token :=
  [.word "course_id", .mark ',', .word "current_topic_id", .mark ',', .word "current_chapter_id",
    .mark ',', .word "registration_open_until", .mark ')']

/-- The tokens before the values of a statement. -/
def startTokens : List Token :=
  [.word "INSERT", .word "INTO", .word "courses", .mark '('] ++ columnTokens ++
    [.word "VALUES", .mark '(']

/-- The tokens after the values of a statement. -/
def endTokens : List Token :=
  [.word "ON", .word "CONFLICT", .mark '(', .word "course_id", .mark ')', .word "DO",
    .word "NOTHING"]

/-- The tokens of a statement without its semicolon. -/
def statementTokens (course : Course) : List Token :=
  startTokens ++ valueTokens (values course) ++ endTokens

/-- The end of a statement after the bracket that closes its values. -/
def afterValues : Text := " ON CONFLICT (course_id) DO NOTHING;\n".toList

theorem foldl_read_statementStart (tokens : List Token) :
    statementStart.toList.foldl Scanner.read ⟨.nothing, tokens⟩ =
      ⟨.nothing, startTokens.reverse ++ tokens⟩ := by
  have hstart : statementStart.toList.foldl Scanner.read ⟨.nothing, []⟩ =
      ⟨.nothing, startTokens.reverse⟩ := by decide +kernel
  rw [foldl_read_tokens, hstart]

theorem foldl_read_afterValues (tokens : List Token) :
    afterValues.foldl Scanner.read ⟨.nothing, tokens⟩ =
      ⟨.nothing, .mark ';' :: (endTokens.reverse ++ tokens)⟩ := by
  have hend : afterValues.foldl Scanner.read ⟨.nothing, []⟩ =
      ⟨.nothing, .mark ';' :: endTokens.reverse⟩ := by decide +kernel
  rw [foldl_read_tokens, hend]
  rfl

/-- A statement is made of the values that are to be registered, and of nothing else of the course. -/
theorem statement_eq (course : Course) :
    statement course ++ ['\n'] = statementStart.toList ++
      (Text.join [',', ' '] ((values course).map optionalLiteral) ++ [')'] ++ afterValues) := by
  have hend : statementEnd.toList ++ ['\n'] = ')' :: afterValues := by decide +kernel
  rw [statement, List.append_assoc, hend, List.append_assoc, List.append_assoc]
  rfl

/-- A statement leaves its tokens and a semicolon, and the scanner inside of nothing. -/
theorem foldl_read_statement (course : Course) (tokens : List Token) :
    (statement course ++ ['\n']).foldl Scanner.read ⟨.nothing, tokens⟩ =
      ⟨.nothing, .mark ';' :: ((statementTokens course).reverse ++ tokens)⟩ := by
  rw [statement_eq, List.foldl_append, List.foldl_append, foldl_read_statementStart,
    foldl_read_row (values_ne_nil course), foldl_read_afterValues]
  simp [statementTokens]

/-- A script leaves the tokens of its statements. -/
theorem tokens?_ofCourses (courses : List Course) :
    tokens? (ofCourses courses) =
      some (courses.flatMap fun course => statementTokens course ++ [.mark ';']) := by
  have scanned : ∀ tokens, (ofCourses courses).foldl Scanner.read ⟨.nothing, tokens⟩ =
      ⟨.nothing,
        (courses.flatMap fun course => statementTokens course ++ [.mark ';']).reverse ++ tokens⟩ := by
    induction courses with
    | nil => exact fun _ => rfl
    | cons course rest ih =>
      intro tokens
      rw [ofCourses, List.flatMap_cons, List.foldl_append, foldl_read_statement, ← ofCourses, ih]
      simp
  rw [tokens?, scanned, List.append_nil, Scanner.finish?, List.reverse_reverse]

/-! ## Reading the tokens -/

theorem value?_valueToken (value : Option String) :
    Insertion.value? (valueToken value) = some value := by
  cases value <;> rfl

/-- The values of a row are read back up to the bracket that closes them. -/
theorem readList?_valueTokens {values : List (Option String)} (full : values ≠ [])
    (rest : List Token) :
    Insertion.readList? Insertion.value? (valueTokens values ++ rest) = some (values, rest) := by
  induction values with
  | nil => exact absurd rfl full
  | cons value others ih =>
    cases others with
    | nil => simp [valueTokens, Insertion.readList?, value?_valueToken]
    | cons second more =>
      simp [valueTokens, Insertion.readList?, value?_valueToken, ih (List.cons_ne_nil _ _)]

/-- No token of a statement is a semicolon, also when a value holds one. -/
theorem beq_mark_of_mem_statementTokens (course : Course) :
    ∀ token ∈ statementTokens course, (token == Token.mark ';') = false := by
  have hvalue : ∀ value, valueToken value ≠ Token.mark ';' := by
    intro value
    cases value <;> exact nofun
  simp [statementTokens, startTokens, columnTokens, endTokens, values, valueTokens, hvalue]

theorem ofTokens?_statementTokens (course : Course) :
    Insertion.ofTokens? (statementTokens course) = some (insertion course) := by
  have hcolumns : ∀ rest, Insertion.readList? Insertion.name? (columnTokens ++ rest) =
      some ((insertion course).columns, rest) := fun _ => rfl
  have hvalues := readList?_valueTokens (values_ne_nil course) endTokens
  have htokens : statementTokens course =
      .word "INSERT" :: .word "INTO" :: .word "courses" :: .mark '(' ::
        (columnTokens ++ .word "VALUES" :: .mark '(' ::
          (valueTokens (values course) ++ endTokens)) := by
    simp [statementTokens, startTokens]
  rw [htokens, Insertion.ofTokens?, hcolumns]
  simp only [Option.bind_eq_bind, Option.bind_some, hvalues]
  rfl

/-- Semicolons divide a script into the tokens of its statements. -/
theorem splitOnP_flatMap (courses : List Course) :
    (courses.flatMap fun course => statementTokens course ++ [Token.mark ';']).splitOnP
      (· == Token.mark ';') = courses.map statementTokens ++ [[]] := by
  induction courses with
  | nil => rfl
  | cons course rest ih =>
    rw [List.flatMap_cons, List.append_assoc, List.singleton_append,
      List.splitOnP_append_cons_of_forall_mem (beq_mark_of_mem_statementTokens course) _ (beq_self_eq_true _),
      ih]
    rfl

theorem mapM_ofTokens? (courses : List Course) :
    (courses.map statementTokens).mapM Insertion.ofTokens? = some (courses.map insertion) := by
  induction courses with
  | nil => rfl
  | cons course rest ih =>
    rw [List.map_cons, List.mapM_cons, ofTokens?_statementTokens, ih]
    rfl

/-- A script is made of the values of its courses. -/
theorem ofCourses_congr {first second : List Course} (same : first.map values = second.map values) :
    ofCourses first = ofCourses second := by
  have hlines : ∀ courses, ofCourses courses = (courses.map values).flatMap fun values =>
      statementStart.toList ++
        (Text.join [',', ' '] (values.map optionalLiteral) ++ [')'] ++ afterValues) := by
    intro courses
    rw [List.flatMap_map]
    exact congrArg (fun line => courses.flatMap line) (funext statement_eq)
  rw [hlines, hlines, same]

/-- What is written for courses is read back: one insertion for each, in their order, with the values
that are to be registered for it, whatever letters these are made of. So scripts are the same exactly
for courses with the same values. -/
theorem read?_ofCourses :
    (∀ courses, read? (ofCourses courses) = some (courses.map insertion)) ∧
      ∀ first second,
        ofCourses first = ofCourses second ↔ first.map values = second.map values := by
  have reads : ∀ courses, read? (ofCourses courses) = some (courses.map insertion) := by
    intro courses
    rw [read?, tokens?_ofCourses]
    simp only [Option.bind_eq_bind, Option.bind_some, splitOnP_flatMap]
    rw [if_pos List.getLast?_concat, List.dropLast_concat]
    exact mapM_ofTokens? courses
  refine ⟨reads, fun first second => ⟨fun same => ?_, ofCourses_congr⟩⟩
  have hinsertions : first.map insertion = second.map insertion := by
    apply Option.some.inj
    rw [← reads, ← reads, same]
  have hvalues := congrArg (List.map Insertion.values) hinsertions
  rwa [List.map_map, List.map_map] at hvalues

end Courseware.SqlScript
