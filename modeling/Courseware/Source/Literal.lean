import Courseware.Text.Blank

/-!
# Literals

A literal is a region of a document that is kept as it is written: code, math, or a region marked
verbatim. `readLiteral?` reads the literal that starts where the reader stands, and `readFence?` the
fenced code block that starts on the line where the reader stands. Both report a literal that is
opened and never closed by the name of its delimiter.
-/

namespace Courseware

/-- What a literal shields. -/
inductive LiteralKind
  | fence
  | inlineCode
  | displayMath
  | inlineMath
  | verbatim
deriving DecidableEq, Repr

namespace LiteralKind

/-- The name of the delimiter, as an author knows it. -/
def delimiter : LiteralKind → String
  | fence => "code fence"
  | inlineCode => "inline code"
  | displayMath => "display math"
  | inlineMath => "inline math"
  | verbatim => "verbatim region"

end LiteralKind

/-- A region kept as it is written. Of a fenced code block the opening line, the code between the
fences and the closing line are told apart, and the words after the opening fence are its info. -/
inductive Literal
  | fence (info opening code closing : Text)
  | inlineCode (text : Text)
  | displayMath (text : Text)
  | inlineMath (text : Text)
  | verbatim (text : Text)
deriving DecidableEq, Repr

namespace Literal

/-- The literal as it is written. -/
def text : Literal → Text
  | fence _ opening code closing => opening ++ code ++ closing
  | inlineCode text | displayMath text | inlineMath text | verbatim text => text

/-- The code between the fences, or the whole of any other literal. -/
def body : Literal → Text
  | fence _ _ code _ => code
  | inlineCode text | displayMath text | inlineMath text | verbatim text => text

/-- The kind of a literal. -/
def kind : Literal → LiteralKind
  | fence .. => .fence
  | inlineCode _ => .inlineCode
  | displayMath _ => .displayMath
  | inlineMath _ => .inlineMath
  | verbatim _ => .verbatim

/-- The marker that opens a verbatim region. -/
def verbatimOpening : Text :=
  ['<', '!', '-', '-', ' ', 'v', 'e', 'r', 'b', 'a', 't', 'i', 'm', ' ', '-', '-', '>']

/-- The marker that closes a verbatim region. -/
def verbatimClosing : Text :=
  ['<', '!', '-', '-', ' ', '/', 'v', 'e', 'r', 'b', 'a', 't', 'i', 'm', ' ', '-', '-', '>']

/-- How a look for a literal ends: there is none here, there is one and this is the text after it,
or one is opened and never closed. -/
inductive Reading
  | absent
  | found (literal : Literal) (rest : Text)
  | unterminated (kind : LiteralKind)
deriving Repr

/-- The line at the start of a text, and what follows it from its line feed on. -/
def splitLine (text : Text) : Text × Text := text.splitWhile (· != '\n')

/-- The run of `marker` at the start of a text, and what follows it. -/
def splitRun (marker : Char) (text : Text) : Text × Text := text.splitWhile (· == marker)

/-- Whether a line closes a fence of `run` markers: indentation, at least as many markers, and then
only blanks. -/
def isClosingLine (marker : Char) (run : Nat) (line : Text) : Bool :=
  let (markers, tail) := splitRun marker (line.dropWhile Text.isIndent)
  run ≤ markers.length && Text.isAllBlank tail

/-- Read up to the line that closes a fence: the code before it, that line, and what follows. -/
def closeFence? (marker : Char) (run : Nat) (text : Text) : Option (Text × Text × Text) :=
  match text with
  | [] => none
  | letter :: rest =>
    let line := (letter :: rest).takeWhile (· != '\n')
    let after := (letter :: rest).dropWhile (· != '\n')
    if isClosingLine marker run line then
      some ([], line, after)
    else
      match _left : after with
      | [] => none
      | feed :: following =>
        (closeFence? marker run following).map fun (code, closing, tail) =>
          (line ++ feed :: code, closing, tail)
termination_by text.length
decreasing_by
  have := (List.dropWhile_sublist (· != '\n') (l := letter :: rest)).length_le
  rw [show (letter :: rest).dropWhile (· != '\n') = feed :: following from _left] at this
  simp only [List.length_cons] at this ⊢
  omega

/-- Read a fenced code block on the line at the start of a text. The indent before the fence is not
part of the literal and is given apart. -/
def readFence? (text : Text) : Text × Reading :=
  let (line, after) := splitLine text
  let (indent, fenceLine) := Text.splitWhile Text.isIndent line
  match fenceLine with
  | [] => (indent, .absent)
  | marker :: _ =>
    let (markers, words) := splitRun marker fenceLine
    let info := Text.trim words
    if (marker != '\x60' && marker != '~') || markers.length < 3 ||
        (marker == '\x60' && info.contains '\x60') then
      (indent, .absent)
    else
      match after with
      | [] => (indent, .unterminated .fence)
      | feed :: following =>
        match closeFence? marker markers.length following with
        | none => (indent, .unterminated .fence)
        | some (code, closing, rest) =>
          (indent, .found (.fence info (fenceLine ++ [feed]) code closing) rest)

/-- Read to the dollar sign that closes inline math: a backslash hides the character after it, and a
line feed that is not hidden ends the search. -/
def closeInlineMath? : Text → Option (Text × Text)
  | [] => none
  | '$' :: rest => some (['$'], rest)
  | '\n' :: _ => none
  | '\\' :: hidden :: rest =>
    (closeInlineMath? rest).map fun (inner, after) => ('\\' :: hidden :: inner, after)
  | letter :: rest => (closeInlineMath? rest).map fun (inner, after) => (letter :: inner, after)

/-- Read to the next run of exactly `run` backticks. -/
def closeInlineCode? (run : Nat) (text : Text) : Option (Text × Text) :=
  match text with
  | [] => none
  | letter :: rest =>
    if letter == '\x60' then
      let ticks := (letter :: rest).takeWhile (· == '\x60')
      let after := rest.dropWhile (· == '\x60')
      if ticks.length == run then
        some (ticks, after)
      else
        (closeInlineCode? run after).map fun (inner, tail) => (ticks ++ inner, tail)
    else
      (closeInlineCode? run rest).map fun (inner, tail) => (letter :: inner, tail)
termination_by text.length
decreasing_by
  · have := (List.dropWhile_sublist (· == '\x60') (l := rest)).length_le
    simp only [List.length_cons]
    omega
  · simp

/-- Close a literal whose opening delimiter has been read. -/
private def closeWith (kind : LiteralKind) (opening : Text) (make : Text → Literal) :
    Option (Text × Text) → Reading
  | some (inner, rest) => .found (make (opening ++ inner)) rest
  | none => .unterminated kind

/-- Read a literal that is no fenced code block at the start of a text. -/
def readLiteral? (text : Text) : Reading :=
  match text with
  | '$' :: '$' :: rest =>
    closeWith .displayMath ['$', '$'] .displayMath <|
      (Text.cut? ['$', '$'] rest).map fun (inner, after) => (inner ++ ['$', '$'], after)
  | '$' :: rest => closeWith .inlineMath ['$'] .inlineMath (closeInlineMath? rest)
  | '\x60' :: _ =>
    let (ticks, rest) := splitRun '\x60' text
    closeWith .inlineCode ticks .inlineCode (closeInlineCode? ticks.length rest)
  | '<' :: _ =>
    if verbatimOpening.isPrefixOf text then
      closeWith .verbatim verbatimOpening .verbatim <|
        (Text.cut? verbatimClosing (text.drop verbatimOpening.length)).map fun (inner, after) =>
          (inner ++ verbatimClosing, after)
    else
      .absent
  | _ => .absent

/-! ## What is read is what is written -/

theorem append_of_closeFence? {marker : Char} {run : Nat} {text code closing rest : Text}
    (h : closeFence? marker run text = some (code, closing, rest)) :
    code ++ closing ++ rest = text := by
  fun_induction closeFence? marker run text generalizing code closing rest with
  | case1 => simp at h
  | case2 letter tail line =>
    simp only [Option.some.injEq, Prod.mk.injEq] at h
    obtain ⟨rfl, rfl, rfl⟩ := h
    exact List.takeWhile_append_dropWhile
  | case3 => simp at h
  | case4 letter tail line after _ feed following =>
    rename_i left ih
    obtain ⟨⟨inner, last, remaining⟩, hclose, heq⟩ := Option.map_eq_some_iff.1 h
    simp only [Prod.mk.injEq] at heq
    obtain ⟨rfl, rfl, rfl⟩ := heq
    have hsplit : line ++ (letter :: tail).dropWhile (· != '\n') = letter :: tail :=
      List.takeWhile_append_dropWhile
    change line ++ after = letter :: tail at hsplit
    rw [← hsplit, left, ← ih hclose]
    simp

theorem append_of_closeInlineMath? {text inner rest : Text}
    (h : closeInlineMath? text = some (inner, rest)) : inner ++ rest = text := by
  fun_induction closeInlineMath? text generalizing inner rest with
  | case1 => simp at h
  | case2 =>
    simp only [Option.some.injEq, Prod.mk.injEq] at h
    simp [← h.1, ← h.2]
  | case3 => simp at h
  | case4 hidden tail ih =>
    obtain ⟨⟨first, second⟩, hclose, heq⟩ := Option.map_eq_some_iff.1 h
    simp only [Prod.mk.injEq] at heq
    obtain ⟨rfl, rfl⟩ := heq
    simp [ih hclose]
  | case5 letter tail _ _ _ ih =>
    obtain ⟨⟨first, second⟩, hclose, heq⟩ := Option.map_eq_some_iff.1 h
    simp only [Prod.mk.injEq] at heq
    obtain ⟨rfl, rfl⟩ := heq
    simp [ih hclose]

theorem append_of_closeInlineCode? {run : Nat} {text inner rest : Text}
    (h : closeInlineCode? run text = some (inner, rest)) : inner ++ rest = text := by
  fun_induction closeInlineCode? run text generalizing inner rest with
  | case1 => simp at h
  | case2 letter tail tick ticks =>
    simp only [Option.some.injEq, Prod.mk.injEq] at h
    obtain ⟨rfl, rfl⟩ := h
    show ticks ++ tail.dropWhile (· == '\x60') = letter :: tail
    rw [← List.dropWhile_cons_of_pos (p := (· == '\x60')) (l := tail) tick]
    exact List.takeWhile_append_dropWhile
  | case3 letter tail tick ticks after =>
    rename_i ih

    obtain ⟨⟨first, second⟩, hclose, heq⟩ := Option.map_eq_some_iff.1 h
    simp only [Prod.mk.injEq] at heq
    obtain ⟨rfl, rfl⟩ := heq
    rw [List.append_assoc, ih hclose]
    show ticks ++ tail.dropWhile (· == '\x60') = letter :: tail
    rw [← List.dropWhile_cons_of_pos (p := (· == '\x60')) (l := tail) tick]
    exact List.takeWhile_append_dropWhile
  | case4 letter tail _ ih =>
    obtain ⟨⟨first, second⟩, hclose, heq⟩ := Option.map_eq_some_iff.1 h
    simp only [Prod.mk.injEq] at heq
    obtain ⟨rfl, rfl⟩ := heq
    simp [ih hclose]

/-- What a literal that is no fenced code block is read from: its opening delimiter, what stands up to
the closing delimiter, and what is left. -/
inductive Reads : Text → Literal → Text → Prop
  | displayMath {text body rest : Text} (closes : Text.cut? ['$', '$'] text = some (body, rest)) :
      Reads ('$' :: '$' :: text) (.displayMath ('$' :: '$' :: (body ++ ['$', '$']))) rest
  | inlineMath {text body rest : Text} (closes : closeInlineMath? text = some (body, rest)) :
      Reads ('$' :: text) (.inlineMath ('$' :: body)) rest
  | inlineCode {text body rest : Text}
      (closes : closeInlineCode? (splitRun '\x60' ('\x60' :: text)).1.length
        (splitRun '\x60' ('\x60' :: text)).2 = some (body, rest)) :
      Reads ('\x60' :: text) (.inlineCode ((splitRun '\x60' ('\x60' :: text)).1 ++ body)) rest
  | verbatim {text body rest : Text} (closes : Text.cut? verbatimClosing text = some (body, rest)) :
      Reads (verbatimOpening ++ text)
        (.verbatim (verbatimOpening ++ (body ++ verbatimClosing))) rest

theorem reads_of_readLiteral? {text rest : Text} {literal : Literal}
    (h : readLiteral? text = .found literal rest) : Reads text literal rest := by
  have closed {kind : LiteralKind} {opening : Text} {make : Text → Literal}
      {result : Option (Text × Text)}
      (h : closeWith kind opening make result = .found literal rest) :
      ∃ inner, result = some (inner, rest) ∧ literal = make (opening ++ inner) := by
    cases result with
    | none => simp [closeWith] at h
    | some pair =>
      simp only [closeWith, Reading.found.injEq] at h
      exact ⟨pair.1, by rw [← h.2], h.1.symm⟩
  have cut {needle following inner : Text}
      (h : (Text.cut? needle following).map (fun (inner, after) => (inner ++ needle, after)) =
        some (inner, rest)) :
      ∃ body, Text.cut? needle following = some (body, rest) ∧ inner = body ++ needle := by
    obtain ⟨⟨body, after⟩, hcut, heq⟩ := Option.map_eq_some_iff.1 h
    simp only [Prod.mk.injEq] at heq
    exact ⟨body, by rw [hcut, heq.2], heq.1.symm⟩
  unfold readLiteral? at h
  split at h
  · obtain ⟨inner, hclose, rfl⟩ := closed h
    obtain ⟨body, hcut, rfl⟩ := cut hclose
    exact .displayMath hcut
  · obtain ⟨inner, hclose, rfl⟩ := closed h
    exact .inlineMath hclose
  · obtain ⟨inner, hclose, rfl⟩ := closed h
    exact .inlineCode hclose
  · split at h
    · next opened =>
      obtain ⟨inner, hclose, rfl⟩ := closed h
      obtain ⟨body, hcut, rfl⟩ := cut hclose
      obtain ⟨following, hfollowing⟩ := List.isPrefixOf_iff_prefix.1 opened
      rw [← hfollowing, List.drop_left] at hcut
      rw [← hfollowing]
      exact .verbatim hcut
    · simp at h
  · simp at h

/-- Nothing is read where no opening delimiter stands. A delimiter that is not closed is not passed over
either. -/
theorem readLiteral?_eq_absent_iff {first : Char} {rest : Text} :
    readLiteral? (first :: rest) = .absent ↔
      first ≠ '$' ∧ first ≠ '\x60' ∧ ¬verbatimOpening <+: first :: rest := by
  have opened (kind : LiteralKind) (opening : Text) (make : Text → Literal)
      (result : Option (Text × Text)) : closeWith kind opening make result ≠ .absent := by
    cases result <;> simp [closeWith]
  unfold readLiteral?
  split
  · next hfirst => simp [opened, (List.cons.inj hfirst).1]
  · next hfirst => simp [opened, (List.cons.inj hfirst).1]
  · next hfirst => simp [opened, (List.cons.inj hfirst).1]
  · next hfirst =>
    rw [← List.isPrefixOf_iff_prefix]
    simp [opened, (List.cons.inj hfirst).1]
  · next hdollars hdollar htick hbracket =>
    refine iff_of_true rfl ⟨fun h => hdollar rest (by rw [h]), fun h => htick rest (by rw [h]), ?_⟩
    rintro ⟨following, hfollowing⟩
    exact hbracket rest (by rw [(List.cons.inj hfollowing).1])

/-- A literal that is found, followed by what is left, is the text that was read. -/
theorem append_of_readLiteral? {text rest : Text} {literal : Literal}
    (h : readLiteral? text = .found literal rest) : literal.text ++ rest = text := by
  cases reads_of_readLiteral? h with
  | displayMath closes => simp [Literal.text, ← Text.append_of_cut? closes]
  | inlineMath closes => simp [Literal.text, ← append_of_closeInlineMath? closes]
  | inlineCode closes =>
    rw [Literal.text, List.append_assoc, append_of_closeInlineCode? closes]
    exact List.takeWhile_append_dropWhile
  | verbatim closes => simp [Literal.text, ← Text.append_of_cut? closes]

/-- The indent, the fenced block that is found and what is left are the text that was read. -/
theorem append_of_readFence? {text indent rest : Text} {literal : Literal}
    (h : readFence? text = (indent, .found literal rest)) :
    indent ++ literal.text ++ rest = text := by
  have hline : (splitLine text).1 ++ (splitLine text).2 = text := Text.append_splitWhile ..
  have hindent : (Text.splitWhile Text.isIndent (splitLine text).1).1 ++
      (Text.splitWhile Text.isIndent (splitLine text).1).2 = (splitLine text).1 :=
    Text.append_splitWhile ..
  unfold readFence? at h
  simp only at h
  split at h
  · simp at h
  · next marker tail hmarker =>
    split at h
    · simp at h
    · split at h
      · simp at h
      · next feed following hafter =>
        split at h
        · simp at h
        · next code closing left hclose =>
          simp only [Prod.mk.injEq, Reading.found.injEq] at h
          obtain ⟨hleading, hfound, hleft⟩ := h
          rw [← hleading, ← hfound, ← hleft, Literal.text]
          calc _ = ((Text.splitWhile Text.isIndent (splitLine text).1).1 ++
                (Text.splitWhile Text.isIndent (splitLine text).1).2) ++
                feed :: (code ++ closing ++ left) := by
                  simp only [List.append_assoc, List.cons_append, List.nil_append]
            _ = (splitLine text).1 ++ (splitLine text).2 := by
                rw [hindent, hafter, append_of_closeFence? hclose]
            _ = text := hline

/-- A literal that is found begins with its delimiter, so it is not empty. -/
theorem text_ne_nil_of_readLiteral? {text rest : Text} {literal : Literal}
    (h : readLiteral? text = .found literal rest) : literal.text ≠ [] := by
  cases reads_of_readLiteral? h <;> simp [Literal.text, splitRun, Text.splitWhile, verbatimOpening]

/-- A fenced block that is found holds its opening line, so it is not empty. -/
theorem text_ne_nil_of_readFence? {text indent rest : Text} {literal : Literal}
    (h : readFence? text = (indent, .found literal rest)) : literal.text ≠ [] := by
  unfold readFence? at h
  simp only at h
  split at h
  · simp at h
  · split at h
    · simp at h
    · split at h
      · simp at h
      · split at h
        · simp at h
        · simp only [Prod.mk.injEq, Reading.found.injEq] at h
          rw [← h.2.1, Literal.text]
          simp

end Literal
end Courseware
