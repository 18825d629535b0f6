import Courseware.Source.Extraction

/-!
# Restoring literals

`Extraction.restore` replaces every placeholder in a text by its literal. A sentinel that does not
begin a placeholder with a known number is kept. `Extraction.soleLiteral?` recognises a text that is
nothing but one placeholder.
-/

namespace Courseware.Extraction

/-- Read the number and the closing sentinel after an opening sentinel: the number, its literal, and
what follows. Leading zeros are allowed. -/
def readNumber? (extraction : Extraction) (text : Text) : Option (Nat × Literal × Text) :=
  let (digits, after) := text.splitWhile Char.isDigit
  match after with
  | [] => none
  | letter :: rest =>
    if digits.isEmpty || letter != extraction.sentinels.closing then
      none
    else
      let number := digits.foldl (fun value digit => 10 * value + (digit.toNat - '0'.toNat)) 0
      extraction.literals[number]?.map fun literal => (number, literal, rest)

theorem length_lt_of_readNumber? {extraction : Extraction} {text rest : Text} {number : Nat}
    {literal : Literal} (h : extraction.readNumber? text = some (number, literal, rest)) :
    rest.length < text.length := by
  unfold readNumber? at h
  simp only at h
  split at h
  · simp at h
  · next letter tail hafter =>
    have hsplit := congrArg List.length (Text.append_splitWhile Char.isDigit text)
    rw [hafter] at hsplit
    simp only [List.length_append, List.length_cons] at hsplit
    split at h
    · simp at h
    · obtain ⟨found, _, heq⟩ := Option.map_eq_some_iff.1 h
      simp only [Prod.mk.injEq] at heq
      rw [← heq.2.2]
      omega

/-- Replace every placeholder in a text by its literal. -/
def restore (extraction : Extraction) (text : Text) : Text :=
  match text with
  | [] => []
  | letter :: rest =>
    if letter == extraction.sentinels.opening then
      match _found : extraction.readNumber? rest with
      | some (_, literal, after) => literal.text ++ extraction.restore after
      | none => letter :: extraction.restore rest
    else
      letter :: extraction.restore rest
termination_by text.length
decreasing_by
  · have := length_lt_of_readNumber? _found
    simp only [List.length_cons]
    omega
  · simp
  · simp

/-- The number and the literal of the placeholder that is the whole text, blanks around it aside. -/
def soleNumbered? (extraction : Extraction) (text : Text) : Option (Nat × Literal) :=
  match Text.trim text with
  | [] => none
  | letter :: rest =>
    if letter == extraction.sentinels.opening then
      match extraction.readNumber? rest with
      | some (number, literal, []) => some (number, literal)
      | _ => none
    else
      none

/-- The literal whose placeholder is the whole text, blanks around it aside. -/
def soleLiteral? (extraction : Extraction) (text : Text) : Option Literal :=
  (extraction.soleNumbered? text).map Prod.snd

end Courseware.Extraction
