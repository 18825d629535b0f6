import Courseware.Proofs.Markup.Lexing

/-!
# Signs and their groups

The content of a directive is a row of signs: letters, escapes, and brackets and braces that open and close
groups. A letter may look like a bracket where it stands in a literal, and a bracket that is escaped looks like
any other; neither opens or closes anything. A sign that closes a group says which lexeme has opened it.

`Sign.run` keeps a stack of the groups that are open. With groups named by their enclosures alone it tells
whether signs are balanced, as one would check a text for balanced brackets. With groups named by their lexemes
as well it also checks what signs say of the groups that they close. The two agree wherever signs can be run:
what is balanced leaves all groups around it open (`run_eq_of_balanced`), and if a group is open in front of
signs and behind them, they are balanced up to groups that they have opened (`exists_run_of_mem`).

An escape is two signs, its backslash and what it hides. They stay together wherever signs are put in a row
(`Coupled`), so it can be told from the sign in front of a bracket whether it is escaped.
-/

namespace Courseware

/-- A sign of the content of a directive. -/
inductive Sign
  /-- A letter, which may look like a bracket or a brace. -/
  | plain (letter : Char)
  /-- The backslash of an escape. -/
  | escape
  /-- The letter that an escape hides, with the lexeme of the escape. -/
  | escaped (letter : Char) (lexeme : Lexeme)
  /-- A bracket or a brace that opens a group, with its lexeme. -/
  | opens (enclosure : Enclosure) (lexeme : Lexeme)
  /-- A bracket or a brace that closes the group that another lexeme has opened. -/
  | closes (enclosure : Enclosure) (lexeme opener : Lexeme)
deriving DecidableEq, Repr

namespace Sign

/-- What a sign looks like. -/
def char : Sign → Char
  | plain letter | escaped letter _ => letter
  | escape => '\\'
  | opens enclosure _ => enclosure.opening
  | closes enclosure _ _ => enclosure.closing

/-- The lexeme that opens or closes a group, or that hides the letter. -/
def lexeme? : Sign → Option Lexeme
  | plain _ | escape => none
  | escaped _ lexeme | opens _ lexeme | closes _ lexeme _ => some lexeme

/-- Whether a sign opens or closes a group. -/
def isToken : Sign → Bool
  | opens .. | closes .. => true
  | _ => false

/-- Whether a sign is the backslash of an escape. -/
def isEscape : Sign → Bool
  | escape => true
  | _ => false

/-- Whether a sign is hidden by an escape. -/
def isEscaped : Sign → Bool
  | escaped .. => true
  | _ => false

/-- The groups that are open behind some signs, innermost first, when those in front of them are given. Groups
are named by their enclosure and the lexeme that opens them. There are none where a sign closes another group
than the innermost one. -/
def run {α : Type} [DecidableEq α] (name : Enclosure → Lexeme → α) : List α → List Sign → Option (List α)
  | groups, [] => some groups
  | groups, plain _ :: rest | groups, escape :: rest | groups, escaped .. :: rest => run name groups rest
  | groups, opens enclosure lexeme :: rest => run name (name enclosure lexeme :: groups) rest
  | group :: groups, closes enclosure _ opener :: rest =>
    if group = name enclosure opener then run name groups rest else none
  | [], closes .. :: _ => none

/-- A group by its enclosure alone. -/
def kind (enclosure : Enclosure) (_ : Lexeme) : Enclosure := enclosure

/-- The brackets and braces among some signs are balanced. -/
def Balanced (signs : List Sign) : Prop := run kind [] signs = some []

instance (signs : List Sign) : Decidable (Balanced signs) := decEq (run kind [] signs) (some [])

/-- Whether escapes are whole: a letter is hidden exactly where a backslash that hides something stands in front
of it. `hides` says whether one stands in front of the first sign. -/
def coupled (hides : Bool) : List Sign → Bool
  | [] => !hides
  | sign :: rest => sign.isEscaped == hides && coupled sign.isEscape rest

/-- The escapes among some signs are whole. -/
def Coupled (signs : List Sign) : Prop := coupled false signs = true

instance (signs : List Sign) : Decidable (Coupled signs) := decEq (coupled false signs) true

/-! ## Runs -/

section
variable {α β : Type} [DecidableEq α] [DecidableEq β] {name : Enclosure → Lexeme → α} {groups left : List α}
  {signs : List Sign}

/-- Signs are run one part after the other. -/
theorem run_append (name : Enclosure → Lexeme → α) (groups : List α) (first second : List Sign) :
    run name groups (first ++ second) =
      (run name groups first).bind fun left => run name left second := by
  fun_induction run name groups first with
  | case1 => rfl
  | case2 groups rest letter ih => exact ih
  | case3 groups rest ih => exact ih
  | case4 groups rest letter lexeme ih => exact ih
  | case5 groups enclosure lexeme rest ih => exact ih
  | case6 groups enclosure lexeme opener rest ih =>
    rw [List.cons_append, run, if_pos rfl]
    exact ih
  | case7 group groups enclosure lexeme opener rest other =>
    rw [List.cons_append, run, if_neg other]
    rfl
  | case8 => rfl

/-- Groups that are open around some signs change nothing. -/
theorem run_append_right (h : run name groups signs = some left) (around : List α) :
    run name (groups ++ around) signs = some (left ++ around) := by
  fun_induction run name groups signs with
  | case1 groups =>
    obtain rfl := Option.some.inj h
    rfl
  | case2 groups rest letter ih => exact ih h
  | case3 groups rest ih => exact ih h
  | case4 groups rest letter lexeme ih => exact ih h
  | case5 groups enclosure lexeme rest ih => exact ih h
  | case6 groups enclosure lexeme opener rest ih =>
    rw [List.cons_append, run, if_pos rfl]
    exact ih h
  | case7 => exact nomatch h
  | case8 => exact nomatch h

/-- Signs can be run with coarser names as well. -/
theorem run_map (coarsen : α → β) (h : run name groups signs = some left) :
    run (fun enclosure lexeme => coarsen (name enclosure lexeme)) (groups.map coarsen) signs =
      some (left.map coarsen) := by
  fun_induction run name groups signs with
  | case1 groups =>
    obtain rfl := Option.some.inj h
    rfl
  | case2 groups rest letter ih => exact ih h
  | case3 groups rest ih => exact ih h
  | case4 groups rest letter lexeme ih => exact ih h
  | case5 groups enclosure lexeme rest ih => exact ih h
  | case6 groups enclosure lexeme opener rest ih =>
    rw [List.map_cons, run, if_pos rfl]
    exact ih h
  | case7 => exact nomatch h
  | case8 => exact nomatch h

end

variable {groups left upper lower : List (Enclosure × Lexeme)} {entry : Enclosure × Lexeme}
  {kinds : List Enclosure} {signs : List Sign}

theorem balanced_of_run (h : run Prod.mk [] signs = some []) : Balanced signs := run_map Prod.fst h

/-- A group that is open behind some signs was open in front of them, or one of them has opened it. -/
theorem mem_or_mem_of_run (h : run Prod.mk groups signs = some left) (hmem : entry ∈ left) :
    entry ∈ groups ∨ opens entry.1 entry.2 ∈ signs := by
  induction signs generalizing groups with
  | nil =>
    obtain rfl := Option.some.inj h
    exact .inl hmem
  | cons sign rest ih =>
    cases sign with
    | plain _ | escape | escaped _ _ => exact (ih h).imp_right (List.mem_cons_of_mem _)
    | opens enclosure lexeme =>
      rcases ih h with hgroups | hrest
      · rcases List.mem_cons.mp hgroups with rfl | hgroups
        · exact .inr List.mem_cons_self
        · exact .inl hgroups
      · exact .inr (List.mem_cons_of_mem _ hrest)
    | closes enclosure lexeme opener =>
      cases groups with
      | nil => exact nomatch h
      | cons group groups =>
        rw [run] at h
        split at h
        · exact (ih h).imp (List.mem_cons_of_mem _) (List.mem_cons_of_mem _)
        · exact nomatch h

/-- Signs that close none of the groups below some others, as far as enclosures tell, leave those below as they
are. -/
theorem exists_run_of_kinds (h : run Prod.mk (upper ++ lower) signs = some left)
    (hkinds : run kind (upper.map Prod.fst) signs = some kinds) :
    ∃ inner, left = inner ++ lower ∧ inner.map Prod.fst = kinds := by
  induction signs generalizing upper with
  | nil =>
    obtain rfl := Option.some.inj h
    exact ⟨upper, rfl, Option.some.inj hkinds⟩
  | cons sign rest ih =>
    cases sign with
    | plain _ | escape | escaped _ _ => exact ih h hkinds
    | opens enclosure lexeme => exact @ih ((enclosure, lexeme) :: upper) h hkinds
    | closes enclosure lexeme opener =>
      cases upper with
      | nil => exact nomatch hkinds
      | cons group upper =>
        rw [List.cons_append, run] at h
        rw [List.map_cons, run] at hkinds
        split at h
        · next same =>
          have hkind : group.1 = kind enclosure opener := congrArg Prod.fst same
          rw [if_pos hkind] at hkinds
          exact ih h hkinds
        · exact nomatch h

/-- Balanced signs leave all groups as they are. -/
theorem run_eq_of_balanced (balanced : Balanced signs) (h : run Prod.mk groups signs = some left) :
    left = groups := by
  obtain ⟨inner, rfl, hinner⟩ := @exists_run_of_kinds left [] groups _ _ h balanced
  rw [List.map_eq_nil_iff] at hinner
  rw [hinner, List.nil_append]

/-- A group that is open in front of some signs and behind them has not been closed between. They have been run
to the groups above it then, as if it were the outermost. -/
theorem exists_run_of_mem (h : run Prod.mk (upper ++ entry :: lower) signs = some left)
    (unopened : opens entry.1 entry.2 ∉ signs) (fresh : entry ∉ lower) (hmem : entry ∈ left) :
    ∃ inner, run Prod.mk upper signs = some inner ∧ left = inner ++ entry :: lower := by
  induction signs generalizing upper with
  | nil =>
    obtain rfl := Option.some.inj h
    exact ⟨upper, rfl, rfl⟩
  | cons sign rest ih =>
    have hrest : opens entry.1 entry.2 ∉ rest := fun h => unopened (List.mem_cons_of_mem _ h)
    cases sign with
    | plain _ | escape | escaped _ _ => exact ih h hrest
    | opens enclosure lexeme => exact @ih ((enclosure, lexeme) :: upper) h hrest
    | closes enclosure lexeme opener =>
      cases upper with
      | nil =>
        -- The group would be closed here, and nothing opens it again.
        rw [List.nil_append, run] at h
        split at h
        · rcases mem_or_mem_of_run h hmem with hlower | hopens
          · exact absurd hlower fresh
          · exact absurd hopens hrest
        · exact nomatch h
      | cons group upper =>
        rw [List.cons_append, run] at h
        split at h
        · next same =>
          rw [run, if_pos same]
          exact ih h hrest
        · exact nomatch h

/-! ## Two brackets around signs -/

variable {outer inner firstCloser secondCloser firstOpener secondOpener : Lexeme}

/-- Two brackets are closed one after the other. -/
theorem groups_of_run_closes
    (h : run Prod.mk groups [closes .bracket firstCloser firstOpener,
      closes .bracket secondCloser secondOpener] = some left) :
    groups = (.bracket, firstOpener) :: (.bracket, secondOpener) :: left := by
  cases groups with
  | nil => exact nomatch h
  | cons top others =>
    rw [run] at h
    split at h
    · next sameTop =>
      cases others with
      | nil => exact nomatch h
      | cons second rest =>
        rw [run] at h
        split at h
        · next sameSecond =>
          obtain rfl := Option.some.inj h
          rw [sameTop, sameSecond]
        · exact nomatch h
    · exact nomatch h

/-- Signs stand between two brackets that open groups and two that close some. The inner bracket is closed by the
first of these and the outer one by the second exactly if the signs between are balanced. -/
theorem closes_iff_balanced
    (h : run Prod.mk groups (opens .bracket outer :: opens .bracket inner :: (signs ++
      [closes .bracket firstCloser firstOpener, closes .bracket secondCloser secondOpener])) = some left)
    (unopened : opens .bracket inner ∉ signs) (apart : inner ≠ outer)
    (fresh : (.bracket, inner) ∉ groups) :
    firstOpener = inner ∧ secondOpener = outer ↔ Balanced signs := by
  rw [run, run, run_append, Option.bind_eq_some_iff] at h
  obtain ⟨between, hbetween, hclosers⟩ := h
  obtain rfl := groups_of_run_closes hclosers
  constructor
  · rintro ⟨rfl, rfl⟩
    -- The inner bracket is still open behind the signs, or it could not be closed there.
    have hfresh : (.bracket, firstOpener) ∉ (.bracket, secondOpener) :: groups := by
      rw [List.mem_cons, not_or]
      exact ⟨fun same => apart (Prod.mk.inj same).2, fresh⟩
    obtain ⟨above, habove, hsplit⟩ :=
      @exists_run_of_mem _ [] _ _ _ hbetween unopened hfresh List.mem_cons_self
    cases above with
    | nil => exact balanced_of_run habove
    | cons top above =>
      obtain ⟨rfl, _⟩ := List.cons.inj hsplit
      rcases mem_or_mem_of_run habove List.mem_cons_self with hnil | hopens
      · exact absurd hnil List.not_mem_nil
      · exact absurd hopens unopened
  · intro balanced
    obtain ⟨hinner, hrest⟩ := List.cons.inj (run_eq_of_balanced balanced hbetween)
    exact ⟨(Prod.mk.inj hinner).2, (Prod.mk.inj (List.cons.inj hrest).1).2⟩

/-! ## Escapes -/

variable {hides : Bool} {sign : Sign} {first second before after : List Sign}

theorem coupled_append (h : coupled hides first = true) (second : List Sign) :
    coupled hides (first ++ second) = coupled false second := by
  induction first generalizing hides with
  | nil =>
    obtain rfl : hides = false := by simpa [coupled] using h
    rfl
  | cons sign rest ih =>
    rw [coupled, Bool.and_eq_true] at h
    rw [List.cons_append, coupled, h.1, Bool.true_and, ih h.2]

theorem Coupled.append (hfirst : Coupled first) (hsecond : Coupled second) : Coupled (first ++ second) :=
  (coupled_append hfirst second).trans hsecond

theorem spec_of_coupled (h : coupled hides (before ++ sign :: after) = true) :
    sign.isEscaped = (before.getLast?.map isEscape).getD hides ∧ coupled sign.isEscape after = true := by
  induction before generalizing hides with
  | nil =>
    rw [List.nil_append, coupled, Bool.and_eq_true, beq_iff_eq] at h
    exact h
  | cons first rest ih =>
    rw [List.cons_append, coupled, Bool.and_eq_true] at h
    obtain ⟨hescaped, hafter⟩ := ih h.2
    refine ⟨hescaped.trans ?_, hafter⟩
    rw [List.getLast?_cons]
    cases rest.getLast? <;> rfl

/-- A letter is hidden exactly if the sign in front of it is the backslash of an escape. -/
theorem Coupled.isEscaped_iff (h : Coupled (before ++ sign :: after)) :
    sign.isEscaped = true ↔ before.getLast? = some .escape := by
  rw [(spec_of_coupled h).1]
  cases before.getLast? with
  | none => decide
  | some last => cases last <;> simp [isEscape]

/-- Behind a sign that is not such a backslash, escapes are whole. -/
theorem Coupled.behind (h : Coupled (before ++ sign :: after)) (shown : sign.char ≠ '\\') : Coupled after := by
  have hafter := (spec_of_coupled h).2
  cases sign with
  | escape => exact absurd rfl shown
  | plain _ | escaped _ _ | opens _ _ | closes _ _ _ => exact hafter

end Sign
end Courseware
