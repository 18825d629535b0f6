import Courseware.Proofs.Source.Delimiters

/-!
# The shape of literals

What is read as a literal is well formed, and it ends as early as it may. `Literal.Stands` says this of
each kind, with what stands before the literal in the document and what stands after it: a fence begins
behind the indent of a line and ends with the first line that closes it, inline code ends with the
first run of as many backticks as it begins with, inline math with the first dollar sign that no
backslash hides, and display math and verbatim regions with the first closing marker.

Each of the readers looks for the end of a literal with a loop of its own. So there is one lemma for
each loop, by the recursion of the reader, and `Literal.stands_of_readFence?` and
`Literal.stands_of_readLiteral?` put the opening delimiter in front.
-/

namespace Courseware

namespace Text

/-- Whether a line begins behind a text. -/
def EndsLine (text : Text) : Prop := ∀ last ∈ text.getLast?, last = '\n'

/-- Whether the first `mark` in a text is the one right behind `body`. -/
def IsUpToFirst (mark body : Text) : Prop :=
  ∀ before after, body ++ mark = before ++ (mark ++ after) → after = []

/-- Whether there is a run of exactly `count` letters in a text, with other letters around it. -/
def HasRun (letter : Char) (count : Nat) (text : Text) : Prop :=
  ∃ before after, text = before ++ (List.replicate count letter ++ after) ∧
    before.getLast? ≠ some letter ∧ after.head? ≠ some letter

/-- A text is cut at the first mark in it. -/
theorem isUpToFirst_of_cut? {mark text body rest : Text} (h : cut? mark text = some (body, rest)) :
    IsUpToFirst mark body := by
  intro before after hbefore
  induction text generalizing body before with
  | nil =>
    rw [cut?] at h
    split at h
    · next hempty =>
      obtain ⟨rfl, _⟩ := Prod.mk.inj (Option.some.inj h)
      obtain rfl := List.isEmpty_iff.mp hempty
      exact (List.append_eq_nil_iff.mp hbefore.symm).2
    · exact nomatch h
  | cons letter others ih =>
    rw [cut?] at h
    split at h
    · obtain ⟨rfl, _⟩ := Prod.mk.inj (Option.some.inj h)
      have hlength := congrArg List.length hbefore
      simp only [List.length_append, List.length_nil] at hlength
      exact List.eq_nil_of_length_eq_zero (by omega)
    · next habsent =>
      obtain ⟨⟨inner, tail⟩, hcut, heq⟩ := Option.map_eq_some_iff.mp h
      obtain ⟨rfl, rfl⟩ := Prod.mk.inj heq
      cases before with
      | cons first earlier => exact ih hcut earlier (List.cons.inj hbefore).2
      | nil =>
        -- Then the mark would have been found here already.
        have hprefix : mark <+: letter :: others := by
          rw [← append_of_cut? hcut, ← List.cons_append]
          have hhere : mark <+: letter :: inner ++ mark := ⟨after, hbefore.symm⟩
          exact hhere.trans (List.prefix_append _ _)
        exact absurd (List.isPrefixOf_iff_prefix.mpr hprefix) habsent

end Text

namespace Literal

/-- A line that closes a fence of `run` markers: indent, at least as many markers, and only blanks behind
them. -/
def ClosesFence (marker : Char) (run : Nat) (line : Text) : Prop :=
  ∃ indent count tail, line = indent ++ (List.replicate count marker ++ tail) ∧
    (∀ letter ∈ indent, Text.isIndent letter = true) ∧ run ≤ count ∧
    ∀ letter ∈ tail, Text.isBlank letter = true

/-- How a literal stands between what comes before it in a document and what comes after it. -/
inductive Stands (before : Text) : Literal → Text → Prop
  /-- A fence begins behind the indent of a line, and no line in it closes it but the last. -/
  | fence {marker : Char} {run : Nat} {lead indent words closing after : Text} {lines : List Text}
      (opened : before = lead ++ indent) (start : Text.EndsLine lead)
      (blank : ∀ letter ∈ indent, Text.isIndent letter = true)
      (known : marker = '\x60' ∨ marker = '~') (long : 3 ≤ run)
      (whole : words.head? ≠ some marker) (oneLine : '\n' ∉ words)
      (inside : ∀ line ∈ lines, '\n' ∉ line ∧ ¬ClosesFence marker run line)
      (closes : ClosesFence marker run closing) (lastLine : '\n' ∉ closing)
      (ends : ∀ next ∈ after.head?, next = '\n') :
      Stands before (fence (Text.trim words) (List.replicate run marker ++ (words ++ ['\n']))
        (lines.flatMap (· ++ ['\n'])) closing) after
  /-- Inline code ends with a run of as many backticks as it begins with, and there is no such run
  in between. -/
  | inlineCode {count : Nat} {body after : Text} (full : 0 < count) (filled : body ≠ [])
      (first : body.head? ≠ some '\x60') (last : body.getLast? ≠ some '\x60')
      (inside : ¬Text.HasRun '\x60' count body) (ends : after.head? ≠ some '\x60') :
      Stands before (inlineCode (List.replicate count '\x60' ++ (body ++
        List.replicate count '\x60'))) after
  /-- Display math ends with the first closing marker. -/
  | displayMath {body after : Text} (inside : Text.IsUpToFirst ['$', '$'] body) :
      Stands before (displayMath (['$', '$'] ++ (body ++ ['$', '$']))) after
  /-- In inline math a dollar sign or a line feed stands only behind a backslash that hides it. -/
  | inlineMath {body after : Text} (ends : Text.endsHiding body = false)
      (inside : ∀ earlier letter later, body = earlier ++ letter :: later →
        letter = '$' ∨ letter = '\n' → Text.endsHiding earlier = true) :
      Stands before (inlineMath (['$'] ++ (body ++ ['$']))) after
  /-- A verbatim region ends with the first closing marker. -/
  | verbatim {body after : Text} (inside : Text.IsUpToFirst verbatimClosing body) :
      Stands before (verbatim (verbatimOpening ++ (body ++ verbatimClosing))) after

/-- A literal holds its delimiters, so it is not empty. -/
theorem Stands.text_ne_nil {before after : Text} {l : Literal} (stands : l.Stands before after) :
    l.text ≠ [] := by
  cases stands with
  | fence => simp [text]
  | inlineCode _ filled => simp [text, filled]
  | displayMath => exact List.cons_ne_nil _ _
  | inlineMath => exact List.cons_ne_nil _ _
  | verbatim => exact List.cons_ne_nil _ _

/-! ## Fences -/

theorem isIndent_of_isMarker {marker : Char} (known : marker = '\x60' ∨ marker = '~') :
    Text.isIndent marker = false ∧ Text.isBlank marker = false := by
  rcases known with rfl | rfl <;> decide

/-- The run at the start of a text. -/
theorem splitRun_replicate_append {marker : Char} {tail : Text} (h : tail.head? ≠ some marker)
    (count : Nat) :
    splitRun marker (List.replicate count marker ++ tail) = (List.replicate count marker, tail) := by
  have hrun : ∀ letter ∈ List.replicate count marker, (letter == marker) = true := by
    intro letter hletter
    rw [List.eq_of_mem_replicate hletter]
    exact beq_self_eq_true marker
  apply Text.splitWhile_append hrun
  intro next hnext
  apply beq_false_of_ne
  rintro rfl
  exact h hnext

/-- A text is its run and then something else. -/
theorem exists_of_splitRun (marker : Char) (text : Text) :
    ∃ count tail, text = List.replicate count marker ++ tail ∧ tail.head? ≠ some marker ∧
      splitRun marker text = (List.replicate count marker, tail) := by
  have hrun : (splitRun marker text).1 = List.replicate (splitRun marker text).1.length marker :=
    takeWhile_eq_replicate marker text
  refine ⟨(splitRun marker text).1.length, (splitRun marker text).2, ?_, ?_, Prod.ext hrun rfl⟩
  · rw [← hrun]
    exact (Text.append_splitWhile _ _).symm
  · intro hhead
    have hnot := eq_false_of_mem_head?_dropWhile marker hhead
    rw [beq_self_eq_true] at hnot
    exact Bool.noConfusion hnot

/-- A text that begins with a marker begins with a run that is not empty. -/
theorem exists_of_splitRun_cons (marker : Char) (rest : Text) :
    ∃ count tail, 0 < count ∧ marker :: rest = List.replicate count marker ++ tail ∧
      tail.head? ≠ some marker ∧
      splitRun marker (marker :: rest) = (List.replicate count marker, tail) := by
  obtain ⟨count, tail, hsplit, hwhole, hrun⟩ := exists_of_splitRun marker (marker :: rest)
  refine ⟨count, tail, ?_, hsplit, hwhole, hrun⟩
  rw [Nat.pos_iff_ne_zero]
  rintro rfl
  rw [List.replicate_zero, List.nil_append] at hsplit
  exact hwhole (congrArg List.head? hsplit).symm

/-- Whether a line closes a fence is decided by the longest run of markers behind its indent. -/
theorem isClosingLine_iff {marker : Char} {run : Nat} {line : Text}
    (known : marker = '\x60' ∨ marker = '~') (full : 0 < run) :
    isClosingLine marker run line = true ↔ ClosesFence marker run line := by
  obtain ⟨hindent, hblank⟩ := isIndent_of_isMarker known
  rw [isClosingLine]
  simp only [Bool.and_eq_true, decide_eq_true_eq]
  constructor
  · obtain ⟨count, tail, hsplit, _, hrun⟩ := exists_of_splitRun marker (line.dropWhile Text.isIndent)
    rw [hrun, List.length_replicate]
    intro ⟨hlong, htail⟩
    refine ⟨line.takeWhile Text.isIndent, count, tail, ?_, ?_, hlong, List.all_eq_true.mp htail⟩
    · rw [← hsplit]
      exact List.takeWhile_append_dropWhile.symm
    · exact fun letter hletter => List.mem_takeWhile_imp hletter
  · rintro ⟨indent, count, tail, rfl, hspace, hlong, htail⟩
    obtain ⟨more, rfl⟩ := Nat.exists_eq_add_one.mpr (Nat.lt_of_lt_of_le full hlong)
    have hhead : tail.head? ≠ some marker := by
      intro heq
      rw [htail marker (List.mem_of_mem_head? heq)] at hblank
      exact Bool.noConfusion hblank
    have hdrop : (List.replicate (more + 1) marker ++ tail).dropWhile Text.isIndent =
        List.replicate (more + 1) marker ++ tail := by
      rw [List.replicate_succ, List.cons_append]
      exact List.dropWhile_cons_of_neg (by simp [hindent])
    rw [List.dropWhile_append_of_pos hspace, hdrop, splitRun_replicate_append hhead]
    exact ⟨by rwa [List.length_replicate], List.all_eq_true.mpr htail⟩

/-- A fence is closed by the first line that may close it. -/
theorem lines_of_closeFence? {marker : Char} {run : Nat} {text code closing rest : Text}
    (h : closeFence? marker run text = some (code, closing, rest)) :
    ∃ lines : List Text, code = lines.flatMap (· ++ ['\n']) ∧
      (∀ line ∈ lines, '\n' ∉ line ∧ isClosingLine marker run line = false) ∧
      '\n' ∉ closing ∧ isClosingLine marker run closing = true := by
  fun_induction closeFence? marker run text generalizing code closing rest with
  | case1 => simp at h
  | case2 letter tail line =>
    rename_i hcloses
    obtain ⟨rfl, hclosing⟩ := Prod.mk.inj (Option.some.inj h)
    obtain ⟨rfl, rfl⟩ := Prod.mk.inj hclosing
    exact ⟨[], rfl, fun _ h => absurd h List.not_mem_nil, newline_notMem_takeWhile _, hcloses⟩
  | case3 => simp at h
  | case4 letter tail line after _ feed following =>
    rename_i hopen left ih
    obtain ⟨⟨inner, last, remaining⟩, hclose, heq⟩ := Option.map_eq_some_iff.mp h
    obtain ⟨rfl, hclosing⟩ := Prod.mk.inj heq
    obtain ⟨rfl, rfl⟩ := Prod.mk.inj hclosing
    obtain ⟨lines, rfl, hlines, hlast, hcloses⟩ := ih hclose
    refine ⟨line :: lines, ?_, ?_, hlast, hcloses⟩
    · rw [List.flatMap_cons, eq_newline_of_dropWhile left, List.append_assoc]
      rfl
    · exact List.forall_mem_cons.mpr ⟨⟨newline_notMem_takeWhile _, Bool.eq_false_iff.mpr hopen⟩, hlines⟩

/-- A fence that is read on a line of its own stands behind its indent. -/
theorem stands_of_readFence? {lead text indent rest : Text} {literal : Literal}
    (start : Text.EndsLine lead) (h : readFence? text = (indent, .found literal rest)) :
    literal.Stands (lead ++ indent) rest := by
  have hline : '\n' ∉ (Text.splitWhile Text.isIndent (splitLine text).1).2 := fun hmem =>
    newline_notMem_takeWhile text ((List.dropWhile_sublist _).mem hmem)
  rw [readFence?] at h
  simp only at h
  generalize (Text.splitWhile Text.isIndent (splitLine text).1).2 = fenceLine at h hline
  split at h
  · exact nomatch h
  · next marker tail =>
    obtain ⟨run, words, hsplit, hwhole, hrun⟩ := exists_of_splitRun marker (marker :: tail)
    rw [hrun, List.length_replicate] at h
    split at h
    · exact nomatch h
    · next hopened =>
      simp only [Bool.or_eq_true, Bool.and_eq_true, not_or, decide_eq_true_eq, Nat.not_lt,
        bne_iff_ne] at hopened
      obtain ⟨⟨hmarker, hlong⟩, _⟩ := hopened
      have known : marker = '\x60' ∨ marker = '~' := by
        by_contra hneither
        exact hmarker (not_or.mp hneither)
      split at h
      · exact nomatch h
      · next feed following hafter =>
        split at h
        · exact nomatch h
        · next code closing left hclose =>
          simp only [Prod.mk.injEq, Reading.found.injEq] at h
          obtain ⟨rfl, rfl, rfl⟩ := h
          obtain ⟨lines, rfl, hlines, hlast, hcloses⟩ := lines_of_closeFence? hclose
          have closesIff (line : Text) := @isClosingLine_iff marker run line known (by omega)
          rw [eq_newline_of_dropWhile hafter, hsplit, List.append_assoc]
          refine .fence rfl start (fun letter hletter => List.mem_takeWhile_imp hletter) known hlong
            hwhole (fun hmem => hline ?_) (fun line hmem => ?_) ((closesIff closing).mp hcloses) hlast
            (head?_of_closeFence? hclose)
          · rw [hsplit]
            exact List.mem_append_right _ hmem
          · obtain ⟨hone, hopen⟩ := hlines line hmem
            exact ⟨hone, fun hcloses => Bool.eq_false_iff.mp hopen ((closesIff line).mpr hcloses)⟩

/-! ## Inline code -/

/-- A run that does not begin with the first letter is a run of what follows this letter. -/
theorem hasRun_of_cons {letter first : Char} {count : Nat} {body : Text} (full : 0 < count)
    (hfirst : first ≠ letter) (h : Text.HasRun letter count (first :: body)) :
    Text.HasRun letter count body := by
  obtain ⟨before, after, heq, hbefore, hafter⟩ := h
  cases before with
  | nil =>
    obtain ⟨more, rfl⟩ := Nat.exists_eq_add_one.mpr full
    rw [List.replicate_succ] at heq
    exact absurd (List.cons.inj heq).1 hfirst
  | cons other earlier =>
    refine ⟨earlier, after, (List.cons.inj heq).2, fun hlast => hbefore ?_, hafter⟩
    rw [List.getLast?_cons, hlast]
    rfl

/-- A run in a text that begins with a run of another length is one of what follows that run. -/
theorem hasRun_of_replicate_append {letter : Char} {count other : Nat} {body : Text}
    (hother : other ≠ count) (hbody : body.head? ≠ some letter)
    (h : Text.HasRun letter count (List.replicate other letter ++ body)) :
    Text.HasRun letter count body := by
  obtain ⟨before, after, heq, hbefore, hafter⟩ := h
  rcases List.append_eq_append_iff.mp heq with ⟨part, rfl, hpart⟩ | ⟨part, hlead, hpart⟩
  · refine ⟨part, after, hpart, fun hlast => hbefore ?_, hafter⟩
    rw [List.getLast?_append, hlast, Option.some_or]
  · have hnone : before = [] := by
      rcases List.eq_nil_or_concat' before with rfl | ⟨earlier, last, rfl⟩
      · rfl
      · have hlast : last ∈ List.replicate other letter := by
          rw [hlead]
          simp
        rw [List.eq_of_mem_replicate hlast, List.getLast?_concat] at hbefore
        exact absurd rfl hbefore
    rw [hnone, List.nil_append] at hlead
    rw [← hlead] at hpart
    have hruns := congrArg (splitRun letter) hpart
    rw [splitRun_replicate_append hafter, splitRun_replicate_append hbody] at hruns
    have hlengths := congrArg List.length (Prod.mk.inj hruns).1
    rw [List.length_replicate, List.length_replicate] at hlengths
    exact absurd hlengths.symm hother

/-- A run behind some text is not at its start. -/
theorem head?_of_head?_append {letter : Char} {count : Nat} {body after : Text} (full : 0 < count)
    (h : (body ++ List.replicate count letter ++ after).head? ≠ some letter) :
    body ≠ [] ∧ body.head? ≠ some letter := by
  cases body with
  | nil =>
    obtain ⟨more, rfl⟩ := Nat.exists_eq_add_one.mpr full
    exact absurd rfl h
  | cons first rest => exact ⟨List.cons_ne_nil _ _, h⟩

/-- Inline code is closed by the first run of as many backticks. -/
theorem body_of_closeInlineCode? {run : Nat} {text inner rest : Text} (full : 0 < run)
    (h : closeInlineCode? run text = some (inner, rest)) :
    ∃ body, inner = body ++ List.replicate run '\x60' ∧ body.getLast? ≠ some '\x60' ∧
      ¬Text.HasRun '\x60' run body := by
  fun_induction closeInlineCode? run text generalizing inner rest with
  | case1 => simp at h
  | case2 letter tail tick ticks =>
    rename_i hlength
    obtain ⟨rfl, _⟩ := Prod.mk.inj (Option.some.inj h)
    refine ⟨[], ?_, Option.some_ne_none _ |>.symm, ?_⟩
    · rw [← beq_iff_eq.mp hlength]
      exact takeWhile_eq_replicate '\x60' (letter :: tail)
    · rintro ⟨before, after, heq, _⟩
      have hlengths := congrArg List.length heq
      simp only [List.length_append, List.length_replicate, List.length_nil] at hlengths
      omega
  | case3 letter tail tick ticks after =>
    rename_i hlength ih
    obtain ⟨⟨first, second⟩, hclose, heq⟩ := Option.map_eq_some_iff.mp h
    obtain ⟨rfl, rfl⟩ := Prod.mk.inj heq
    obtain ⟨body, rfl, hlast, hinside⟩ := ih hclose
    have hticks : ticks = List.replicate ticks.length '\x60' :=
      takeWhile_eq_replicate '\x60' (letter :: tail)
    have hnext : after.head? ≠ some '\x60' := fun hhead =>
      absurd (eq_false_of_mem_head?_dropWhile '\x60' hhead) (by decide)
    rw [← append_of_closeInlineCode? hclose] at hnext
    have hbody := head?_of_head?_append full hnext
    refine ⟨ticks ++ body, (List.append_assoc ..).symm, ?_, fun hrun => hinside ?_⟩
    · rwa [List.getLast?_append_of_ne_nil _ hbody.1]
    · rw [hticks] at hrun
      exact hasRun_of_replicate_append (by simpa using hlength) hbody.2 hrun
  | case4 letter tail hletter ih =>
    obtain ⟨⟨first, second⟩, hclose, heq⟩ := Option.map_eq_some_iff.mp h
    obtain ⟨rfl, rfl⟩ := Prod.mk.inj heq
    obtain ⟨body, rfl, hlast, hinside⟩ := ih hclose
    have hplain : letter ≠ '\x60' := fun heq => hletter (beq_iff_eq.mpr heq)
    refine ⟨letter :: body, rfl, ?_, fun hrun => hinside (hasRun_of_cons full hplain hrun)⟩
    cases body with
    | nil => exact fun heq => hplain (Option.some.inj heq)
    | cons second others => rwa [List.getLast?_cons_cons]

/-! ## Inline math -/

/-- Whether every dollar sign and every line feed in a text stands behind a backslash that hides it, given
whether the first letter does. -/
def HidesEnds (hidden : Bool) (text : Text) : Prop :=
  ∀ earlier letter later, text = earlier ++ letter :: later → letter = '$' ∨ letter = '\n' →
    earlier.foldl Text.hides hidden = true

/-- What is hidden is decided letter by letter. -/
theorem hidesEnds_cons_iff {hidden : Bool} {first : Char} {rest : Text} :
    HidesEnds hidden (first :: rest) ↔
      (first = '$' ∨ first = '\n' → hidden = true) ∧ HidesEnds (Text.hides hidden first) rest := by
  constructor
  · intro hends
    constructor
    · exact hends [] first rest rfl
    · intro earlier letter later hsplit
      rw [hsplit] at hends
      exact hends (first :: earlier) letter later rfl
  · rintro ⟨hfirst, hrest⟩ earlier letter later hsplit
    cases earlier with
    | nil =>
      obtain ⟨rfl, rfl⟩ := List.cons.inj hsplit
      exact hfirst
    | cons other earlier =>
      obtain ⟨rfl, hothers⟩ := List.cons.inj hsplit
      exact hrest earlier letter later hothers

/-- Inline math is closed by the first dollar sign that is not hidden, and it goes past a line feed only
where that is hidden. -/
theorem body_of_closeInlineMath? {text inner rest : Text}
    (h : closeInlineMath? text = some (inner, rest)) :
    ∃ body, inner = body ++ ['$'] ∧ Text.endsHiding body = false ∧ HidesEnds false body := by
  fun_induction closeInlineMath? text generalizing inner rest with
  | case1 => simp at h
  | case2 tail =>
    obtain ⟨rfl, _⟩ := Prod.mk.inj (Option.some.inj h)
    refine ⟨[], rfl, rfl, fun earlier letter later hsplit => ?_⟩
    exact absurd hsplit.symm (List.append_ne_nil_of_right_ne_nil _ (List.cons_ne_nil _ _))
  | case3 => simp at h
  | case4 hidden tail ih =>
    obtain ⟨⟨first, second⟩, hclose, heq⟩ := Option.map_eq_some_iff.mp h
    obtain ⟨rfl, rfl⟩ := Prod.mk.inj heq
    obtain ⟨body, rfl, hends, hinside⟩ := ih hclose
    -- Behind the hidden letter nothing is hidden, as at the start.
    have hstart : Text.hides (Text.hides false '\\') hidden = false := Text.hides_of_hidden hidden
    refine ⟨'\\' :: hidden :: body, rfl, ?_, ?_⟩
    · rw [Text.endsHiding, List.foldl_cons, List.foldl_cons, hstart]
      exact hends
    · rw [hidesEnds_cons_iff, hidesEnds_cons_iff, hstart]
      exact ⟨by decide, fun _ => rfl, hinside⟩
  | case5 letter tail hdollar hfeed hbackslash ih =>
    obtain ⟨⟨first, second⟩, hclose, heq⟩ := Option.map_eq_some_iff.mp h
    obtain ⟨rfl, rfl⟩ := Prod.mk.inj heq
    obtain ⟨body, rfl, hends, hinside⟩ := ih hclose
    have hvisible : letter ≠ '\\' := by
      rintro rfl
      cases tail with
      | nil => simp [closeInlineMath?] at hclose
      | cons hidden others => exact hbackslash hidden others rfl rfl
    have hstart : Text.hides false letter = false := Text.hides_of_ne hvisible false
    refine ⟨letter :: body, rfl, ?_, ?_⟩
    · rw [Text.endsHiding, List.foldl_cons, hstart]
      exact hends
    · rw [hidesEnds_cons_iff, hstart]
      exact ⟨fun hend => (hend.elim hdollar hfeed).elim, hinside⟩

/-! ## Every literal -/

/-- A literal that is read where it stands. -/
theorem stands_of_readLiteral? {text rest : Text} {literal : Literal} (before : Text)
    (h : readLiteral? text = .found literal rest) : literal.Stands before rest := by
  cases reads_of_readLiteral? h with
  | displayMath closes => exact .displayMath (Text.isUpToFirst_of_cut? closes)
  | inlineMath closes =>
    obtain ⟨body, rfl, hends, hinside⟩ := body_of_closeInlineMath? closes
    exact .inlineMath hends hinside
  | @inlineCode text body rest closes =>
    obtain ⟨count, tail, hfull, _, hwhole, hrun⟩ := exists_of_splitRun_cons '\x60' text
    simp only [hrun, List.length_replicate] at closes
    obtain ⟨inner, rfl, hlast, hinside⟩ := body_of_closeInlineCode? hfull closes
    rw [← append_of_closeInlineCode? closes] at hwhole
    obtain ⟨hfilled, hfirst⟩ := head?_of_head?_append hfull hwhole
    rw [hrun]
    exact .inlineCode hfull hfilled hfirst hlast hinside (exists_of_closeInlineCode? closes).2
  | verbatim closes => exact .verbatim (Text.isUpToFirst_of_cut? closes)

end Literal
end Courseware
