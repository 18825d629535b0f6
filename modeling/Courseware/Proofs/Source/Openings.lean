import Courseware.Proofs.Source.Shape

/-!
# How literals are opened and closed

A literal is read up to its closing delimiter and no further, so what follows it is of no account, but for
the first letter: a run of backticks must not go on, and the line that closes a fence must be at its end.
`Literal.readLiteral?_append` and `Literal.readFence?_append` say so, with one lemma for the loop behind
each kind. Each loop has a second lemma for the case that it finds nothing.

Whether a fence is opened is decided by one line, and `Literal.OpensFence` says which lines open one. A line
that has not been read to its end may look like such a line: the letter that spoils it, a backtick behind
the run of backticks, may be yet to come (`Literal.exists_of_cutFence`).
-/

namespace Courseware

namespace Text

variable {mark body text : Text}

/-- What stands before the first mark is cut off there. -/
theorem cut?_of_isUpToFirst (full : mark ≠ []) (first : IsUpToFirst mark body) (after : Text) :
    cut? mark (body ++ (mark ++ after)) = some (body, after) := by
  induction body with
  | nil =>
    obtain ⟨letter, rest, rfl⟩ := List.exists_cons_of_ne_nil full
    have hprefix : (letter :: rest).isPrefixOf (letter :: rest ++ after) = true :=
      List.isPrefixOf_iff_prefix.mpr (List.prefix_append _ _)
    rw [List.nil_append, List.cons_append, cut?, ← List.cons_append, if_pos hprefix, List.drop_left]
  | cons letter others ih =>
    have habsent : ¬mark.isPrefixOf (letter :: (others ++ (mark ++ after))) = true := by
      intro hprefix
      have hlong : mark.length ≤ (letter :: others ++ mark).length := by
        rw [List.length_append]
        omega
      have hhere : mark <+: letter :: others ++ mark := by
        rw [List.isPrefixOf_iff_prefix, ← List.append_assoc, ← List.cons_append,
          ← List.cons_append] at hprefix
        exact List.prefix_of_prefix_length_le hprefix (List.prefix_append _ _) hlong
      obtain ⟨tail, htail⟩ := hhere
      have hnone : tail = [] := first [] tail htail.symm
      rw [hnone, List.append_nil] at htail
      have hlength := congrArg List.length htail
      simp only [List.length_append, List.length_cons] at hlength
      omega
    have hrest : IsUpToFirst mark others := fun before tail heq =>
      first (letter :: before) tail (congrArg (letter :: ·) heq)
    rw [List.cons_append, cut?, if_neg habsent, ih hrest]
    rfl

/-- A text that is not cut does not hold the mark. -/
theorem not_infix_of_cut? (h : cut? mark text = none) : ¬mark <:+: text := by
  induction text with
  | nil =>
    intro hinfix
    rw [List.infix_nil.mp hinfix] at h
    exact Option.some_ne_none _ h
  | cons letter rest ih =>
    rw [cut?] at h
    split at h
    · exact absurd h (Option.some_ne_none _)
    · next habsent =>
      rw [List.infix_cons_iff, not_or]
      exact ⟨fun hprefix => habsent (List.isPrefixOf_iff_prefix.mpr hprefix),
        ih (Option.map_eq_none_iff.mp h)⟩

/-- What stands on one line stands there also when lines are put behind it. -/
theorem prefix_of_prefix_append {tail : Text} (oneLine : '\n' ∉ mark)
    (htail : ∀ next ∈ tail.head?, next = '\n') (h : mark <+: text ++ tail) : mark <+: text := by
  obtain ⟨after, hafter⟩ := h
  rcases List.append_eq_append_iff.mp hafter with ⟨part, rfl, _⟩ | ⟨part, hmark, hpart⟩
  · exact List.prefix_append _ _
  · cases part with
    | nil => rw [hmark, List.append_nil]
    | cons next others =>
      rw [hpart] at htail
      refine absurd ?_ oneLine
      rw [hmark, ← htail next rfl]
      exact List.mem_append_right _ List.mem_cons_self

theorem mem_of_mem_trim {letter : Char} (h : letter ∈ trim text) : letter ∈ text := by
  rw [trim, trimEnd, dropTrailing, List.mem_reverse] at h
  exact (List.dropWhile_sublist _).mem (List.mem_reverse.mp ((List.dropWhile_sublist _).mem h))

theorem mem_trim_of_mem {letter : Char} (h : letter ∈ text) (hfull : isBlank letter = false) :
    letter ∈ trim text := by
  have hkeep {part : Text} (hpart : letter ∈ part) : letter ∈ part.dropWhile isBlank := by
    rw [← List.takeWhile_append_dropWhile (p := isBlank) (l := part), List.mem_append] at hpart
    refine hpart.resolve_left fun hblank => ?_
    exact Bool.noConfusion (hfull.symm.trans (List.mem_takeWhile_imp hblank))
  rw [trim, trimEnd, dropTrailing, List.mem_reverse]
  exact hkeep (List.mem_reverse.mpr (hkeep h))

end Text

namespace Literal

/-! ## Inline math -/

/-- A letter that is no delimiter of inline math is passed over. -/
theorem closeInlineMath?_cons {letter : Char} (hdollar : letter ≠ '$') (hfeed : letter ≠ '\n')
    (hvisible : letter ≠ '\\') (rest : Text) :
    closeInlineMath? (letter :: rest) =
      (closeInlineMath? rest).map fun (inner, after) => (letter :: inner, after) := by
  rw [closeInlineMath?]
  · exact hdollar
  · exact hfeed
  · exact fun _ _ heq => absurd heq hvisible

theorem closeInlineMath?_append {text inner rest : Text}
    (h : closeInlineMath? text = some (inner, rest)) (other : Text) :
    closeInlineMath? (inner ++ other) = some (inner, other) := by
  fun_induction closeInlineMath? text generalizing inner rest with
  | case1 => simp at h
  | case2 tail =>
    obtain ⟨rfl, _⟩ := Prod.mk.inj (Option.some.inj h)
    rfl
  | case3 => simp at h
  | case4 hidden tail ih =>
    obtain ⟨⟨first, second⟩, hclose, heq⟩ := Option.map_eq_some_iff.mp h
    obtain ⟨rfl, rfl⟩ := Prod.mk.inj heq
    rw [List.cons_append, List.cons_append, closeInlineMath?, ih hclose]
    rfl
  | case5 letter tail hdollar hfeed hbackslash ih =>
    obtain ⟨⟨first, second⟩, hclose, heq⟩ := Option.map_eq_some_iff.mp h
    obtain ⟨rfl, rfl⟩ := Prod.mk.inj heq
    have hvisible : letter ≠ '\\' := by
      rintro rfl
      cases tail with
      | nil => simp [closeInlineMath?] at hclose
      | cons hidden others => exact hbackslash hidden others rfl rfl
    rw [List.cons_append, closeInlineMath?_cons hdollar hfeed hvisible, ih hclose]
    rfl

/-- Where inline math is not closed, a dollar sign that is not hidden stands behind a line feed that is not
hidden either. -/
theorem feed_of_closeInlineMath? {text body after : Text} (h : closeInlineMath? text = none)
    (hsplit : text = body ++ '$' :: after) (hends : Text.endsHiding body = false) :
    ∃ earlier later, body = earlier ++ '\n' :: later ∧ Text.endsHiding earlier = false := by
  fun_induction closeInlineMath? text generalizing body with
  | case1 => simp at hsplit
  | case2 => simp at h
  | case3 tail =>
    cases body with
    | nil => exact absurd (List.cons.inj hsplit).1 (by decide)
    | cons first others =>
      obtain ⟨rfl, _⟩ := List.cons.inj hsplit
      exact ⟨[], others, rfl, rfl⟩
  | case4 hidden tail ih =>
    cases body with
    | nil => exact absurd (List.cons.inj hsplit).1 (by decide)
    | cons first others =>
      obtain ⟨rfl, hothers⟩ := List.cons.inj hsplit
      cases others with
      | nil => cases hends
      | cons second more =>
        obtain ⟨rfl, hmore⟩ := List.cons.inj hothers
        have hstart : Text.hides (Text.hides false '\\') hidden = false := Text.hides_of_hidden hidden
        rw [Text.endsHiding, List.foldl_cons, List.foldl_cons, hstart] at hends
        obtain ⟨earlier, later, rfl, hfeed⟩ := ih (Option.map_eq_none_iff.mp h) hmore hends
        refine ⟨'\\' :: hidden :: earlier, later, rfl, ?_⟩
        rwa [Text.endsHiding, List.foldl_cons, List.foldl_cons, hstart]
  | case5 letter tail hdollar hfeed hbackslash ih =>
    cases body with
    | nil => exact absurd (List.cons.inj hsplit).1 hdollar
    | cons first others =>
      obtain ⟨rfl, hothers⟩ := List.cons.inj hsplit
      have hvisible : letter ≠ '\\' := by
        rintro rfl
        cases tail with
        | nil => simp at hothers
        | cons hidden more => exact hbackslash hidden more rfl rfl
      have hstart : Text.hides false letter = false := Text.hides_of_ne hvisible false
      rw [Text.endsHiding, List.foldl_cons, hstart] at hends
      obtain ⟨earlier, later, rfl, hearlier⟩ := ih (Option.map_eq_none_iff.mp h) hothers hends
      refine ⟨letter :: earlier, later, rfl, ?_⟩
      rwa [Text.endsHiding, List.foldl_cons, hstart]

/-! ## Inline code -/

theorem closeInlineCode?_cons {run : Nat} {letter : Char} (h : letter ≠ '\x60') (rest : Text) :
    closeInlineCode? run (letter :: rest) =
      (closeInlineCode? run rest).map fun (inner, after) => (letter :: inner, after) := by
  rw [closeInlineCode?, if_neg (by simpa using h)]

/-- A run of backticks closes inline code, or it is passed over as a whole. -/
theorem closeInlineCode?_ticks {run count : Nat} {rest : Text} (full : 0 < count)
    (whole : rest.head? ≠ some '\x60') :
    closeInlineCode? run (List.replicate count '\x60' ++ rest) =
      if count = run then some (List.replicate count '\x60', rest)
      else (closeInlineCode? run rest).map fun (inner, after) =>
        (List.replicate count '\x60' ++ inner, after) := by
  have hsplit := splitRun_replicate_append whole count
  obtain ⟨more, rfl⟩ := Nat.exists_eq_add_one.mpr full
  obtain ⟨hticks, hafter⟩ := Prod.mk.inj hsplit
  rw [List.replicate_succ, List.cons_append] at hticks hafter ⊢
  rw [List.dropWhile_cons_of_pos (p := (· == '\x60')) (beq_self_eq_true '\x60')] at hafter
  rw [closeInlineCode?, if_pos (beq_self_eq_true _), hticks, hafter]
  simp only [List.length_cons, List.length_replicate, beq_iff_eq]

theorem closeInlineCode?_append {run : Nat} {text inner rest other : Text}
    (h : closeInlineCode? run text = some (inner, rest)) (hother : other.head? ≠ some '\x60') :
    closeInlineCode? run (inner ++ other) = some (inner, other) := by
  fun_induction closeInlineCode? run text generalizing inner rest with
  | case1 => simp at h
  | case2 letter tail tick ticks =>
    rename_i hlength
    obtain ⟨rfl, _⟩ := Prod.mk.inj (Option.some.inj h)
    obtain rfl := beq_iff_eq.mp tick
    obtain ⟨count, _, full, _, _, hrun⟩ := exists_of_splitRun_cons '\x60' tail
    have hcount : ticks = List.replicate count '\x60' := congrArg Prod.fst hrun
    rw [hcount, List.length_replicate, beq_iff_eq] at hlength
    rw [hcount, closeInlineCode?_ticks full hother, if_pos hlength]
  | case3 letter tail tick ticks after =>
    rename_i hlength ih
    obtain ⟨⟨first, second⟩, hclose, heq⟩ := Option.map_eq_some_iff.mp h
    obtain ⟨rfl, rfl⟩ := Prod.mk.inj heq
    obtain rfl := beq_iff_eq.mp tick
    obtain ⟨count, _, full, _, _, hrun⟩ := exists_of_splitRun_cons '\x60' tail
    have hcount : ticks = List.replicate count '\x60' := congrArg Prod.fst hrun
    have hnext : (first ++ other).head? ≠ some '\x60' := by
      obtain ⟨⟨start, rfl⟩, _⟩ := exists_of_closeInlineCode? hclose
      have hafter : after.head? ≠ some '\x60' := fun hhead =>
        absurd (eq_false_of_mem_head?_dropWhile '\x60' hhead) (by decide)
      rw [← append_of_closeInlineCode? hclose] at hafter
      cases start with
      | nil => exact absurd rfl hafter
      | cons letter others => exact hafter
    rw [hcount, List.length_replicate, beq_iff_eq] at hlength
    rw [hcount, List.append_assoc, closeInlineCode?_ticks full hnext, if_neg hlength, ih hclose]
    rfl
  | case4 letter tail hletter ih =>
    obtain ⟨⟨first, second⟩, hclose, heq⟩ := Option.map_eq_some_iff.mp h
    obtain ⟨rfl, rfl⟩ := Prod.mk.inj heq
    have hplain : letter ≠ '\x60' := fun heq => hletter (beq_iff_eq.mpr heq)
    rw [List.cons_append, closeInlineCode?_cons hplain, ih hclose]
    rfl

/-- Where inline code is not closed, there is no run of as many backticks. -/
theorem not_hasRun_of_closeInlineCode? {run : Nat} {text : Text} (full : 0 < run)
    (h : closeInlineCode? run text = none) : ¬Text.HasRun '\x60' run text := by
  fun_induction closeInlineCode? run text with
  | case1 =>
    rintro ⟨before, after, heq, _⟩
    have hlengths := congrArg List.length heq
    simp only [List.length_append, List.length_replicate, List.length_nil] at hlengths
    omega
  | case2 => simp at h
  | case3 letter tail tick ticks after =>
    rename_i hlength ih
    have hticks : ticks = List.replicate ticks.length '\x60' :=
      takeWhile_eq_replicate '\x60' (letter :: tail)
    have hnext : after.head? ≠ some '\x60' := fun hhead =>
      absurd (eq_false_of_mem_head?_dropWhile '\x60' hhead) (by decide)
    have htext : letter :: tail = List.replicate ticks.length '\x60' ++ after := by
      rw [← hticks]
      show _ = ticks ++ tail.dropWhile (· == '\x60')
      rw [← List.dropWhile_cons_of_pos (p := (· == '\x60')) (l := tail) tick]
      exact List.takeWhile_append_dropWhile.symm
    rw [htext]
    intro hrun
    exact ih (Option.map_eq_none_iff.mp h)
      (hasRun_of_replicate_append (by simpa using hlength) hnext hrun)
  | case4 letter tail hletter ih =>
    have hplain : letter ≠ '\x60' := fun heq => hletter (beq_iff_eq.mpr heq)
    exact fun hrun => ih (Option.map_eq_none_iff.mp h) (hasRun_of_cons full hplain hrun)

/-! ## Fences -/

/-- The end of a fence is looked for line by line. -/
theorem closeFence?_line {marker : Char} {run : Nat} {line after : Text} (oneLine : '\n' ∉ line)
    (hafter : ∀ next ∈ after.head?, next = '\n') (full : line ++ after ≠ []) :
    closeFence? marker run (line ++ after) =
      if isClosingLine marker run line then some ([], line, after)
      else match after with
        | [] => none
        | feed :: following => (closeFence? marker run following).map fun (code, closing, tail) =>
            (line ++ feed :: code, closing, tail) := by
  have hsplit : Text.splitWhile (· != '\n') (line ++ after) = (line, after) := by
    apply Text.splitWhile_append
    · intro letter hletter
      rw [bne_iff_ne]
      rintro rfl
      exact oneLine hletter
    · intro next hnext
      rw [hafter next hnext]
      rfl
  obtain ⟨hline, hrest⟩ := Prod.mk.inj hsplit
  obtain ⟨letter, others, htext⟩ := List.exists_cons_of_ne_nil full
  rw [htext] at hline hrest ⊢
  rw [closeFence?]
  simp only [hline]
  split
  · rw [hrest]
  · split
    · next hnone =>
      rw [hrest] at hnone
      rw [hnone]
    · next feed following hfeed =>
      rw [hrest] at hfeed
      rw [hfeed]

/-- An empty line closes no fence. -/
theorem isClosingLine_nil {marker : Char} {run : Nat} (full : 0 < run) :
    isClosingLine marker run [] = false := by
  rw [isClosingLine, Bool.and_eq_false_iff, decide_eq_false_iff_not]
  exact .inl (Nat.not_le.mpr full)

theorem closeFence?_append {marker : Char} {run : Nat} {text code closing rest other : Text}
    (full : 0 < run) (h : closeFence? marker run text = some (code, closing, rest))
    (hother : ∀ next ∈ other.head?, next = '\n') :
    closeFence? marker run (code ++ (closing ++ other)) = some (code, closing, other) := by
  fun_induction closeFence? marker run text generalizing code closing rest with
  | case1 => simp at h
  | case2 letter tail line =>
    rename_i hcloses
    obtain ⟨rfl, hclosing⟩ := Prod.mk.inj (Option.some.inj h)
    obtain ⟨rfl, _⟩ := Prod.mk.inj hclosing
    have hfull : line ++ other ≠ [] := by
      intro hnil
      rw [(List.append_eq_nil_iff.mp hnil).1, isClosingLine_nil full] at hcloses
      exact Bool.noConfusion hcloses
    rw [List.nil_append, closeFence?_line (newline_notMem_takeWhile _) hother hfull,
      if_pos hcloses]
  | case3 => simp at h
  | case4 letter tail line after _ feed following =>
    rename_i hopen left ih
    obtain ⟨⟨inner, last, remaining⟩, hclose, heq⟩ := Option.map_eq_some_iff.mp h
    obtain ⟨rfl, hclosing⟩ := Prod.mk.inj heq
    obtain ⟨rfl, rfl⟩ := Prod.mk.inj hclosing
    rw [List.append_assoc, List.cons_append,
      closeFence?_line (newline_notMem_takeWhile _) _ (by simp), if_neg hopen]
    · show (closeFence? marker run (inner ++ (last ++ other))).map _ = _
      rw [ih hclose]
      rfl
    · intro next hnext
      rw [← Option.some.inj hnext, eq_newline_of_dropWhile left]

/-- Where a fence is not closed, no line closes it. -/
theorem not_isClosingLine_of_closeFence? {marker : Char} {run : Nat} {text line : Text}
    (full : 0 < run) (h : closeFence? marker run text = none) (hline : line ∈ Text.split '\n' text) :
    isClosingLine marker run line = false := by
  fun_induction closeFence? marker run text with
  | case1 =>
    rw [List.mem_singleton.mp hline]
    exact isClosingLine_nil full
  | case2 => simp at h
  | case3 letter tail first after hopen left =>
    have htext : letter :: tail = first := by
      have hsplit : first ++ after = letter :: tail := List.takeWhile_append_dropWhile
      rw [← hsplit, left, List.append_nil]
    rw [htext, Text.split_of_notMem (newline_notMem_takeWhile _), List.mem_singleton] at hline
    rw [hline]
    exact Bool.eq_false_iff.mpr hopen
  | case4 letter tail first after _ feed following =>
    rename_i hopen left ih
    have htext : letter :: tail = first ++ '\n' :: following := by
      have hsplit : first ++ after = letter :: tail := List.takeWhile_append_dropWhile
      rw [← hsplit, left, eq_newline_of_dropWhile left]
    rw [htext, Text.split_append_cons (newline_notMem_takeWhile _), List.mem_cons] at hline
    rcases hline with rfl | hfollowing
    · exact Bool.eq_false_iff.mpr hopen
    · exact ih (Option.map_eq_none_iff.mp h) hfollowing

/-- A line that opens a fence: a run of markers behind an indent, and words. Backticks may not stand among
the words behind backticks. -/
structure OpensFence (indent : Text) (marker : Char) (run : Nat) (words : Text) : Prop where
  blank : ∀ letter ∈ indent, Text.isIndent letter = true
  known : marker = '\x60' ∨ marker = '~'
  long : 3 ≤ run
  whole : words.head? ≠ some marker
  oneLine : '\n' ∉ words
  plain : marker = '\x60' → '\x60' ∉ words

section

variable {indent words : Text} {marker : Char} {run : Nat}

theorem OpensFence.newline_notMem (opens : OpensFence indent marker run words) :
    '\n' ∉ indent ++ (List.replicate run marker ++ words) := by
  rw [List.mem_append, List.mem_append]
  rintro (hindent | hrun | hwords)
  · exact absurd (opens.blank _ hindent) (by decide)
  · have hmarker : '\n' = marker := List.eq_of_mem_replicate hrun
    exact opens.known.elim (fun h => absurd (hmarker.trans h) (by decide))
      fun h => absurd (hmarker.trans h) (by decide)
  · exact opens.oneLine hwords

/-- What is read behind a line that opens a fence. -/
def fenceReading (marker : Char) (run : Nat) (words : Text) : Text → Reading
  | [] => .unterminated .fence
  | feed :: following =>
    match closeFence? marker run following with
    | none => .unterminated .fence
    | some (code, closing, rest) =>
      .found (.fence (Text.trim words) (List.replicate run marker ++ (words ++ [feed])) code closing)
        rest

theorem fenceReading_ne_absent (marker : Char) (run : Nat) (words after : Text) :
    fenceReading marker run words after ≠ .absent := by
  cases after with
  | nil => simp [fenceReading]
  | cons feed following =>
    rw [fenceReading]
    cases closeFence? marker run following <;> simp

/-- A line that opens a fence is read as such. -/
theorem OpensFence.readFence? (opens : OpensFence indent marker run words) {after : Text}
    (hafter : ∀ next ∈ after.head?, next = '\n') :
    Literal.readFence? (indent ++ (List.replicate run marker ++ (words ++ after))) =
      (indent, fenceReading marker run words after) := by
  obtain ⟨hindent, hblank⟩ := isIndent_of_isMarker opens.known
  have hline : splitLine (indent ++ (List.replicate run marker ++ (words ++ after))) =
      (indent ++ (List.replicate run marker ++ words), after) := by
    have hassoc : indent ++ (List.replicate run marker ++ (words ++ after)) =
        indent ++ (List.replicate run marker ++ words) ++ after := by simp
    rw [hassoc]
    apply Text.splitWhile_append
    · intro letter hletter
      rw [bne_iff_ne]
      rintro rfl
      exact opens.newline_notMem hletter
    · intro next hnext
      rw [hafter next hnext]
      rfl
  obtain ⟨more, hmore⟩ := Nat.exists_eq_add_of_le' opens.long
  have hmarkers : List.replicate run marker ++ words =
      marker :: (List.replicate (more + 2) marker ++ words) := by
    rw [hmore]
    rfl
  have hlead : Text.splitWhile Text.isIndent (indent ++ (List.replicate run marker ++ words)) =
      (indent, List.replicate run marker ++ words) := by
    apply Text.splitWhile_append opens.blank
    intro next hnext
    rw [hmarkers] at hnext
    rwa [← Option.some.inj hnext]
  have hinfo : ¬((marker != '\x60' && marker != '~') || decide (run < 3) ||
      (marker == '\x60' && (Text.trim words).contains '\x60')) = true := by
    simp only [Bool.or_eq_true, Bool.and_eq_true, not_or, decide_eq_true_eq, Nat.not_lt, bne_iff_ne,
      beq_iff_eq, List.contains_eq_mem]
    refine ⟨⟨fun hneither => ?_, opens.long⟩, fun hticks => ?_⟩
    · exact opens.known.elim hneither.1 hneither.2
    · exact opens.plain hticks.1 (Text.mem_of_mem_trim hticks.2)
  rw [Literal.readFence?]
  simp only [hline, hlead]
  rw [hmarkers]
  simp only
  rw [← hmarkers, splitRun_replicate_append opens.whole, List.length_replicate, if_neg hinfo]
  cases after with
  | nil => rfl
  | cons feed following =>
    simp only [fenceReading, List.append_assoc]
    cases closeFence? marker run following with
    | none => rfl
    | some found => rfl

/-- Whatever is read as a fence begins with a line that opens one. -/
theorem exists_of_readFence? {text : Text} (h : (Literal.readFence? text).2 ≠ .absent) :
    ∃ indent marker run words after, OpensFence indent marker run words ∧
      text = indent ++ (List.replicate run marker ++ (words ++ after)) ∧
      ∀ next ∈ after.head?, next = '\n' := by
  have hline : (splitLine text).1 ++ (splitLine text).2 = text := Text.append_splitWhile ..
  have oneLine : '\n' ∉ (splitLine text).1 := newline_notMem_takeWhile text
  have hafter : ∀ next ∈ (splitLine text).2.head?, next = '\n' := fun next hnext => by
    simpa using eq_false_of_mem_head?_dropWhile next hnext
  have hindent : (Text.splitWhile Text.isIndent (splitLine text).1).1 ++
      (Text.splitWhile Text.isIndent (splitLine text).1).2 = (splitLine text).1 :=
    Text.append_splitWhile ..
  have hblank : ∀ letter ∈ (Text.splitWhile Text.isIndent (splitLine text).1).1,
      Text.isIndent letter = true := fun letter hletter => List.mem_takeWhile_imp hletter
  rw [Literal.readFence?] at h
  simp only at h
  generalize Text.splitWhile Text.isIndent (splitLine text).1 = parts at h hindent hblank
  split at h
  · exact absurd rfl h
  · next marker tail hfenceLine =>
    obtain ⟨run, words, hsplit, hwhole, hrun⟩ := exists_of_splitRun marker (marker :: tail)
    rw [hfenceLine, hsplit] at hindent
    rw [hfenceLine, hrun, List.length_replicate] at h
    split at h
    · exact absurd rfl h
    · next hopened =>
      simp only [Bool.or_eq_true, Bool.and_eq_true, not_or, decide_eq_true_eq, Nat.not_lt,
        bne_iff_ne, beq_iff_eq, List.contains_eq_mem] at hopened
      obtain ⟨⟨hmarker, hlong⟩, hplain⟩ := hopened
      refine ⟨parts.1, marker, run, words, (splitLine text).2, ⟨hblank, ?_, hlong, hwhole, ?_, ?_⟩,
        ?_, hafter⟩
      · by_contra hneither
        exact hmarker (not_or.mp hneither)
      · intro hmem
        apply oneLine
        rw [← hindent]
        exact List.mem_append_right _ (List.mem_append_right _ hmem)
      · intro htick hmem
        exact hplain ⟨htick, Text.mem_trim_of_mem hmem (by decide)⟩
      · refine hline.symm.trans ?_
        rw [← hindent]
        simp

/-- A fence that is found begins with a line that opens it, and its end is found behind that line. -/
theorem exists_of_readFence?_eq_found {text rest : Text} {l : Literal}
    (h : Literal.readFence? text = (indent, .found l rest)) :
    ∃ marker run words code closing following, OpensFence indent marker run words ∧
      closeFence? marker run following = some (code, closing, rest) ∧
      l = .fence (Text.trim words) (List.replicate run marker ++ (words ++ ['\n'])) code closing := by
  have hpresent : (Literal.readFence? text).2 ≠ .absent := by
    simp [h]
  obtain ⟨indent, marker, run, words, after, opens, rfl, hafter⟩ := exists_of_readFence? hpresent
  rw [opens.readFence? hafter] at h
  obtain ⟨rfl, hreading⟩ := Prod.mk.inj h
  cases after with
  | nil => cases hreading
  | cons feed following =>
    obtain rfl := hafter feed rfl
    rw [fenceReading] at hreading
    cases hclose : closeFence? marker run following with
    | none =>
      rw [hclose] at hreading
      cases hreading
    | some found =>
      obtain ⟨code, closing, left⟩ := found
      rw [hclose] at hreading
      obtain ⟨rfl, rfl⟩ := Reading.found.inj hreading
      exact ⟨marker, run, words, code, closing, following, opens, hclose, rfl⟩

/-- A fence ends where its last line does. -/
theorem head?_of_readFence? {text rest : Text} {l : Literal}
    (h : Literal.readFence? text = (indent, .found l rest)) : ∀ next ∈ rest.head?, next = '\n' := by
  obtain ⟨_, _, _, _, _, _, _, hclose, _⟩ := exists_of_readFence?_eq_found h
  exact head?_of_closeFence? hclose

/-- A fence does not depend on what follows the line that closes it. -/
theorem readFence?_append {text rest other : Text} {l : Literal}
    (h : Literal.readFence? text = (indent, .found l rest))
    (hother : ∀ next ∈ other.head?, next = '\n') :
    Literal.readFence? (indent ++ (l.text ++ other)) = (indent, .found l other) := by
  obtain ⟨marker, run, words, code, closing, following, opens, hclose, rfl⟩ :=
    exists_of_readFence?_eq_found h
  have hlong : 0 < run := Nat.lt_of_lt_of_le (by decide) opens.long
  have hfeed : ∀ next ∈ ('\n' :: (code ++ (closing ++ other))).head?, next = '\n' :=
    fun next hnext => (Option.some.inj hnext).symm
  have hagain := opens.readFence? hfeed
  rw [fenceReading, closeFence?_append hlong hclose hother] at hagain
  simpa only [Literal.text, List.append_assoc, List.cons_append, List.nil_append] using hagain

/-! ### Lines that open no fence -/

/-- A line without fence stays one when lines are put behind it. -/
theorem readFence?_append_feed {text : Text} (h : (Literal.readFence? text).2 = .absent)
    {tail : Text} (htail : ∀ next ∈ tail.head?, next = '\n') :
    (Literal.readFence? (text ++ tail)).2 = .absent := by
  by_contra hpresent
  obtain ⟨indent, marker, run, words, after, opens, hsplit, hafter⟩ := exists_of_readFence? hpresent
  have hline : indent ++ (List.replicate run marker ++ words) ++ after = text ++ tail := by
    rw [hsplit]
    simp
  obtain ⟨more, rfl⟩ :=
    Text.prefix_of_prefix_append opens.newline_notMem htail ⟨after, hline⟩
  have hmore : ∀ next ∈ more.head?, next = '\n' := by
    intro next hnext
    apply hafter
    rw [List.append_assoc _ more] at hline
    rw [List.append_cancel_left hline, List.head?_append, hnext]
    rfl
  simp only [List.append_assoc, opens.readFence? hmore] at h
  exact fenceReading_ne_absent _ _ _ _ h

/-- A text at whose start no fence is opened may open one where it is cut off. Then it is a run of backticks
with words behind it, on one line, and it is another backtick that has been cut off. -/
theorem exists_of_cutFence {text rest : Text} (h : (Literal.readFence? (text ++ rest)).2 = .absent)
    (hcut : (Literal.readFence? text).2 ≠ .absent) :
    ∃ indent run words, OpensFence indent '\x60' run words ∧
      text = indent ++ (List.replicate run '\x60' ++ words) := by
  obtain ⟨indent, marker, run, words, after, opens, rfl, hafter⟩ := exists_of_readFence? hcut
  cases after with
  | cons feed following =>
    -- The line is there as a whole, so it opens a fence also in front of the rest.
    have hfeed : ∀ next ∈ (feed :: following ++ rest).head?, next = '\n' := hafter
    have hread := opens.readFence? hfeed
    simp only [List.append_assoc, hread] at h
    exact absurd h (fenceReading_ne_absent _ _ _ _)
  | nil =>
    rw [List.append_nil] at h ⊢
    rcases opens.known with rfl | rfl
    · exact ⟨indent, run, words, opens, rfl⟩
    · -- Tildes open a fence whatever words follow.
      obtain ⟨more, rfl⟩ := Nat.exists_eq_add_of_le opens.long
      rw [List.append_assoc, readFence?_indent opens.blank, List.replicate_add, List.append_assoc,
        List.append_assoc] at h
      exact absurd h (readFence?_tildes _)

end

/-! ## The other literals -/

theorem readLiteral?_displayMath (rest : Text) :
    readLiteral? ('$' :: '$' :: rest) =
      (Text.cut? ['$', '$'] rest).elim (.unterminated .displayMath) fun found =>
        .found (.displayMath ('$' :: '$' :: (found.1 ++ ['$', '$']))) found.2 := by
  rw [readLiteral?]
  cases Text.cut? ['$', '$'] rest <;> rfl

theorem readLiteral?_inlineMath {rest : Text} (single : rest.head? ≠ some '$') :
    readLiteral? ('$' :: rest) =
      (closeInlineMath? rest).elim (.unterminated .inlineMath) fun found =>
        .found (.inlineMath ('$' :: found.1)) found.2 := by
  rw [readLiteral?]
  · cases closeInlineMath? rest <;> rfl
  · rintro others rfl
    exact single rfl

theorem readLiteral?_inlineCode {count : Nat} {rest : Text} (full : 0 < count)
    (whole : rest.head? ≠ some '\x60') :
    readLiteral? (List.replicate count '\x60' ++ rest) =
      (closeInlineCode? count rest).elim (.unterminated .inlineCode) fun found =>
        .found (.inlineCode (List.replicate count '\x60' ++ found.1)) found.2 := by
  have hsplit := splitRun_replicate_append whole count
  obtain ⟨more, rfl⟩ := Nat.exists_eq_add_one.mpr full
  rw [List.replicate_succ, List.cons_append] at hsplit ⊢
  rw [readLiteral?, hsplit]
  simp only [List.length_cons, List.length_replicate]
  cases closeInlineCode? (more + 1) rest <;> rfl

theorem readLiteral?_verbatim (rest : Text) :
    readLiteral? (verbatimOpening ++ rest) =
      (Text.cut? verbatimClosing rest).elim (.unterminated .verbatim) fun found =>
        .found (.verbatim (verbatimOpening ++ (found.1 ++ verbatimClosing))) found.2 := by
  have hopened : verbatimOpening.isPrefixOf (verbatimOpening ++ rest) = true :=
    List.isPrefixOf_iff_prefix.mpr (List.prefix_append _ _)
  have hfirst : ∃ others, verbatimOpening ++ rest = '<' :: others := ⟨_, rfl⟩
  have hdrop : (verbatimOpening ++ rest).drop verbatimOpening.length = rest := List.drop_left
  obtain ⟨others, hothers⟩ := hfirst
  rw [hothers] at hopened hdrop ⊢
  rw [readLiteral?, if_pos hopened, hdrop]
  cases Text.cut? verbatimClosing rest <;> rfl

/-- A literal does not depend on what follows it, as long as its last run of backticks does not go on. -/
theorem readLiteral?_append {text rest other : Text} {l : Literal}
    (h : readLiteral? text = .found l rest)
    (hother : l.kind = .inlineCode → other.head? ≠ some '\x60') :
    readLiteral? (l.text ++ other) = .found l other := by
  cases reads_of_readLiteral? h with
  | @displayMath text body rest closes =>
    have hagain := Text.cut?_of_isUpToFirst (by decide) (Text.isUpToFirst_of_cut? closes) other
    have hread := readLiteral?_displayMath (body ++ (['$', '$'] ++ other))
    rw [hagain] at hread
    simpa [Literal.text] using hread
  | @inlineMath text body rest closes =>
    have single : text.head? ≠ some '$' := by
      intro hhead
      obtain ⟨others, rfl⟩ := List.head?_eq_some_iff.mp hhead
      rw [readLiteral?_displayMath] at h
      cases hcut : Text.cut? ['$', '$'] others with
      | none =>
        rw [hcut] at h
        cases h
      | some found =>
        rw [hcut] at h
        cases (Reading.found.inj h).1
    have hsingle : (body ++ other).head? ≠ some '$' := by
      rw [← append_of_closeInlineMath? closes] at single
      obtain ⟨start, rfl⟩ := exists_of_closeInlineMath? closes
      cases start <;> exact single
    have hread := readLiteral?_inlineMath hsingle
    rwa [closeInlineMath?_append closes] at hread
  | @inlineCode text body rest closes =>
    obtain ⟨count, tail, hfull, _, hwhole, hrun⟩ := exists_of_splitRun_cons '\x60' text
    simp only [hrun, List.length_replicate] at closes
    have hbehind : (body ++ other).head? ≠ some '\x60' := by
      rw [← append_of_closeInlineCode? closes] at hwhole
      obtain ⟨⟨start, rfl⟩, _⟩ := exists_of_closeInlineCode? closes
      cases start <;> exact hwhole
    have hread := readLiteral?_inlineCode hfull hbehind
    rw [closeInlineCode?_append closes (hother rfl)] at hread
    rw [hrun, Literal.text, List.append_assoc]
    exact hread
  | @verbatim text body rest closes =>
    have hagain := Text.cut?_of_isUpToFirst (by decide) (Text.isUpToFirst_of_cut? closes) other
    have hread := readLiteral?_verbatim (body ++ (verbatimClosing ++ other))
    rw [hagain, Option.elim_some] at hread
    simpa only [Literal.text, List.append_assoc] using hread

/-- Where no literal begins, none begins when lines are put behind the text. -/
theorem readLiteral?_append_feed {first : Char} {rest tail : Text}
    (h : readLiteral? (first :: rest) = .absent) (htail : ∀ next ∈ tail.head?, next = '\n') :
    readLiteral? (first :: (rest ++ tail)) = .absent := by
  obtain ⟨hdollar, htick, hverbatim⟩ := readLiteral?_eq_absent_iff.mp h
  refine readLiteral?_eq_absent_iff.mpr ⟨hdollar, htick, fun hprefix => hverbatim ?_⟩
  have hlonger : verbatimOpening <+: first :: rest ++ tail := hprefix
  exact Text.prefix_of_prefix_append (by decide) htail hlonger

/-- Where no literal begins, none begins if the text is cut off behind its first letter. -/
theorem readLiteral?_of_append {first : Char} {before behind : Text}
    (h : readLiteral? (first :: (before ++ behind)) = .absent) :
    readLiteral? (first :: before) = .absent := by
  obtain ⟨hdollar, htick, hverbatim⟩ := readLiteral?_eq_absent_iff.mp h
  refine readLiteral?_eq_absent_iff.mpr ⟨hdollar, htick, fun hprefix => hverbatim ?_⟩
  exact hprefix.trans (List.prefix_append (first :: before) behind)

/-- Inline code ends with a whole run of backticks. -/
theorem head?_of_readLiteral? {text rest : Text} {l : Literal} (h : readLiteral? text = .found l rest)
    (code : l.kind = .inlineCode) : rest.head? ≠ some '\x60' := by
  cases reads_of_readLiteral? h with
  | inlineCode closes => exact (exists_of_closeInlineCode? closes).2
  | displayMath => exact nomatch code
  | inlineMath => exact nomatch code
  | verbatim => exact nomatch code

end Literal

/-! ## The steps of a scan -/

namespace Piece

variable {lineStart : Bool} {done : List Piece} {text after : Text} {block : Literal}

/-- A letter that opens nothing is visited. -/
theorem scan_visited {first : Char} {rest : Text}
    (unfenced : lineStart = true → (Literal.readFence? (first :: rest)).2 = .absent)
    (plain : Literal.readLiteral? (first :: rest) = .absent) (visible : first ≠ '\\') :
    scan lineStart done (first :: rest) = scan (first == '\n') (letter first :: done) rest :=
  scan_letter _ (Prod.ext rfl (unfenced_of_absent unfenced)) plain visible

/-- A fence is taken with its indent. -/
theorem scan_fenced {indent : Text} (found : Literal.readFence? text = (indent, .found block after)) :
    scan true done text = scan false (literal block :: (indent.map letter).reverse ++ done) after := by
  cases text with
  | nil => exact nomatch congrArg Prod.snd found
  | cons first rest => exact scan_fence found

/-- Any other literal is taken where it begins. -/
theorem scan_taken (unfenced : lineStart = true → (Literal.readFence? text).2 = .absent)
    (found : Literal.readLiteral? text = .found block after) :
    scan lineStart done text = scan false (literal block :: done) after := by
  cases text with
  | nil => exact nomatch found
  | cons first rest => exact scan_literal _ (Prod.ext rfl (unfenced_of_absent unfenced)) found

end Piece
end Courseware
