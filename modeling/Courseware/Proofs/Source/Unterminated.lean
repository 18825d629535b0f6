import Courseware.Proofs.Source.Escapes
import Courseware.Proofs.Source.Openings

/-!
# Literals that are never closed

A document that cannot be extracted holds a literal that is opened and never closed, and the report names
the first one. `Literal.Unclosed` says for each kind which delimiter stands there and that nothing behind it
closes it. That it is the first one means that what comes before it can be extracted on its own.

This is not plain from the scan, which decides at the start of a line whether a fence is opened by looking
at the whole line. Cut off in the middle, a line of inline code with many backticks would be a fence. But
the scan has gone on from there only because it has found the end of this inline code, so the backticks
that close it have not been cut off (`Piece.exists_of_scan_eq_error`).
-/

namespace Courseware

namespace Literal

/-- An opening delimiter at the start of a text that nothing behind it closes, where `before` is what comes
before the text in the document. -/
inductive Unclosed (before : Text) : LiteralKind → Text → Prop
  /-- A fence, on a line that opens one, with no line behind it that closes it. -/
  | fence {marker : Char} {run : Nat} {lead indent words rest : Text} (opened : before = lead ++ indent)
      (start : Text.EndsLine lead) (opens : OpensFence indent marker run words)
      (ends : ∀ next ∈ rest.head?, next = '\n')
      (unclosed : ∀ line ∈ (Text.split '\n' rest).tail, ¬ClosesFence marker run line) :
      Unclosed before .fence (List.replicate run marker ++ (words ++ rest))
  /-- A run of backticks, with no run of as many backticks behind it. -/
  | inlineCode {count : Nat} {rest : Text} (full : 0 < count) (whole : rest.head? ≠ some '\x60')
      (unclosed : ¬Text.HasRun '\x60' count rest) :
      Unclosed before .inlineCode (List.replicate count '\x60' ++ rest)
  | displayMath {rest : Text} (unclosed : ¬['$', '$'] <:+: rest) :
      Unclosed before .displayMath ('$' :: '$' :: rest)
  /-- A dollar sign, with no other on its line: before each one that is not hidden there is a line feed that
  is not hidden either. -/
  | inlineMath {rest : Text} (single : rest.head? ≠ some '$')
      (unclosed : ∀ body after, rest = body ++ '$' :: after → Text.endsHiding body = false →
        ∃ earlier later, body = earlier ++ '\n' :: later ∧ Text.endsHiding earlier = false) :
      Unclosed before .inlineMath ('$' :: rest)
  | verbatim {rest : Text} (unclosed : ¬verbatimClosing <:+: rest) :
      Unclosed before .verbatim (verbatimOpening ++ rest)

/-- A fence that is read to no end stands behind its indent. -/
theorem unclosed_of_readFence? {lead text indent : Text} {kind : LiteralKind}
    (start : Text.EndsLine lead) (h : readFence? text = (indent, .unterminated kind)) :
    ∃ rest, text = indent ++ rest ∧ (∀ letter ∈ indent, Text.isIndent letter = true) ∧
      Unclosed (lead ++ indent) kind rest := by
  have hpresent : (readFence? text).2 ≠ .absent := by
    simp [h]
  obtain ⟨indent, marker, run, words, after, opens, rfl, hafter⟩ := exists_of_readFence? hpresent
  rw [opens.readFence? hafter] at h
  obtain ⟨rfl, hreading⟩ := Prod.mk.inj h
  have hlong : 0 < run := Nat.lt_of_lt_of_le (by decide) opens.long
  have unclosed : kind = .fence ∧
      ∀ line ∈ (Text.split '\n' after).tail, ¬ClosesFence marker run line := by
    cases after with
    | nil => exact ⟨(Reading.unterminated.inj hreading).symm, fun _ hline => absurd hline List.not_mem_nil⟩
    | cons feed following =>
      obtain rfl := hafter feed rfl
      rw [fenceReading] at hreading
      cases hclose : closeFence? marker run following with
      | some found =>
        rw [hclose] at hreading
        cases hreading
      | none =>
        rw [hclose] at hreading
        refine ⟨(Reading.unterminated.inj hreading).symm, fun line hline hcloses => ?_⟩
        have hnone : '\n' ∉ ([] : Text) := List.not_mem_nil
        have hsplit : Text.split '\n' ('\n' :: following) = [] :: Text.split '\n' following :=
          Text.split_append_cons hnone
        rw [hsplit, List.tail_cons] at hline
        have hopen := not_isClosingLine_of_closeFence? hlong hclose hline
        rw [(isClosingLine_iff opens.known hlong).mpr hcloses] at hopen
        exact Bool.noConfusion hopen
  obtain ⟨rfl, hlines⟩ := unclosed
  exact ⟨_, rfl, opens.blank, .fence rfl start opens hafter hlines⟩

/-- A literal of another kind that is read to no end. -/
theorem unclosed_of_readLiteral? {text : Text} {kind : LiteralKind} (before : Text)
    (h : readLiteral? text = .unterminated kind) : Unclosed before kind text := by
  have unclosed {result : Option (Text × Text)} {own : LiteralKind} {make : Text × Text → Literal}
      (heq : result.elim (.unterminated own) (fun found => .found (make found) found.2) =
        Reading.unterminated kind) : result = none ∧ own = kind := by
    cases result with
    | none => exact ⟨rfl, Reading.unterminated.inj heq⟩
    | some found => exact nomatch heq
  cases text with
  | nil => exact nomatch h
  | cons first rest =>
    by_cases hdollar : first = '$'
    · subst hdollar
      by_cases hsingle : rest.head? = some '$'
      · obtain ⟨others, rfl⟩ := List.head?_eq_some_iff.mp hsingle
        obtain ⟨hcut, rfl⟩ := unclosed ((readLiteral?_displayMath others).symm.trans h)
        exact .displayMath (Text.not_infix_of_cut? hcut)
      · obtain ⟨hclose, rfl⟩ := unclosed ((readLiteral?_inlineMath hsingle).symm.trans h)
        exact .inlineMath hsingle fun _ _ hsplit hends => feed_of_closeInlineMath? hclose hsplit hends
    · by_cases htick : first = '\x60'
      · subst htick
        obtain ⟨count, tail, hfull, hsplit, hwhole, _⟩ := exists_of_splitRun_cons '\x60' rest
        rw [hsplit] at h ⊢
        obtain ⟨hclose, rfl⟩ := unclosed ((readLiteral?_inlineCode hfull hwhole).symm.trans h)
        exact .inlineCode hfull hwhole (not_hasRun_of_closeInlineCode? hfull hclose)
      · have hverbatim : verbatimOpening <+: first :: rest := by
          by_contra hverbatim
          exact nomatch (readLiteral?_eq_absent_iff.mpr ⟨hdollar, htick, hverbatim⟩).symm.trans h
        obtain ⟨others, hothers⟩ := hverbatim
        rw [← hothers] at h ⊢
        obtain ⟨hcut, rfl⟩ := unclosed ((readLiteral?_verbatim others).symm.trans h)
        exact .verbatim (Text.not_infix_of_cut? hcut)

/-- Backticks with no backtick behind them open inline code that is not closed. -/
theorem readLiteral?_of_loneTicks {run : Nat} {words : Text} (full : 0 < run) (plain : '\x60' ∉ words) :
    readLiteral? (List.replicate run '\x60' ++ words) = .unterminated .inlineCode := by
  have whole : words.head? ≠ some '\x60' := fun hhead => plain (List.mem_of_mem_head? hhead)
  rw [readLiteral?_inlineCode full whole]
  cases hclose : closeInlineCode? run words with
  | none => rfl
  | some found =>
    obtain ⟨inner, rest⟩ := found
    obtain ⟨⟨start, rfl⟩, _⟩ := exists_of_closeInlineCode? hclose
    rw [← append_of_closeInlineCode? hclose] at plain
    exact absurd (by simp) plain

/-- Where a literal is read no fence is opened, also if the text is cut off behind the literal. -/
theorem readFence?_of_found {text behind rest : Text} {l : Literal}
    (unfenced : (readFence? (text ++ behind)).2 = .absent) (found : readLiteral? text = .found l rest) :
    (readFence? text).2 = .absent := by
  by_contra hcut
  obtain ⟨indent, run, words, opens, rfl⟩ := exists_of_cutFence unfenced hcut
  cases indent with
  | nil =>
    have hlone := readLiteral?_of_loneTicks (Nat.lt_of_lt_of_le (by decide) opens.long) (opens.plain rfl)
    rw [List.nil_append, hlone] at found
    exact nomatch found
  | cons blank others =>
    rcases Text.isIndent_iff.mp (opens.blank blank List.mem_cons_self) with rfl | rfl <;>
      exact nomatch found

end Literal

/-- What a report says of a document: behind `before`, at the start of `rest`, a literal is opened and never
closed. No backslash hides its opening delimiter. -/
structure Unterminated.Describes (report : Unterminated) (before rest : Text) : Prop where
  offset : report.offset = Text.width before
  line : report.line = before.count '\n' + 1
  visible : Text.endsHiding before = false
  unclosed : Literal.Unclosed before report.kind rest

namespace Piece

variable {lineStart : Bool} {done : List Piece}

/-- A literal that is not closed stops a scan. -/
theorem scan_unclosed {text : Text} {kind : LiteralKind}
    (unfenced : lineStart = true → (Literal.readFence? text).2 = .absent)
    (unclosed : Literal.readLiteral? text = .unterminated kind) :
    scan lineStart done text = .error
      ⟨kind, Text.width (sources done.reverse), (sources done.reverse).count '\n' + 1⟩ := by
  cases text with
  | nil => exact nomatch unclosed
  | cons first rest =>
    have hfence := unfenced_of_absent unfenced
    rw [scan]
    split
    · next hfound => simp [hfound] at hfence
    · next hfound => simp [hfound] at hfence
    · split
      · next hfound => simp [hfound] at unclosed
      · next hfound =>
        obtain rfl := Literal.Reading.unterminated.inj (hfound.symm.trans unclosed)
        have hdone : sources done.reverse ++ [] = sources done.reverse := List.append_nil _
        show Except.error (Unterminated.mk _ (Text.width (sources done.reverse ++ []))
          ((sources done.reverse ++ []).count '\n' + 1)) = _
        rw [hdone]
      · next hfound => simp [hfound] at unclosed

/-- A line that was cut off after its backticks stops a scan, since no inline code ends in it. -/
theorem scan_of_loneTicks {indent words : Text} {run : Nat}
    (blank : ∀ letter ∈ indent, Text.isIndent letter = true) (full : 0 < run)
    (plain : '\x60' ∉ words) :
    ∃ report, scan false done (indent ++ (List.replicate run '\x60' ++ words)) = .error report := by
  have hindent : ∀ letter ∈ indent, Literal.isDelimiter letter = false ∧ letter ≠ '\n' := by
    intro letter hletter
    rcases Text.isIndent_iff.mp (blank letter hletter) with rfl | rfl <;> decide
  rw [scan_letters hindent]
  exact ⟨_, scan_unclosed (fun hline => absurd hline Bool.false_ne_true)
    (Literal.readLiteral?_of_loneTicks full plain)⟩

/-- No fence is opened before a text that can be scanned behind its first letter, also if it is the start of
a longer one. The backticks of the fence would stop the scan, behind the indent or without it. -/
theorem unfenced_of_scan {first : Char} {before behind : Text} {pieces : List Piece}
    (unfenced : (Literal.readFence? (first :: before ++ behind)).2 = .absent)
    (plain : Literal.readLiteral? (first :: before) = .absent)
    (scanned : scan (first == '\n') done before = .ok pieces) :
    (Literal.readFence? (first :: before)).2 = .absent := by
  by_contra hcut
  obtain ⟨indent, run, words, opens, hsplit⟩ := Literal.exists_of_cutFence unfenced hcut
  have full : 0 < run := Nat.lt_of_lt_of_le (by decide) opens.long
  cases indent with
  | nil =>
    rw [hsplit, List.nil_append, Literal.readLiteral?_of_loneTicks full (opens.plain rfl)] at plain
    exact nomatch plain
  | cons blank others =>
    rw [List.cons_append] at hsplit
    obtain ⟨rfl, rfl⟩ := List.cons.inj hsplit
    obtain ⟨hfirst, hothers⟩ := List.forall_mem_cons.mp opens.blank
    have hline : (first == '\n') = false := by
      rcases Text.isIndent_iff.mp hfirst with rfl | rfl <;> rfl
    rw [hline] at scanned
    obtain ⟨report, stopped⟩ := scan_of_loneTicks hothers full (opens.plain rfl)
    exact nomatch stopped.symm.trans scanned

/-- A scan that fails has come to a literal that is not closed, and what it has read until there can be
scanned on its own. The induction is on the scan: `done` ends where a line does if a line is taken to start,
and it hides nothing. -/
theorem exists_of_scan_eq_error {text : Text} {report : Unterminated}
    (start : lineStart = true → Text.EndsLine (sources done.reverse))
    (visible : Text.endsHiding (sources done.reverse) = false)
    (h : scan lineStart done text = .error report) :
    ∃ before rest, text = before ++ rest ∧ report.Describes (sources done.reverse ++ before) rest ∧
      ∀ base, ∃ pieces, scan lineStart base before = .ok pieces := by
  fun_induction scan lineStart done text with
  | case1 => simp at h
  | case2 lineStart done first rest indent block after hfence ih =>
    split at hfence
    · next hline =>
      have hstands := Literal.stands_of_readFence? (start hline) hfence
      rw [sources_reverse_fenced] at ih
      obtain ⟨before, behind, rfl, describes, scans⟩ :=
        ih (fun hline => absurd hline Bool.false_ne_true) (hstands.endsHiding _) h
      refine ⟨indent ++ (block.text ++ before), behind, ?_, ?_, fun base => ?_⟩
      · rw [← Literal.append_of_readFence? hfence]
        simp
      · simpa only [List.append_assoc] using describes
      · have hbefore : ∀ next ∈ before.head?, next = '\n' := by
          intro next hnext
          apply Literal.head?_of_readFence? hfence
          rw [List.head?_append, hnext]
          rfl
        rw [hline, scan_fenced (Literal.readFence?_append hfence hbefore)]
        exact scans _
    · simp at hfence
  | case3 lineStart done first rest indent kind hfence =>
    split at hfence
    · next hline =>
      obtain rfl := Except.error.inj h
      obtain ⟨behind, hsplit, blank, unclosed⟩ := Literal.unclosed_of_readFence? (start hline) hfence
      have hindent : Text.endsHiding (sources done.reverse ++ indent) = false :=
        Text.endsHiding_append (fun hmem => absurd (blank _ hmem) (by decide)) fun _ => visible
      refine ⟨indent, behind, hsplit, ⟨rfl, rfl, hindent, unclosed⟩,
        fun base => ⟨_, scan_of_isDelimiter ?_⟩⟩
      intro letter hletter
      rcases Text.isIndent_iff.mp (blank letter hletter) with rfl | rfl <;> decide
    · simp at hfence
  | case4 lineStart done first rest indent hfence block after hread ih =>
    have hstands := Literal.stands_of_readLiteral? [] hread
    rw [sources_reverse_cons] at ih
    obtain ⟨before, behind, rfl, describes, scans⟩ :=
      ih (fun hline => absurd hline Bool.false_ne_true) (hstands.endsHiding _) h
    have hsplit : first :: rest = block.text ++ before ++ behind := by
      rw [List.append_assoc, Literal.append_of_readLiteral? hread]
    refine ⟨block.text ++ before, behind, hsplit, ?_, fun base => ?_⟩
    · rwa [List.append_assoc] at describes
    · have hbefore : block.kind = .inlineCode → before.head? ≠ some '\x60' := by
        intro code hhead
        apply Literal.head?_of_readLiteral? hread code
        rw [List.head?_append, hhead]
        rfl
      have hagain := Literal.readLiteral?_append hread hbefore
      rw [scan_taken _ hagain]
      · exact scans _
      · rintro rfl
        rw [hsplit] at hfence
        exact Literal.readFence?_of_found (congrArg Prod.snd hfence) hagain
  | case5 lineStart done first rest indent hfence kind hread =>
    obtain rfl := Except.error.inj h
    have hend : Text.endsHiding (sources done.reverse ++ []) = false := by
      rwa [List.append_nil]
    exact ⟨[], first :: rest, rfl, ⟨rfl, rfl, hend, Literal.unclosed_of_readLiteral? _ hread⟩,
      fun base => ⟨_, by rw [scan]⟩⟩
  | case6 => simp at h
  | case7 lineStart done first indent hbackslash hidden after _ _ ih =>
    obtain rfl := beq_iff_eq.mp hbackslash
    have hhidden : Text.endsHiding (sources done.reverse ++ ['\\'] ++ [hidden]) = false := by
      rw [Text.endsHiding_concat, Text.endsHiding_concat, visible]
      exact Text.hides_of_hidden hidden
    rw [sources_reverse_cons, sources_reverse_cons] at ih
    obtain ⟨before, behind, rfl, describes, scans⟩ := ih (Text.endsLine_concat _) hhidden h
    refine ⟨'\\' :: hidden :: before, behind, rfl, ?_, fun base => ?_⟩
    · simpa [source] using describes
    · rw [scan_hidden]
      exact scans _
  | case8 lineStart done first rest indent hfence hread hplain ih =>
    have hfirst : first ≠ '\\' := by simpa using hplain
    have hvisited : Text.endsHiding (sources done.reverse ++ [first]) = false := by
      rw [Text.endsHiding_concat, Text.hides_of_ne hfirst]
    rw [sources_reverse_cons] at ih
    obtain ⟨before, behind, rfl, describes, scans⟩ := ih (Text.endsLine_concat _) hvisited h
    refine ⟨first :: before, behind, rfl, ?_, fun base => ?_⟩
    · simpa [source] using describes
    · have plain : Literal.readLiteral? (first :: before) = .absent :=
        Literal.readLiteral?_of_append hread
      obtain ⟨pieces, scanned⟩ := scans (letter first :: base)
      rw [scan_visited _ plain hfirst]
      · exact ⟨pieces, scanned⟩
      · rintro rfl
        exact unfenced_of_scan (congrArg Prod.snd hfence) plain scanned

end Piece

namespace Extraction

/-- Where there are sentinels for a document, extracting it fails as the scan does. -/
theorem ofSource_eq_error_iff {source : Text} {failure : Failure}
    (pool : Sentinels.choose? source ≠ none) :
    ofSource source = .error failure ↔
      ∃ report, failure = .unterminated report ∧ Piece.scan true [] source = .error report := by
  unfold ofSource
  cases hchoice : Sentinels.choose? source with
  | none => exact absurd hchoice pool
  | some sentinels =>
    cases hscan : Piece.scan true [] source with
    | error report =>
      constructor
      · intro failed
        exact ⟨report, (Except.error.inj failed).symm, rfl⟩
      · rintro ⟨other, rfl, hother⟩
        rw [Except.error.inj hother]
    | ok pieces => simp

/-- A document that cannot be extracted, though there are sentinels for it, is reported for a literal that is
opened and never closed. It is the first one: what comes before it can be extracted. -/
theorem ofSource_blames_first {source : Text} {failure : Failure}
    (pool : Sentinels.choose? source ≠ none) (failed : ofSource source = .error failure) :
    ∃ report before rest extraction, failure = .unterminated report ∧ source = before ++ rest ∧
      report.Describes before rest ∧ ofSource before = .ok extraction := by
  obtain ⟨report, hfailure, hscan⟩ := (ofSource_eq_error_iff pool).mp failed
  have start : true = true → Text.EndsLine (Piece.sources ([] : List Piece).reverse) :=
    fun _ => Text.endsLine_nil
  have visible : Text.endsHiding (Piece.sources ([] : List Piece).reverse) = false := rfl
  obtain ⟨before, rest, rfl, describes, scans⟩ := Piece.exists_of_scan_eq_error start visible hscan
  obtain ⟨pieces, scanned⟩ := scans []
  obtain ⟨sentinels, hsentinels⟩ := Option.ne_none_iff_exists'.mp
    (Sentinels.choose?_ne_none_of_subset (List.subset_append_left before rest) pool)
  exact ⟨report, before, rest, ⟨sentinels, pieces⟩, hfailure, rfl, describes,
    ofSource_eq_ok_iff.mpr ⟨hsentinels, scanned⟩⟩

/-- Three backticks that open inline code and no fence come before a dollar sign that is not closed. -/
theorem ofSource_blames_first_dollar :
    ∃ before rest extraction,
      ofSource ['\x60', '\x60', '\x60', 'a', '\x60', '\x60', '\x60', '\n', '$', 'b'] =
        .error (.unterminated ⟨.inlineMath, 8, 2⟩) ∧
      ['\x60', '\x60', '\x60', 'a', '\x60', '\x60', '\x60', '\n', '$', 'b'] = before ++ rest ∧
      Unterminated.Describes ⟨.inlineMath, 8, 2⟩ before rest ∧ ofSource before = .ok extraction := by
  have hpool : Sentinels.choose?
      ['\x60', '\x60', '\x60', 'a', '\x60', '\x60', '\x60', '\n', '$', 'b'] ≠ none := by
    rw [Sentinels.choose?_eq_first (by decide) (by decide)]
    exact Option.some_ne_none _
  have hscan : Piece.scan true []
      ['\x60', '\x60', '\x60', 'a', '\x60', '\x60', '\x60', '\n', '$', 'b'] =
        .error ⟨.inlineMath, 8, 2⟩ := by
    have hfence : (Literal.readFence?
        ['\x60', '\x60', '\x60', 'a', '\x60', '\x60', '\x60', '\n', '$', 'b']).2 = .absent := by cbv
    have hcode : Literal.readLiteral?
        ['\x60', '\x60', '\x60', 'a', '\x60', '\x60', '\x60', '\n', '$', 'b'] =
          .found (.inlineCode ['\x60', '\x60', '\x60', 'a', '\x60', '\x60', '\x60'])
            ['\n', '$', 'b'] := by cbv
    rw [Piece.scan_taken (fun _ => hfence) hcode, Piece.scan_letter [] rfl rfl (by decide),
      Piece.scan_unclosed (fun _ => by cbv) (by cbv)]
    rfl
  have failed := (ofSource_eq_error_iff hpool).mpr ⟨_, rfl, hscan⟩
  obtain ⟨report, before, rest, extraction, hfailure, hsource, describes, extracted⟩ :=
    ofSource_blames_first hpool failed
  obtain rfl := Failure.unterminated.inj hfailure
  exact ⟨before, rest, extraction, failed, hsource, describes, extracted⟩

end Extraction

end Courseware
