import Courseware.Proofs.Source.Placeholder

/-!
# What a scan leaves apart

A scan goes through a document from its start to its end and divides it into letters and literals. What
it has checked on the way can be read off the pieces. `Piece.Scanned` says it once: no letter that was
visited begins a literal, a letter behind a backslash was not visited, and a literal ends where its
delimiter cannot go on. `Piece.scanned_of_scan` shows that every scan is of this kind.
-/

namespace Courseware

namespace Literal

/-! ## Where fences are -/

/-- A run is one letter over and over. -/
theorem takeWhile_eq_replicate (marker : Char) (text : Text) :
    text.takeWhile (· == marker) =
      List.replicate (text.takeWhile (· == marker)).length marker := by
  refine List.eq_replicate_iff.mpr ⟨rfl, fun letter hletter => ?_⟩
  exact beq_iff_eq.mp (List.mem_takeWhile_imp (p := (· == marker)) hletter)

/-- A text begins with as many markers as its run has, and with fewer. -/
theorem replicate_prefix_of_le_length {marker : Char} {text : Text} {count : Nat}
    (h : count ≤ (splitRun marker text).1.length) : List.replicate count marker <+: text := by
  have hrun : (splitRun marker text).1 = List.replicate (splitRun marker text).1.length marker :=
    takeWhile_eq_replicate marker text
  obtain ⟨more, hmore⟩ := Nat.exists_eq_add_of_le h
  have hprefix : (splitRun marker text).1 <+: text := List.takeWhile_prefix _
  rw [hrun, hmore, List.replicate_add] at hprefix
  exact (List.prefix_append _ _).trans hprefix

/-- A fence, closed or not, is a run of at least three markers behind the indent of a line. -/
theorem exists_of_readFence?_ne_absent {text : Text} (h : (readFence? text).2 ≠ .absent) :
    ∃ indent marker rest, text = indent ++ (List.replicate 3 marker ++ rest) ∧
      (∀ letter ∈ indent, Text.isIndent letter = true) ∧ (marker = '\x60' ∨ marker = '~') := by
  have hline : (splitLine text).1 ++ (splitLine text).2 = text := Text.append_splitWhile ..
  have hindent : (Text.splitWhile Text.isIndent (splitLine text).1).1 ++
      (Text.splitWhile Text.isIndent (splitLine text).1).2 = (splitLine text).1 :=
    Text.append_splitWhile ..
  have hblank : ∀ letter ∈ (Text.splitWhile Text.isIndent (splitLine text).1).1,
      Text.isIndent letter = true := fun letter hletter => List.mem_takeWhile_imp hletter
  unfold readFence? at h
  simp only at h
  split at h
  · exact absurd rfl h
  · next marker tail hfenceLine =>
    rw [hfenceLine] at hindent h
    split at h
    · exact absurd rfl h
    · next hfence =>
      simp only [Bool.or_eq_true, Bool.and_eq_true, not_or, decide_eq_true_eq, Nat.not_lt,
        bne_iff_ne] at hfence
      obtain ⟨⟨hmarker, hlong⟩, _⟩ := hfence
      obtain ⟨rest, hrest⟩ := replicate_prefix_of_le_length hlong
      refine ⟨_, marker, rest ++ (splitLine text).2, ?_, hblank, ?_⟩
      · rw [← List.append_assoc (List.replicate 3 marker), hrest, ← List.append_assoc, hindent,
          hline]
      · by_cases htick : marker = '\x60'
        · exact .inl htick
        · right
          by_contra htilde
          exact hmarker ⟨htick, htilde⟩

/-- Whether there is a fence does not depend on the indent. -/
theorem readFence?_indent {indent : Text} (blank : ∀ letter ∈ indent, Text.isIndent letter = true)
    (text : Text) : (readFence? (indent ++ text)).2 = (readFence? text).2 := by
  have hletter : ∀ letter ∈ indent, (letter != '\n') = true := by
    intro letter hmem
    rcases Text.isIndent_iff.mp (blank letter hmem) with rfl | rfl <;> decide
  have hline : (splitLine (indent ++ text)).1 = indent ++ (splitLine text).1 :=
    List.takeWhile_append_of_pos hletter
  have hafter : (splitLine (indent ++ text)).2 = (splitLine text).2 :=
    List.dropWhile_append_of_pos hletter
  have hfence : (Text.splitWhile Text.isIndent (indent ++ (splitLine text).1)).2 =
      (Text.splitWhile Text.isIndent (splitLine text).1).2 :=
    List.dropWhile_append_of_pos blank
  unfold readFence?
  simp only [hline, hafter, hfence]
  split
  · rfl
  · split
    · rfl
    · split
      · rfl
      · split <;> rfl

/-- A line that begins with anything but a marker has no fence. -/
theorem readFence?_of_first {first : Char} (hindent : Text.isIndent first = false)
    (htick : first ≠ '\x60') (htilde : first ≠ '~') (rest : Text) :
    (readFence? (first :: rest)).2 = .absent := by
  unfold readFence?
  simp only [splitLine, Text.splitWhile, List.takeWhile_cons]
  by_cases hline : first = '\n'
  · subst hline
    rfl
  · simp [hline, hindent, htick, htilde]

/-- Three tildes are a fence whatever follows them. -/
theorem readFence?_tildes (rest : Text) :
    (readFence? (List.replicate 3 '~' ++ rest)).2 ≠ .absent := by
  have hline : (splitLine (List.replicate 3 '~' ++ rest)).1 =
      List.replicate 3 '~' ++ (splitLine rest).1 := rfl
  have hindent : (Text.splitWhile Text.isIndent (List.replicate 3 '~' ++ (splitLine rest).1)).2 =
      '~' :: '~' :: '~' :: (splitLine rest).1 := rfl
  have hmarkers : (splitRun '~' ('~' :: '~' :: '~' :: (splitLine rest).1)).1 =
      '~' :: '~' :: '~' :: (splitRun '~' (splitLine rest).1).1 := rfl
  unfold readFence?
  simp only [hline, hindent, hmarkers]
  rw [if_neg (by simp)]
  split
  · simp
  · split <;> simp

/-! ## Where literals end -/

/-- How the text of a literal ends: with the line, or with a delimiter that does not go on in the text
behind it. -/
def Closed (text rest : Text) : Prop :=
  (∀ next ∈ rest.head?, next = '\n') ∨
    ∃ start last, text = start ++ [last] ∧
      (last = '$' ∨ last = '>' ∨ last = '\x60' ∧ rest.head? ≠ some '\x60')

theorem eq_false_of_mem_head?_dropWhile {drop : Char → Bool} {text : Text} :
    ∀ next ∈ (text.dropWhile drop).head?, drop next = false := by
  intro next hnext
  have h := List.head?_dropWhile_not drop text
  rw [hnext] at h
  exact h

/-- A line ends before its line feed. -/
theorem newline_notMem_takeWhile (text : Text) : '\n' ∉ text.takeWhile (· != '\n') := fun hmem =>
  absurd (List.mem_takeWhile_imp hmem) (by decide)

/-- What follows a line begins with its line feed. -/
theorem eq_newline_of_dropWhile {text following : Text} {feed : Char}
    (h : text.dropWhile (· != '\n') = feed :: following) : feed = '\n' := by
  have hfeed : feed ∈ (text.dropWhile (· != '\n')).head? := by
    rw [h]
    rfl
  simpa using eq_false_of_mem_head?_dropWhile feed hfeed

theorem exists_of_closeInlineMath? {text inner rest : Text}
    (h : closeInlineMath? text = some (inner, rest)) : ∃ start, inner = start ++ ['$'] := by
  fun_induction closeInlineMath? text generalizing inner rest with
  | case1 => simp at h
  | case2 =>
    obtain ⟨rfl, rfl⟩ := Prod.mk.inj (Option.some.inj h)
    exact ⟨[], rfl⟩
  | case3 => simp at h
  | case4 hidden tail ih =>
    obtain ⟨⟨first, second⟩, hclose, heq⟩ := Option.map_eq_some_iff.mp h
    obtain ⟨start, rfl⟩ := ih hclose
    obtain ⟨rfl, rfl⟩ := Prod.mk.inj heq
    exact ⟨'\\' :: hidden :: start, rfl⟩
  | case5 letter tail _ _ _ ih =>
    obtain ⟨⟨first, second⟩, hclose, heq⟩ := Option.map_eq_some_iff.mp h
    obtain ⟨start, rfl⟩ := ih hclose
    obtain ⟨rfl, rfl⟩ := Prod.mk.inj heq
    exact ⟨letter :: start, rfl⟩

/-- Inline code is closed by a whole run of backticks. -/
theorem exists_of_closeInlineCode? {run : Nat} {text inner rest : Text}
    (h : closeInlineCode? run text = some (inner, rest)) :
    (∃ start, inner = start ++ ['\x60']) ∧ rest.head? ≠ some '\x60' := by
  fun_induction closeInlineCode? run text generalizing inner rest with
  | case1 => simp at h
  | case2 letter tail tick ticks =>
    obtain ⟨rfl, rfl⟩ := Prod.mk.inj (Option.some.inj h)
    have hfull : ticks ≠ [] := by simp [ticks, tick]
    have hlast : ticks.getLast hfull = '\x60' :=
      beq_iff_eq.mp (List.mem_takeWhile_imp (p := (· == '\x60')) (List.getLast_mem hfull))
    constructor
    · exact ⟨ticks.dropLast, by rw [← hlast, List.dropLast_append_getLast hfull]⟩
    · intro hnext
      exact absurd (eq_false_of_mem_head?_dropWhile _ hnext) (by decide)
  | case3 letter tail tick ticks after =>
    rename_i ih
    obtain ⟨⟨first, second⟩, hclose, heq⟩ := Option.map_eq_some_iff.mp h
    obtain ⟨⟨start, rfl⟩, hrest⟩ := ih hclose
    obtain ⟨rfl, rfl⟩ := Prod.mk.inj heq
    exact ⟨⟨ticks ++ start, (List.append_assoc ..).symm⟩, hrest⟩
  | case4 letter tail _ ih =>
    obtain ⟨⟨first, second⟩, hclose, heq⟩ := Option.map_eq_some_iff.mp h
    obtain ⟨⟨start, rfl⟩, hrest⟩ := ih hclose
    obtain ⟨rfl, rfl⟩ := Prod.mk.inj heq
    exact ⟨⟨letter :: start, rfl⟩, hrest⟩

/-- A fence is closed by a whole line. -/
theorem head?_of_closeFence? {marker : Char} {run : Nat} {text code closing rest : Text}
    (h : closeFence? marker run text = some (code, closing, rest)) :
    ∀ next ∈ rest.head?, next = '\n' := by
  fun_induction closeFence? marker run text generalizing code closing rest with
  | case1 => simp at h
  | case2 letter tail line =>
    obtain ⟨_, rfl⟩ := Prod.mk.inj (Prod.mk.inj (Option.some.inj h)).2
    intro next hnext
    simpa using eq_false_of_mem_head?_dropWhile next hnext
  | case3 => simp at h
  | case4 letter tail line after _ feed following =>
    rename_i left ih
    obtain ⟨⟨inner, last, remaining⟩, hclose, heq⟩ := Option.map_eq_some_iff.1 h
    obtain ⟨_, rfl⟩ := Prod.mk.inj (Prod.mk.inj heq).2
    exact ih hclose

theorem closed_of_readFence? {text indent rest : Text} {literal : Literal}
    (h : readFence? text = (indent, .found literal rest)) :
    Closed literal.text rest ∧ ∀ letter ∈ indent, Text.isIndent letter = true := by
  unfold readFence? at h
  simp only at h
  split at h
  · simp at h
  · split at h
    · simp at h
    · split at h
      · simp at h
      · split at h
        · simp at h
        · next code closing left hclose =>
          simp only [Prod.mk.injEq, Reading.found.injEq] at h
          obtain ⟨rfl, _, rfl⟩ := h
          exact ⟨.inl (head?_of_closeFence? hclose),
            fun letter hletter => List.mem_takeWhile_imp hletter⟩

theorem closed_of_readLiteral? {text rest : Text} {literal : Literal}
    (h : readLiteral? text = .found literal rest) : Closed literal.text rest := by
  right
  cases reads_of_readLiteral? h with
  | @displayMath text body rest closes =>
    exact ⟨'$' :: '$' :: (body ++ ['$']), '$', by simp [Literal.text], .inl rfl⟩
  | @inlineMath text body rest closes =>
    obtain ⟨start, rfl⟩ := exists_of_closeInlineMath? closes
    exact ⟨'$' :: start, '$', rfl, .inl rfl⟩
  | @inlineCode text body rest closes =>
    obtain ⟨⟨start, rfl⟩, hrest⟩ := exists_of_closeInlineCode? closes
    exact ⟨_, '\x60', (List.append_assoc ..).symm, .inr (.inr ⟨rfl, hrest⟩)⟩
  | @verbatim text body rest closes =>
    exact ⟨verbatimOpening ++ (body ++ verbatimClosing.dropLast), '>',
      by simp [Literal.text, verbatimClosing], .inr (.inl rfl)⟩

end Literal

/-! ## Scanned pieces -/

namespace Piece

/-- Pieces as a scan leaves them. `lineStart` says whether a line starts where they do. -/
inductive Scanned : Bool → List Piece → Prop
  | nil {lineStart : Bool} : Scanned lineStart []
  /-- A letter that was visited begins no literal. -/
  | visited {lineStart : Bool} {c : Char} {rest : List Piece}
      (unfenced : lineStart = true → (Literal.readFence? (c :: sources rest)).2 = .absent)
      (plain : Literal.readLiteral? (c :: sources rest) = .absent) (visible : c ≠ '\\')
      (scanned : Scanned (c == '\n') rest) : Scanned lineStart (letter c :: rest)
  /-- A backslash hides the letter after it. -/
  | hidden {lineStart : Bool} {c : Char} {rest : List Piece} (scanned : Scanned (c == '\n') rest) :
      Scanned lineStart (letter '\\' :: letter c :: rest)
  /-- A backslash at the end hides nothing. -/
  | trailing {lineStart : Bool} : Scanned lineStart [letter '\\']
  /-- The indent of a fence is not part of it. Other literals have no indent. -/
  | taken {lineStart : Bool} {indent : Text} {l : Literal} {rest : List Piece}
      (blank : ∀ c ∈ indent, Text.isIndent c = true) (closed : Literal.Closed l.text (sources rest))
      (scanned : Scanned false rest) :
      Scanned lineStart (indent.map letter ++ literal l :: rest)

/-- A scan that succeeds adds scanned pieces, which cover the text, to those that were read before. -/
theorem scanned_of_scan {lineStart : Bool} {done pieces : List Piece} {text : Text}
    (h : scan lineStart done text = .ok pieces) :
    ∃ rest, pieces = done.reverse ++ rest ∧ sources rest = text ∧ Scanned lineStart rest := by
  fun_induction scan lineStart done text with
  | case1 lineStart done =>
    obtain rfl := Except.ok.inj h
    exact ⟨[], (List.append_nil _).symm, rfl, .nil⟩
  | case2 lineStart done first rest indent block after hfence ih =>
    obtain ⟨others, rfl, rfl, scanned⟩ := ih h
    have hread : Literal.readFence? (first :: rest) = (indent, .found block (sources others)) := by
      split at hfence
      · exact hfence
      · simp at hfence
    obtain ⟨closed, blank⟩ := Literal.closed_of_readFence? hread
    refine ⟨indent.map letter ++ literal block :: others, ?_, ?_, .taken blank closed scanned⟩
    · simp
    · rw [← Literal.append_of_readFence? hread]
      simp [source]
  | case3 => simp at h
  | case4 lineStart done first rest indent hfence block after hread ih =>
    obtain ⟨others, rfl, rfl, scanned⟩ := ih h
    have blank : ∀ c ∈ ([] : Text), Text.isIndent c = true := fun _ h => absurd h List.not_mem_nil
    refine ⟨literal block :: others, ?_, ?_,
      .taken blank (Literal.closed_of_readLiteral? hread) scanned⟩
    · simp
    · exact Literal.append_of_readLiteral? hread
  | case5 => simp at h
  | case6 lineStart done first indent hbackslash hfence hread =>
    obtain rfl := Except.ok.inj h
    obtain rfl := beq_iff_eq.mp hbackslash
    exact ⟨[letter '\\'], List.reverse_cons, rfl, .trailing⟩
  | case7 lineStart done first indent hbackslash hidden after hfence hread ih =>
    obtain ⟨others, rfl, rfl, scanned⟩ := ih h
    obtain rfl := beq_iff_eq.mp hbackslash
    refine ⟨letter '\\' :: letter hidden :: others, ?_, rfl, .hidden scanned⟩
    simp
  | case8 lineStart done first rest indent hfence hread hplain ih =>
    obtain ⟨others, rfl, rfl, scanned⟩ := ih h
    refine ⟨letter first :: others, ?_, rfl, .visited ?_ hread ?_ scanned⟩
    · simp
    · rintro rfl
      exact congrArg Prod.snd hfence
    · rintro rfl
      exact hplain rfl

end Piece
end Courseware
