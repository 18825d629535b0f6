import Courseware.Proofs.Source.Position
import Courseware.Proofs.Source.Scanned

/-!
# The scrubbed text holds no literal

The scrubbed text can be scanned like any other. Its letters are those that were visited in the document
and began no literal there, or that were hidden behind a backslash; and a placeholder has no part in a
delimiter. So a scan of the scrubbed text goes along with the scan of the document and stops nowhere,
which is `Piece.Scanned.scan_scrub`. The one thing that needs care is a fence: it may begin at the start of
a line only, but its run of markers is looked for behind the indent. A run of tildes there would have been
a fence in the document, and a run of backticks is never left over, at a fence or elsewhere.
-/

namespace Courseware

namespace Sentinels

theorem Reserved.opening_notMem {sentinels : Sentinels} (reserved : sentinels.Reserved) {text : Text}
    (outside : ∀ letter ∈ text, isOutside letter = true) : sentinels.opening ∉ text :=
  fun h => (reserved.ne_of_isOutside (outside _ h)).1 rfl

end Sentinels

namespace Piece

variable {sentinels : Sentinels} {lineStart : Bool} {pieces : List Piece}

theorem isIndent_of_mem_map_letter {indent : Text} (blank : ∀ c ∈ indent, Text.isIndent c = true)
    {c : Char} (h : letter c ∈ indent.map letter) : Text.isIndent c = true := by
  obtain ⟨other, hother, heq⟩ := List.mem_map.mp h
  obtain rfl := letter.inj heq
  exact blank _ hother

/-- A backtick is left as a letter only behind a backslash. -/
theorem Scanned.exists_of_tick (scanned : Scanned lineStart pieces) {before after : List Piece}
    (h : pieces = before ++ letter '\x60' :: after) :
    ∃ start, before = start ++ [letter '\\'] := by
  induction scanned generalizing before with
  | nil => simp at h
  | visited unfenced plain visible scanned ih =>
    cases before with
    | nil =>
      obtain ⟨hc, _⟩ := List.cons.inj h
      obtain rfl := letter.inj hc
      exact absurd rfl (Literal.readLiteral?_eq_absent_iff.mp plain).2.1
    | cons first others =>
      obtain ⟨rfl, htail⟩ := List.cons.inj h
      obtain ⟨start, rfl⟩ := ih htail
      exact ⟨_ :: start, rfl⟩
  | hidden scanned ih =>
    cases before with
    | nil => simp at h
    | cons first others =>
      obtain ⟨rfl, htail⟩ := List.cons.inj h
      cases others with
      | nil => exact ⟨[], rfl⟩
      | cons second others =>
        obtain ⟨rfl, hothers⟩ := List.cons.inj htail
        obtain ⟨start, rfl⟩ := ih hothers
        exact ⟨letter '\\' :: _ :: start, rfl⟩
  | trailing =>
    cases before with
    | nil => simp at h
    | cons first others => simp at h
  | @taken lineStart indent l rest blank closed scanned ih =>
    rcases List.append_eq_append_iff.mp h with ⟨tail, rfl, hrest⟩ | ⟨tail, hindent, hrest⟩
    · cases tail with
      | nil => simp at hrest
      | cons first others =>
        obtain ⟨rfl, htail⟩ := List.cons.inj hrest
        obtain ⟨start, rfl⟩ := ih htail
        exact ⟨indent.map letter ++ literal l :: start, by simp⟩
    · cases tail with
      | nil => simp at hrest
      | cons first others =>
        obtain ⟨rfl, _⟩ := List.cons.inj hrest
        have hmem : letter '\x60' ∈ indent.map letter := by
          rw [hindent]
          exact List.mem_append_right _ List.mem_cons_self
        exact absurd (isIndent_of_mem_map_letter blank hmem) (by decide)

/-- What the scrubbed text begins with, the document begins with too, up to the first sentinel. -/
theorem prefix_sources_of_prefix_scrub {next : Nat} {mark : Text}
    (hopening : sentinels.opening ∉ mark) (h : mark <+: scrub sentinels next pieces) :
    mark <+: sources pieces := by
  obtain ⟨after, hafter⟩ := h
  obtain ⟨rest, rfl⟩ := exists_letters_of_scrub hafter.symm hopening
  rw [sources_append, sources_map_letter]
  exact List.prefix_append _ _

/-- Where no literal begins in the document, none begins in the scrubbed text. -/
theorem readLiteral?_scrub (reserved : sentinels.Reserved) {next : Nat} {c : Char}
    (plain : Literal.readLiteral? (c :: sources pieces) = .absent) :
    Literal.readLiteral? (c :: scrub sentinels next pieces) = .absent := by
  obtain ⟨hdollar, htick, hverbatim⟩ := Literal.readLiteral?_eq_absent_iff.mp plain
  refine Literal.readLiteral?_eq_absent_iff.mpr ⟨hdollar, htick, fun h => hverbatim ?_⟩
  have hopening : sentinels.opening ∉ Literal.verbatimOpening :=
    reserved.opening_notMem (List.all_eq_true.mp rfl)
  exact @prefix_sources_of_prefix_scrub sentinels (letter c :: pieces) next _ hopening h

/-- Where no fence begins in the document, none begins in the scrubbed text. -/
theorem Scanned.readFence?_scrub {c : Char} (scanned : Scanned lineStart (letter c :: pieces))
    (reserved : sentinels.Reserved) {next : Nat}
    (unfenced : (Literal.readFence? (c :: sources pieces)).2 = .absent) :
    (Literal.readFence? (c :: scrub sentinels next pieces)).2 = .absent := by
  by_contra hfence
  obtain ⟨indent, marker, rest, hsplit, blank, hmarker⟩ :=
    Literal.exists_of_readFence?_ne_absent hfence
  have hopening : sentinels.opening ∉ indent ++ List.replicate 3 marker := by
    apply reserved.opening_notMem
    rw [List.forall_mem_append]
    refine ⟨fun letter hletter => Sentinels.Intact.isOutside_of_isIndent (blank letter hletter), ?_⟩
    intro letter hletter
    rw [List.eq_of_mem_replicate hletter]
    rcases hmarker with rfl | rfl <;> decide
  have hscrub : scrub sentinels next (letter c :: pieces) =
      (indent ++ List.replicate 3 marker) ++ rest := by
    rw [List.append_assoc]
    exact hsplit
  obtain ⟨others, hletters⟩ := exists_letters_of_scrub hscrub hopening
  rcases hmarker with rfl | rfl
  · rw [List.map_append, List.append_assoc] at hletters
    obtain ⟨start, hstart⟩ := scanned.exists_of_tick hletters
    have hmem : letter '\\' ∈ indent.map letter := by
      rw [hstart]
      exact List.mem_append_right _ (List.mem_singleton_self _)
    exact absurd (isIndent_of_mem_map_letter blank hmem) (by decide)
  · have hsource : c :: sources pieces =
        indent ++ (List.replicate 3 '~' ++ sources others) := by
      have h := congrArg sources hletters
      rwa [sources_append, sources_map_letter, List.append_assoc] at h
    rw [hsource, Literal.readFence?_indent blank] at unfenced
    exact Literal.readFence?_tildes _ unfenced

/-! ## Scanning the scrubbed text -/

theorem readFence?_backslash (rest : Text) : (Literal.readFence? ('\\' :: rest)).2 = .absent :=
  @Literal.readFence?_of_first '\\' rfl (by decide) (by decide) rest

/-- The character after a backslash is a piece of its own, whatever it is. -/
theorem scan_hidden {lineStart : Bool} {done : List Piece} (c : Char) (rest : Text) :
    scan lineStart done ('\\' :: c :: rest) =
      scan (c == '\n') (letter c :: letter '\\' :: done) rest := by
  have hfence := @unfenced_of_absent lineStart _ fun _ => readFence?_backslash (c :: rest)
  have hread : Literal.readLiteral? ('\\' :: c :: rest) = .absent := rfl
  rw [scan]
  split
  · next hfound => simp [hfound] at hfence
  · next hfound => simp [hfound] at hfence
  · split
    · next hfound => simp [hfound] at hread
    · next hfound => simp [hfound] at hread
    · rfl

/-- A backslash at the end of a text is a piece of its own. -/
theorem scan_trailing (lineStart : Bool) (done : List Piece) :
    scan lineStart done ['\\'] = .ok (done.reverse ++ [letter '\\']) := by
  have hfence := @unfenced_of_absent lineStart _ fun _ => readFence?_backslash []
  have hread : Literal.readLiteral? ['\\'] = .absent := rfl
  rw [scan]
  split
  · next hfound => simp [hfound] at hfence
  · next hfound => simp [hfound] at hfence
  · split
    · next hfound => simp [hfound] at hread
    · next hfound => simp [hfound] at hread
    · exact congrArg Except.ok List.reverse_cons

/-- A placeholder holds no delimiter and no line feed. -/
theorem isDelimiter_of_mem_placeholder (reserved : sentinels.Reserved) {number : Nat} {c : Char}
    (h : c ∈ sentinels.placeholder number) : Literal.isDelimiter c = false ∧ c ≠ '\n' := by
  constructor
  · by_contra hdelimiter
    rw [Bool.not_eq_false] at hdelimiter
    apply reserved.notMem_placeholder ?_ number h
    simp only [Literal.isDelimiter, Bool.or_eq_true, beq_iff_eq] at hdelimiter
    rcases hdelimiter with (((rfl | rfl) | rfl) | rfl) | rfl <;> decide
  · rintro rfl
    exact reserved.notMem_placeholder (by decide) number h

/-- Text without delimiters on a line without fence is scanned as its characters, whatever follows. -/
theorem scan_unfenced {done : List Piece} {text rest : Text} (full : text ≠ [])
    (plain : ∀ c ∈ text, Literal.isDelimiter c = false ∧ c ≠ '\n')
    (unfenced : (Literal.readFence? (text ++ rest)).2 = .absent) :
    scan lineStart done (text ++ rest) = scan false ((text.map letter).reverse ++ done) rest := by
  cases text with
  | nil => exact absurd rfl full
  | cons first others =>
    obtain ⟨⟨hfirst, hline⟩, hothers⟩ := List.forall_mem_cons.mp plain
    rw [List.cons_append] at unfenced ⊢
    have hfence := @unfenced_of_absent lineStart _ fun _ => unfenced
    have hvisible : first ≠ '\\' := by
      rintro rfl
      exact absurd hfirst (by decide)
    rw [scan_letter _ (Prod.ext rfl hfence)
      (Literal.readLiteral?_of_isDelimiter hfirst) hvisible, beq_false_of_ne hline,
      scan_letters hothers, List.map_cons, List.reverse_cons, List.append_assoc,
      List.singleton_append]

/-- A placeholder and the indent before it are scanned as their characters. -/
theorem scan_placeholder (reserved : sentinels.Reserved) {done : List Piece} {indent : Text}
    (blank : ∀ c ∈ indent, Text.isIndent c = true) (number : Nat) (rest : Text) :
    scan lineStart done (indent ++ sentinels.placeholder number ++ rest) =
      scan false (((indent ++ sentinels.placeholder number).map letter).reverse ++ done) rest := by
  apply scan_unfenced
  · simp [Sentinels.placeholder]
  · rw [List.forall_mem_append]
    refine ⟨fun c hc => ?_, fun c hc => isDelimiter_of_mem_placeholder reserved hc⟩
    rcases Text.isIndent_iff.mp (blank c hc) with rfl | rfl <;> decide
  · have hne : ∀ c, Sentinels.isOutside c = true → sentinels.opening ≠ c :=
      fun c hc => (reserved.ne_of_isOutside hc).1.symm
    rw [List.append_assoc, Literal.readFence?_indent blank]
    apply Literal.readFence?_of_first _ (hne _ (by decide)) (hne _ (by decide))
    simp [Text.isIndent, hne ' ' (by decide), hne '\t' (by decide)]

/-- A scan of the scrubbed text finds nothing but letters. -/
theorem Scanned.scan_scrub (scanned : Scanned lineStart pieces) (reserved : sentinels.Reserved)
    (next : Nat) (done : List Piece) :
    scan lineStart done (scrub sentinels next pieces) =
      .ok (done.reverse ++ (scrub sentinels next pieces).map letter) := by
  induction scanned generalizing next done with
  | nil => rw [scrub, scan, List.map_nil, List.append_nil]
  | @visited lineStart c rest unfenced plain visible scanned ih =>
    have hfence := @unfenced_of_absent lineStart (c :: scrub sentinels next rest) fun start =>
      (Scanned.visited unfenced plain visible scanned).readFence?_scrub reserved (unfenced start)
    rw [scrub, scan_letter _ (Prod.ext rfl hfence) (readLiteral?_scrub reserved plain) visible, ih]
    simp
  | hidden scanned ih =>
    rw [scrub, scrub, scan_hidden, ih]
    simp
  | trailing =>
    rw [scrub, scrub, scan_trailing]
    rfl
  | @taken lineStart indent l rest blank closed scanned ih =>
    have hscrub : scrub sentinels next (indent.map letter ++ literal l :: rest) =
        indent ++ sentinels.placeholder next ++ scrub sentinels (next + 1) rest := by
      rw [scrub_map_letter_append, scrub, List.append_assoc]
    rw [hscrub, scan_placeholder reserved blank, ih]
    simp

end Piece
end Courseware
