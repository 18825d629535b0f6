import Courseware.Proofs.Markup.LongestMatch
import Courseware.Proofs.Markup.Restoring
import Courseware.Proofs.Markup.Signs
import Courseware.Proofs.Source.Visible

/-!
# The signs of open directives

While a document is read, the signs of each open directive can be written down beside it, on a sheet that also
says which lexemes have opened its groups. A nested note leaves its signs where it leaves its text; so a
bracket in it is a sign that opens or closes, even though nothing of this can be seen in the text any more.

A sheet has no influence on what is read. `Sheet.Follows` says what it tells of its directive: the signs look
like the content, restored, apart from blanks, and the groups that are open behind them are those that the
reader keeps. `Reader.signed` lists the directives that are closed with their signs.
-/

namespace Courseware

/-! ## Lexemes that open groups -/

theorem Token.groups?_of_closes? {token : Token} {enclosure : Enclosure}
    (closing : token.closes? = some enclosure) : token.groups? = none := by
  cases token <;> first | rfl | exact nomatch closing

theorem Token.groups?_of_isPlain {token : Token} (plain : token.isPlain = true) : token.groups? = none := by
  cases token <;> first | rfl | exact nomatch plain

/-- A token that opens a group is one bracket or brace. -/
theorem Token.Matches.eq_of_groups? {token : Token} {part : Text} {enclosure : Enclosure}
    (h : Matches token part) (groups : token.groups? = some enclosure) : part = [enclosure.opening] := by
  cases h <;> cases groups <;> rfl

/-- A token that closes something is one bracket or brace. -/
theorem Token.Matches.eq_of_closes? {token : Token} {part : Text} {enclosure : Enclosure}
    (h : Matches token part) (closes : token.closes? = some enclosure) : part = [enclosure.closing] := by
  cases h <;> cases closes <;> rfl

namespace Lexeme

/-- What is known of a lexeme that is read from scrubbed text. -/
structure Fits (extraction : Extraction) (lexeme : Lexeme) : Prop where
  intact : extraction.sentinels.Intact extraction.literals.length lexeme.text
  spelled : Token.Matches lexeme.token lexeme.text

theorem matches_of_mem_scan {start : Nat} {text : Text} {lexeme : Lexeme} (h : lexeme ∈ scan start text) :
    Token.Matches lexeme.token lexeme.text := by
  fun_induction scan start text with
  | case1 => exact absurd h List.not_mem_nil
  | case2 start first rest reading ih =>
    rcases List.mem_cons.mp h with rfl | hrest
    · exact Token.matches_read first rest
    · exact ih hrest

theorem fits_of_mem_tokenize {source : Text} {extraction : Extraction}
    (extracted : Extraction.ofSource source = .ok extraction) {lexeme : Lexeme}
    (h : lexeme ∈ tokenize extraction.scrubbed) : lexeme.Fits extraction where
  intact := intact_of_mem_scan (Extraction.reserved_of_ofSource extracted)
    (Extraction.wellFormed_of_ofSource extracted).intact_scrubbed h
  spelled := matches_of_mem_scan h

theorem Adjoin.le_start {start : Nat} {lexemes : List Lexeme} (adjoin : Adjoin start lexemes)
    {lexeme : Lexeme} (h : lexeme ∈ lexemes) : start ≤ lexeme.start := by
  obtain ⟨before, after, rfl⟩ := List.append_of_mem h
  obtain ⟨_, hstart, _⟩ := adjoin_append_iff.mp adjoin
  rw [hstart]
  exact Nat.le_add_right _ _

/-- No two lexemes of a text are the same, since they start at different offsets. -/
theorem Adjoin.nodup {start : Nat} {lexemes : List Lexeme} (adjoin : Adjoin start lexemes) :
    lexemes.Nodup := by
  induction lexemes generalizing start with
  | nil => exact List.nodup_nil
  | cons lexeme rest ih =>
    obtain ⟨hstart, hfull, hrest⟩ := adjoin
    refine List.nodup_cons.mpr ⟨fun hmem => ?_, ih hrest⟩
    exact absurd (hrest.le_start hmem) (Nat.not_le.mpr (start_lt_stop hfull))

end Lexeme

/-! ## Sheets -/

/-- What is written down of an open directive: the signs of its content, and the lexemes that have opened the
groups that are open, innermost first. -/
structure Sheet where
  signs : List Sign
  openers : List Lexeme
deriving DecidableEq, Repr

/-- The signs of a text in which nothing opens or closes a group or is escaped. -/
def Sign.ofText (text : Text) : List Sign := (Text.visible text).map .plain

/-- The signs of a lexeme that opens and closes nothing. An escape hides what stands behind its backslash. -/
def Lexeme.plainSigns (extraction : Extraction) (lexeme : Lexeme) : List Sign :=
  match lexeme.token, lexeme.text with
  | .escaped, [_, letter] => [.escape, .escaped letter lexeme]
  | _, text => Sign.ofText (extraction.restore text)

namespace Sheet

/-- Nothing has been written down. -/
def empty : Sheet := ⟨[], []⟩

/-- Write signs down as far as they go into the content. -/
def add (sheet : Sheet) (frame : OpenDirective) (signs : List Sign) : Sheet :=
  match frame.slot with
  | none => { sheet with signs := sheet.signs ++ signs }
  | some _ => sheet

/-- Write down a lexeme that the innermost directive takes up. One that closes something when no group is open
closes a slot. -/
def read (extraction : Extraction) (sheet : Sheet) (frame : OpenDirective) (lexeme : Lexeme) : Sheet :=
  match lexeme.token.groups?, lexeme.token.closes?, sheet.openers with
  | some enclosure, _, openers =>
    { sheet.add frame [.opens enclosure lexeme] with openers := lexeme :: openers }
  | none, some enclosure, opener :: openers =>
    { sheet.add frame [.closes enclosure lexeme opener] with openers := openers }
  | none, some _, [] => sheet
  | none, none, _ => sheet.add frame (lexeme.plainSigns extraction)

/-- The lexemes of the signs on sheets, outermost first. -/
def trail (sheets : List Sheet) : List Lexeme :=
  sheets.reverse.flatMap fun sheet => sheet.signs.filterMap Sign.lexeme?

end Sheet

/-- The sheets of the open directives behind a lexeme, innermost first. -/
def Reader.follow (scope : ReaderScope) (reader : Reader) (lexeme : Lexeme) (sheets : List Sheet) :
    List Sheet :=
  match reader.frames, sheets with
  | frame :: outer, sheet :: others =>
    if lexeme.token.names?.isSome then
      if frame.opensSlot lexeme.name then sheet :: others else .empty :: sheet :: others
    else if (reader.closing? lexeme).isSome then
      match outer, others with
      | parent :: _, around :: more =>
        if frame.descriptor.kind = .note then around.add parent sheet.signs :: more else around :: more
      | _, _ => []
    else
      sheet.read scope.extraction frame lexeme :: others
  | _, _ => if lexeme.token.names?.isSome then [.empty] else []

/-- The directives that are closed while lexemes are read, with the signs of their contents. -/
def Reader.signed (scope : ReaderScope) (reader : Reader) (sheets : List Sheet) :
    List Lexeme → List (Closing × List Sign)
  | [] => []
  | lexeme :: rest =>
    match read scope reader lexeme with
    | .error _ => []
    | .ok next =>
      (reader.closing? lexeme).toList.map (fun closing => (closing, (sheets.headD .empty).signs)) ++
        signed scope next (reader.follow scope lexeme sheets) rest

theorem Reader.map_fst_signed (scope : ReaderScope) (reader : Reader) (sheets : List Sheet)
    (lexemes : List Lexeme) :
    (reader.signed scope sheets lexemes).map Prod.fst = closings scope reader lexemes := by
  induction lexemes generalizing reader sheets with
  | nil => rfl
  | cons lexeme rest ih =>
    rw [signed, closings]
    cases read scope reader lexeme with
    | error fault => rfl
    | ok next =>
      dsimp only
      rw [List.map_append, ih, List.map_map]
      congr 1
      exact List.map_id _

/-! ## What a sheet tells of its directive -/

/-- A sign that opens or closes a group does so by its lexeme, and one that is hidden stands in an escape. -/
def Sign.Genuine : Sign → Prop
  | .plain _ | .escape => True
  | .escaped letter lexeme => lexeme.token = .escaped ∧ lexeme.text = ['\\', letter]
  | .opens enclosure lexeme => lexeme.token.groups? = some enclosure
  | .closes enclosure lexeme _ => lexeme.token.closes? = some enclosure

theorem Fragment.join_cons (fragment : Fragment) (fragments : List Fragment) :
    join (fragment :: fragments) = join fragments ++ fragment.text := by
  rw [join, List.reverse_cons, List.flatMap_append, List.flatMap_singleton, join]

/-- It does not matter whether groups are opened or closed before something is taken up or afterwards. -/
theorem OpenDirective.add_regroup (frame : OpenDirective) (groups : List Enclosure) (fragment : Fragment) :
    ({ frame with groups := groups } : OpenDirective).add fragment =
      { frame.add fragment with groups := groups } := by
  cases hslot : frame.slot <;> simp only [add, hslot]

namespace Sheet

/-- A sheet tells what has been read of an open directive: the signs look like its content, and the groups that
are open behind them are those that are open in the content. -/
structure Follows (extraction : Extraction) (sheet : Sheet) (frame : OpenDirective) : Prop where
  looks : sheet.signs.map Sign.char = Text.visible (extraction.restore (Fragment.join frame.content))
  genuine : ∀ sign ∈ sheet.signs, sign.Genuine
  coupled : Sign.Coupled sheet.signs
  openers : sheet.openers.length = frame.groups.length
  run : Sign.run Prod.mk [] sheet.signs = some
    (match frame.slot with
      | none => frame.groups.zip sheet.openers
      | some _ => [])

variable {extraction : Extraction} {sheet : Sheet} {frame : OpenDirective} {signs : List Sign}

@[simp]
theorem add_openers (sheet : Sheet) (frame : OpenDirective) (signs : List Sign) :
    (sheet.add frame signs).openers = sheet.openers := by
  cases hslot : frame.slot <;> simp only [add, hslot]

namespace Follows

theorem begin (extraction : Extraction) (descriptor : Descriptor) (start : Nat) :
    Follows extraction .empty (.begin descriptor start) where
  looks := congrArg Text.visible extraction.restore_nil.symm
  genuine := nofun
  coupled := rfl
  openers := rfl
  run := rfl

/-- What is taken up by a directive is written down beside it. -/
theorem add (follows : sheet.Follows extraction frame) (hwell : extraction.WellFormed)
    (intact : frame.Intact extraction) {fragment : Fragment} {groups : List Enclosure}
    {openers : List Lexeme} (looks : signs.map Sign.char = Text.visible (extraction.restore fragment.text))
    (genuine : ∀ sign ∈ signs, sign.Genuine) (coupled : Sign.Coupled signs)
    (length : openers.length = groups.length)
    (run : Sign.run Prod.mk (frame.groups.zip sheet.openers) signs = some (groups.zip openers)) :
    Follows extraction { sheet.add frame signs with openers := openers }
      { frame.add fragment with groups := groups } := by
  have hrun := follows.run
  cases hslot : frame.slot with
  | none =>
    rw [hslot] at hrun
    simp only [Sheet.add, OpenDirective.add, hslot]
    refine ⟨?_, List.forall_mem_append.mpr ⟨follows.genuine, genuine⟩, follows.coupled.append coupled,
      length, ?_⟩
    · rw [List.map_append, follows.looks, looks, Fragment.join_cons, hwell.restore_append intact.content.join,
        Text.visible_append]
    · rw [Sign.run_append, hrun]
      exact run
  | some slot =>
    rw [hslot] at hrun
    simp only [Sheet.add, OpenDirective.add, hslot]
    exact ⟨follows.looks, follows.genuine, follows.coupled, length, hrun⟩

/-- Taking up something leaves the groups as they are, where it is balanced. -/
theorem add_balanced (follows : sheet.Follows extraction frame) (hwell : extraction.WellFormed)
    (intact : frame.Intact extraction) {fragment : Fragment}
    (looks : signs.map Sign.char = Text.visible (extraction.restore fragment.text))
    (genuine : ∀ sign ∈ signs, sign.Genuine) (coupled : Sign.Coupled signs)
    (run : Sign.run Prod.mk [] signs = some []) : (sheet.add frame signs).Follows extraction (frame.add fragment) := by
  have hadded : Follows extraction { sheet.add frame signs with openers := sheet.openers }
      { frame.add fragment with groups := frame.groups } :=
    follows.add hwell intact looks genuine coupled follows.openers (Sign.run_append_right run _)
  rw [← add_openers sheet frame signs, ← OpenDirective.add_groups frame fragment] at hadded
  exact hadded

end Follows

/-! ### Writing lexemes down -/

theorem map_char_ofText (text : Text) : (Sign.ofText text).map Sign.char = Text.visible text := by
  rw [Sign.ofText, List.map_map]
  exact List.map_id _

theorem genuine_ofText (text : Text) : ∀ sign ∈ Sign.ofText text, sign.Genuine := by
  intro sign hsign
  obtain ⟨letter, _, rfl⟩ := List.mem_map.mp hsign
  trivial

theorem filterMap_lexeme?_ofText (text : Text) : (Sign.ofText text).filterMap Sign.lexeme? = [] := by
  rw [List.filterMap_eq_nil_iff]
  intro sign hsign
  obtain ⟨letter, _, rfl⟩ := List.mem_map.mp hsign
  rfl

theorem run_ofText (groups : List (Enclosure × Lexeme)) (text : Text) :
    Sign.run Prod.mk groups (Sign.ofText text) = some groups := by
  rw [Sign.ofText]
  induction Text.visible text with
  | nil => rfl
  | cons letter rest ih => exact ih

theorem coupled_ofText (text : Text) : Sign.Coupled (Sign.ofText text) := by
  rw [Sign.ofText]
  induction Text.visible text with
  | nil => rfl
  | cons letter rest ih => exact ih

theorem filterMap_lexeme?_plainSigns_sublist (extraction : Extraction) (lexeme : Lexeme) :
    ((lexeme.plainSigns extraction).filterMap Sign.lexeme?).Sublist [lexeme] := by
  unfold Lexeme.plainSigns
  split
  · exact .refl _
  · rw [filterMap_lexeme?_ofText]
    exact List.nil_sublist _

theorem run_plainSigns (extraction : Extraction) (lexeme : Lexeme) (groups : List (Enclosure × Lexeme)) :
    Sign.run Prod.mk groups (lexeme.plainSigns extraction) = some groups := by
  unfold Lexeme.plainSigns
  split
  · rfl
  · exact run_ofText _ _

theorem coupled_plainSigns (extraction : Extraction) (lexeme : Lexeme) :
    Sign.Coupled (lexeme.plainSigns extraction) := by
  unfold Lexeme.plainSigns
  split
  · rfl
  · exact coupled_ofText _

variable {lexeme opener : Lexeme} {openers : List Lexeme} {enclosure : Enclosure}

theorem read_of_groups? (grouped : lexeme.token.groups? = some enclosure) :
    sheet.read extraction frame lexeme =
      { sheet.add frame [.opens enclosure lexeme] with openers := lexeme :: sheet.openers } := by
  rw [read, grouped]

theorem read_of_closes? (closing : lexeme.token.closes? = some enclosure)
    (inside : sheet.openers = opener :: openers) :
    sheet.read extraction frame lexeme =
      { sheet.add frame [.closes enclosure lexeme opener] with openers := openers } := by
  rw [read, Token.groups?_of_closes? closing, closing, inside]

theorem read_of_closes?_of_nil (closing : lexeme.token.closes? = some enclosure)
    (ungrouped : sheet.openers = []) : sheet.read extraction frame lexeme = sheet := by
  rw [read, Token.groups?_of_closes? closing, closing, ungrouped]

theorem read_of_isPlain (plain : lexeme.token.isPlain = true) :
    sheet.read extraction frame lexeme = sheet.add frame (lexeme.plainSigns extraction) := by
  rw [read, Token.groups?_of_isPlain plain, Token.closes?_of_isPlain plain]

/-- Letters that no placeholder has, and that are not blank, are restored to themselves. -/
theorem visible_restore_eq_self (reserved : extraction.sentinels.Reserved) {text : Text}
    (outside : ∀ letter ∈ text, Sentinels.isOutside letter = true ∧ Text.isBlank letter = false) :
    Text.visible (extraction.restore text) = text := by
  have hopening : extraction.sentinels.opening ∉ text := fun hmem =>
    (reserved.ne_of_isOutside (outside _ hmem).1).1 rfl
  rw [Extraction.restore_of_notMem hopening, Text.visible, List.filter_eq_self]
  intro letter hletter
  rw [(outside letter hletter).2]
  rfl

/-- Delimiters belong to no placeholder. -/
theorem outside_of_isDelimiter {letter : Char} (h : Token.isDelimiter letter = true) :
    Sentinels.isOutside letter = true ∧ Text.isBlank letter = false := by
  simp only [Token.isDelimiter, Bool.or_eq_true, beq_iff_eq] at h
  rcases h with ((((rfl | rfl) | rfl) | rfl) | rfl) | rfl <;> decide

theorem looks_plainSigns (reserved : extraction.sentinels.Reserved) (fits : lexeme.Fits extraction) :
    (lexeme.plainSigns extraction).map Sign.char = Text.visible (extraction.restore lexeme.text) := by
  have hspelled := fits.spelled
  unfold Lexeme.plainSigns
  split
  · next backslash letter htoken htext =>
    rw [htoken, htext] at hspelled
    cases hspelled with
    | escaped delimiter =>
      rw [htext, visible_restore_eq_self reserved]
      · rfl
      · rw [List.forall_mem_cons, List.forall_mem_singleton]
        exact ⟨by decide, outside_of_isDelimiter delimiter⟩
  · exact map_char_ofText _

theorem genuine_plainSigns (fits : lexeme.Fits extraction) :
    ∀ sign ∈ lexeme.plainSigns extraction, sign.Genuine := by
  have hspelled := fits.spelled
  unfold Lexeme.plainSigns
  split
  · next backslash letter htoken htext =>
    rw [htoken, htext] at hspelled
    cases hspelled with
    | escaped delimiter =>
      rw [List.forall_mem_cons, List.forall_mem_singleton]
      exact ⟨trivial, htoken, htext⟩
  · exact genuine_ofText _

namespace Follows

section
variable (follows : sheet.Follows extraction frame) (hwell : extraction.WellFormed)
  (intact : frame.Intact extraction)
include follows hwell intact

variable (reserved : extraction.sentinels.Reserved) (fits : lexeme.Fits extraction)
include reserved fits

theorem read_plain (plain : lexeme.token.isPlain = true) :
    (sheet.read extraction frame lexeme).Follows extraction
      (frame.add (.source lexeme.start lexeme.text)) := by
  rw [read_of_isPlain plain]
  exact follows.add_balanced hwell intact (looks_plainSigns reserved fits) (genuine_plainSigns fits)
    (coupled_plainSigns _ _) (run_plainSigns _ _ _)

theorem read_group (grouped : lexeme.token.groups? = some enclosure) :
    (sheet.read extraction frame lexeme).Follows extraction
      { frame.add (.source lexeme.start lexeme.text) with groups := enclosure :: frame.groups } := by
  rw [read_of_groups? grouped]
  refine follows.add hwell intact ?_ (List.forall_mem_singleton.mpr grouped) rfl ?_ rfl
  · rw [Fragment.text, fits.spelled.eq_of_groups? grouped, visible_restore_eq_self reserved]
    · rfl
    · rw [List.forall_mem_singleton]
      cases enclosure <;> decide
  · rw [List.length_cons, List.length_cons, follows.openers]

theorem read_closeGroup {groups : List Enclosure} (closing : lexeme.token.closes? = some enclosure)
    (grouped : frame.groups = enclosure :: groups) :
    (sheet.read extraction frame lexeme).Follows extraction
      { frame.add (.source lexeme.start lexeme.text) with groups := groups } := by
  have hlength := follows.openers
  rw [grouped] at hlength
  obtain ⟨opener, openers, hopeners⟩ := List.exists_cons_of_length_eq_add_one hlength
  rw [hopeners, List.length_cons, List.length_cons, Nat.add_right_cancel_iff] at hlength
  rw [read_of_closes? closing hopeners]
  refine follows.add hwell intact ?_ (List.forall_mem_singleton.mpr closing) rfl hlength ?_
  · rw [Fragment.text, fits.spelled.eq_of_closes? closing, visible_restore_eq_self reserved]
    · rfl
    · rw [List.forall_mem_singleton]
      cases enclosure <;> decide
  · rw [grouped, hopeners, List.zip_cons_cons, Sign.run, if_pos rfl]
    rfl

end

/-- A slot that is opened or closed leaves the sheet alone. -/
theorem reslot (follows : sheet.Follows extraction frame) (ungrouped : frame.groups = [])
    (filled : List (String × Text)) (slot : Option OpenSlot) :
    sheet.Follows extraction { frame with filled := filled, slot := slot } := by
  have hrun := follows.run
  refine ⟨follows.looks, follows.genuine, follows.coupled, follows.openers, hrun.trans (congrArg some ?_)⟩
  rw [ungrouped, List.zip_nil_left]
  cases frame.slot <;> cases slot <;> rfl

/-- The signs of a directive in which nothing is open are balanced. -/
theorem run_of_closed (follows : sheet.Follows extraction frame) (ungrouped : frame.groups = []) :
    Sign.run Prod.mk [] sheet.signs = some [] := by
  have hrun := follows.run
  rw [ungrouped, List.zip_nil_left] at hrun
  cases hslot : frame.slot <;> rwa [hslot] at hrun

end Follows

/-! ### Trails -/

theorem trail_cons (sheet : Sheet) (others : List Sheet) :
    trail (sheet :: others) = trail others ++ sheet.signs.filterMap Sign.lexeme? := by
  rw [trail, List.reverse_cons, List.flatMap_append, List.flatMap_singleton, trail]

theorem trail_empty_cons (others : List Sheet) : trail (.empty :: others) = trail others := by
  rw [trail_cons]
  exact List.append_nil _

/-- What is written down is added to the trail, if at all. -/
theorem trail_add_sublist (sheet : Sheet) (frame : OpenDirective) (signs : List Sign)
    (openers : List Lexeme) (others : List Sheet) :
    (trail ({ sheet.add frame signs with openers := openers } :: others)).Sublist
      (trail (sheet :: others) ++ signs.filterMap Sign.lexeme?) := by
  rw [trail_cons, trail_cons]
  cases hslot : frame.slot with
  | none =>
    simp only [add, hslot]
    rw [List.filterMap_append, List.append_assoc]
  | some slot =>
    simp only [add, hslot]
    exact List.sublist_append_left _ _

/-- A lexeme that is read is added to the trail, if at all. -/
theorem trail_read_sublist (extraction : Extraction) (sheet : Sheet) (frame : OpenDirective)
    (lexeme : Lexeme) (others : List Sheet) :
    (trail (sheet.read extraction frame lexeme :: others)).Sublist (trail (sheet :: others) ++ [lexeme]) := by
  unfold read
  split
  · exact trail_add_sublist sheet frame _ _ others
  · exact trail_add_sublist sheet frame _ _ others
  · exact List.sublist_append_left _ _
  · have hadd := trail_add_sublist sheet frame (lexeme.plainSigns extraction) sheet.openers others
    rw [← add_openers sheet frame] at hadd
    exact hadd.trans ((filterMap_lexeme?_plainSigns_sublist extraction lexeme).append_left _)

end Sheet

/-! ## Following a reader -/

namespace Reader

variable {scope : ReaderScope} {reader next : Reader} {lexeme : Lexeme} {frame : OpenDirective}
  {outer : List OpenDirective} {sheet : Sheet} {sheets others : List Sheet}

/-- A lexeme that is taken up, or that closes a slot, is written down beside the innermost directive. -/
theorem follow_of_inside (inside : reader.frames = frame :: outer) (unnamed : lexeme.token.names? = none)
    (open_ : reader.closing? lexeme = none) :
    reader.follow scope lexeme (sheet :: others) = sheet.read scope.extraction frame lexeme :: others := by
  simp [follow, inside, unnamed, open_]

/-- A directive that is opened begins a sheet. -/
theorem follow_of_directive {enclosure : Enclosure} (length : sheets.length = reader.frames.length)
    (named : lexeme.token.names? = some enclosure)
    (noSlot : ∀ frame ∈ reader.frames.head?, frame.opensSlot lexeme.name = false) :
    reader.follow scope lexeme sheets = .empty :: sheets := by
  cases hframes : reader.frames with
  | nil =>
    rw [hframes, List.length_nil, List.length_eq_zero_iff] at length
    simp [follow, hframes, length, named]
  | cons frame outer =>
    rw [hframes] at length
    obtain ⟨sheet, others, rfl⟩ := List.exists_cons_of_length_eq_add_one length
    have hclosed := noSlot frame (by rw [hframes]; rfl)
    simp [follow, hframes, named, hclosed]

/-- A slot that is opened leaves the sheets alone. -/
theorem follow_of_slot {enclosure : Enclosure} (inside : reader.frames = frame :: outer)
    (named : lexeme.token.names? = some enclosure) (opens : frame.opensSlot lexeme.name = true) :
    reader.follow scope lexeme (sheet :: others) = sheet :: others := by
  simp [follow, inside, named, opens]

/-- An outermost directive that is closed takes its sheet away. -/
theorem follow_of_outermost (inside : reader.frames = [frame])
    (closing : lexeme.token.closes? = some .bracket) (closed : reader.closing? lexeme = some ⟨frame, []⟩) :
    reader.follow scope lexeme (sheet :: others) = [] := by
  simp [follow, inside, Token.names?_of_closes? closing, closed]

/-- A nested note that is closed leaves its signs in the directive around it, and any other directive leaves
nothing there. -/
theorem follow_of_nested {parent : OpenDirective} {around : Sheet}
    (inside : reader.frames = frame :: parent :: outer) (closing : lexeme.token.closes? = some .bracket)
    (closed : reader.closing? lexeme = some ⟨frame, parent :: outer⟩) :
    reader.follow scope lexeme (sheet :: around :: others) =
      if frame.descriptor.kind = .note then around.add parent sheet.signs :: others else around :: others := by
  simp [follow, inside, Token.names?_of_closes? closing, closed]

/-- Sheets that tell what has been read of the open directives, from lexemes that have been read. -/
structure Followed (extraction : Extraction) (done : List Lexeme) (reader : Reader) (sheets : List Sheet) :
    Prop where
  frames : List.Forall₂ (Sheet.Follows extraction) sheets reader.frames
  trail : (Sheet.trail sheets).Sublist done

namespace Followed

variable {done : List Lexeme}

theorem initial (extraction : Extraction) : Followed extraction [] .initial [] :=
  ⟨.nil, .slnil⟩

/-- The sheet of the innermost directive. -/
theorem exists_cons {extraction : Extraction} (followed : Followed extraction done reader sheets)
    (inside : reader.frames = frame :: outer) :
    ∃ sheet others, sheets = sheet :: others ∧ sheet.Follows extraction frame ∧
      List.Forall₂ (Sheet.Follows extraction) others outer := by
  have hframes := followed.frames
  rw [inside, List.forall₂_cons_right_iff] at hframes
  obtain ⟨sheet, others, hsheet, hothers, rfl⟩ := hframes
  exact ⟨sheet, others, rfl, hsheet, hothers⟩

theorem eq_nil {extraction : Extraction} (followed : Followed extraction done reader sheets)
    (outside : reader.frames = []) : sheets = [] := by
  have hframes := followed.frames
  rwa [outside, List.forall₂_nil_right_iff] at hframes

/-- A change of the innermost directive that its sheet follows. -/
theorem reframe {extraction : Extraction} {changed : OpenDirective} {written : Sheet}
    (followed : Followed extraction done reader (sheet :: others)) (inside : reader.frames = frame :: outer)
    (follows : written.Follows extraction changed)
    (trail : (Sheet.trail (written :: others)).Sublist (Sheet.trail (sheet :: others) ++ [lexeme])) :
    Followed extraction (done ++ [lexeme]) { reader with frames := changed :: outer }
      (written :: others) := by
  have hframes := followed.frames
  rw [inside, List.forall₂_cons] at hframes
  exact ⟨.cons follows hframes.2, trail.trans (followed.trail.append_right _)⟩

/-- What a note leaves in the directive around it looks like its content. -/
theorem paste {parent : OpenDirective} {around : Sheet} {content : Text}
    (hwell : scope.extraction.WellFormed) (reserved : scope.extraction.sentinels.Reserved)
    (intact : frame.Intact scope.extraction) (whole : parent.Intact scope.extraction)
    (follows : sheet.Follows scope.extraction frame) (ungrouped : frame.groups = [])
    (surrounds : around.Follows scope.extraction parent) {seed : String}
    (note : frame.descriptor.kind = .note)
    (built : frame.node.build scope.extraction seed = .ok (.note content)) :
    (around.add parent sheet.signs).Follows scope.extraction (parent.add (.nested content)) := by
  have absent := DirectiveNode.absent_of_build hwell reserved intact.node built
  have hcontent := Sentinels.intact_zero_iff.mp (absent content (List.mem_singleton_self _))
  apply surrounds.add_balanced hwell whole _ follows.genuine follows.coupled (follows.run_of_closed ungrouped)
  have hkind : frame.node.kind = .note := note
  rw [DirectiveNode.build, hkind] at built
  obtain ⟨written, hwritten, hsame⟩ := exists_of_map_eq_ok built
  obtain rfl := Directive.note.inj hsame
  rw [Fragment.text, Extraction.restore_of_notMem hcontent.1,
    DirectiveNode.eq_markdown_of_required hwritten, Extraction.visible_markdown, follows.looks]
  rfl

/-- Every step keeps the sheets true. -/
theorem step (followed : Followed scope.extraction done reader sheets)
    (hwell : scope.extraction.WellFormed) (reserved : scope.extraction.sentinels.Reserved)
    (intact : reader.Intact scope.extraction) (fits : lexeme.Fits scope.extraction)
    (step : Step scope reader lexeme next) :
    Followed scope.extraction (done ++ [lexeme]) next (reader.follow scope lexeme sheets) := by
  cases step with
  | prose outside unnamed =>
    obtain rfl := followed.eq_nil outside
    have hfollow : reader.follow scope lexeme [] = [] := by simp [follow, outside, unnamed]
    rw [hfollow]
    refine ⟨?_, List.nil_sublist _⟩
    rw [outside]
    exact .nil
  | directive named registered allowed noSlot =>
    rw [follow_of_directive followed.frames.length_eq named noSlot]
    refine ⟨.cons (.begin _ _ _) followed.frames, ?_⟩
    rw [Sheet.trail_empty_cons]
    exact followed.trail.trans (List.sublist_append_left _ _)
  | @slot frame outer enclosure inside named opens unfilled =>
    obtain ⟨sheet, others, rfl, follows, _⟩ := followed.exists_cons inside
    rw [follow_of_slot inside named opens]
    rw [OpenDirective.opensSlot, Bool.and_eq_true, Bool.and_eq_true, List.isEmpty_iff] at opens
    exact followed.reframe inside (follows.reslot opens.1.1 frame.filled _) (List.sublist_append_left _ _)
  | @plain frame outer inside plain =>
    obtain ⟨sheet, others, rfl, follows, _⟩ := followed.exists_cons inside
    have hframe := intact.frames frame (by rw [inside]; exact List.mem_cons_self)
    rw [follow_of_inside inside (Token.names?_of_isPlain plain)
      (closing?_of_closes (Token.closes?_of_isPlain plain))]
    exact followed.reframe inside (follows.read_plain hwell hframe reserved fits plain)
      (Sheet.trail_read_sublist _ _ _ _ _)
  | @group frame outer enclosure inside grouped =>
    obtain ⟨sheet, others, rfl, follows, _⟩ := followed.exists_cons inside
    have hframe := intact.frames frame (by rw [inside]; exact List.mem_cons_self)
    rw [follow_of_inside inside (Token.names?_of_groups? grouped)
      (closing?_of_closes (Token.closes?_of_groups? grouped))]
    exact followed.reframe inside (follows.read_group hwell hframe reserved fits grouped)
      (Sheet.trail_read_sublist _ _ _ _ _)
  | @closeGroup frame outer enclosure groups inside closing grouped =>
    obtain ⟨sheet, others, rfl, follows, _⟩ := followed.exists_cons inside
    have hframe := intact.frames frame (by rw [inside]; exact List.mem_cons_self)
    have hopen : reader.closing? lexeme = none := by
      rw [closing?_of_inside inside, if_neg]
      rintro ⟨_, hgroups, _⟩
      cases grouped.symm.trans hgroups
    rw [follow_of_inside inside (Token.names?_of_closes? closing) hopen, OpenDirective.add_regroup]
    exact followed.reframe inside (follows.read_closeGroup hwell hframe reserved fits closing grouped)
      (Sheet.trail_read_sublist _ _ _ _ _)
  | @closeSlot frame outer slot inside closing ungrouped filling =>
    obtain ⟨sheet, others, rfl, follows, _⟩ := followed.exists_cons inside
    have hopen : reader.closing? lexeme = none := by
      rw [closing?_of_inside inside, if_neg]
      rintro ⟨_, _, hslot⟩
      cases filling.symm.trans hslot
    have hopeners : sheet.openers = [] := by
      rw [← List.length_eq_zero_iff, follows.openers, ungrouped, List.length_nil]
    rw [follow_of_inside inside (Token.names?_of_closes? closing) hopen,
      Sheet.read_of_closes?_of_nil closing hopeners]
    exact followed.reframe inside (follows.reslot ungrouped _ _) (List.sublist_append_left _ _)
  | @closeDirective frame outer directive inside closing ungrouped unfilling built =>
    obtain ⟨sheet, others, rfl, follows, surround⟩ := followed.exists_cons inside
    have hclosed := closing?_of_closing inside closing ungrouped unfilling
    have hframes := intact.frames
    rw [inside, List.forall_mem_cons] at hframes
    have htrail := followed.trail
    cases outer with
    | nil =>
      rw [follow_of_outermost inside closing hclosed]
      exact ⟨.nil, List.nil_sublist _⟩
    | cons parent outer =>
      obtain ⟨around, others, hsurrounds, hothers, rfl⟩ := List.forall₂_cons_right_iff.mp surround
      obtain ⟨hframe, hparent, _⟩ := hframes.imp_right List.forall_mem_cons.mp
      have hbuilt := OpenDirective.node_build_of_build built
      have hkind : directive.kind = frame.descriptor.kind := (DirectiveNode.spec_of_build hbuilt).1
      rw [Sheet.trail_cons] at htrail
      rw [follow_of_nested inside closing hclosed]
      by_cases note : frame.descriptor.kind = .note
      · obtain ⟨content, rfl⟩ := Directive.exists_of_kind_eq_note (hkind.trans note)
        rw [if_pos note, place_of_note]
        refine ⟨.cons (paste hwell reserved hframe hparent follows ungrouped hsurrounds note hbuilt) hothers,
          ?_⟩
        have hadd := Sheet.trail_add_sublist around parent sheet.signs around.openers others
        rw [← Sheet.add_openers around parent sheet.signs] at hadd
        exact (hadd.trans htrail).trans (List.sublist_append_left _ _)
      · rw [if_neg note, place_of_kind _ _ fun h => note (hkind.symm.trans h)]
        exact ⟨.cons hsurrounds hothers,
          ((List.sublist_append_left _ _).trans htrail).trans (List.sublist_append_left _ _)⟩

end Followed
end Reader

/-! ## Directives that are closed -/

/-- What the signs of a directive tell that is closed: they look like its content, they open and close groups and
are hidden by lexemes that have been read, each of them once, escapes are whole, and every group that is opened is
closed, in turn. -/
structure Closing.Signed (extraction : Extraction) (lexemes : List Lexeme) (closing : Closing)
    (signs : List Sign) : Prop where
  looks : signs.map Sign.char =
    Text.visible (extraction.restore (Fragment.join closing.frame.content))
  genuine : ∀ sign ∈ signs, sign.Genuine
  coupled : Sign.Coupled signs
  trail : (signs.filterMap Sign.lexeme?).Sublist lexemes
  run : Sign.run Prod.mk [] signs = some []

namespace Reader

variable {scope : ReaderScope} {reader : Reader} {sheets : List Sheet} {done lexemes : List Lexeme}
  {closing : Closing} {signs : List Sign}

/-- The signs of a directive that is closed are true of it, when the sheets have been true before. -/
theorem Followed.signed_of_mem (followed : Followed scope.extraction done reader sheets)
    (hwell : scope.extraction.WellFormed) (reserved : scope.extraction.sentinels.Reserved)
    (intact : reader.Intact scope.extraction)
    (fits : ∀ lexeme ∈ lexemes, lexeme.Fits scope.extraction)
    (h : (closing, signs) ∈ reader.signed scope sheets lexemes) :
    closing.Signed scope.extraction (done ++ lexemes) signs := by
  induction lexemes generalizing reader sheets done with
  | nil => exact absurd h List.not_mem_nil
  | cons lexeme rest ih =>
    obtain ⟨hfits, hrest⟩ := List.forall_mem_cons.mp fits
    rw [signed] at h
    cases hread : read scope reader lexeme with
    | error fault =>
      rw [hread] at h
      exact absurd h List.not_mem_nil
    | ok next =>
      rw [hread, List.mem_append] at h
      have step := step_of_read hread
      rcases h with hclosed | hlater
      · obtain ⟨found, hfound, hpair⟩ := List.mem_map.mp hclosed
        obtain ⟨rfl, rfl⟩ := Prod.mk.inj hpair
        obtain ⟨inside, _, ungrouped, _⟩ := closing?_eq_some_iff.mp (Option.mem_toList.mp hfound)
        obtain ⟨sheet, others, rfl, follows, _⟩ := followed.exists_cons inside
        have htrail := followed.trail
        rw [Sheet.trail_cons] at htrail
        exact ⟨follows.looks, follows.genuine, follows.coupled,
          ((List.sublist_append_right _ _).trans htrail).trans (List.sublist_append_left _ _),
          follows.run_of_closed ungrouped⟩
      · have hnext := ih (followed.step hwell reserved intact hfits step)
          (intact.step hwell reserved hfits.intact step) hrest hlater
        rwa [List.append_assoc] at hnext

end Reader
end Courseware
