import Courseware.Markup.Segment
import Courseware.Proofs.Except

/-!
# What reading one lexeme can do

A document is read by one function that looks at the innermost open directive and at a token. This
module says once what a successful reading of one lexeme can be: `Reader.Step` has one constructor
for each of the eight things that can happen, with everything the reader has checked, and
`Reader.read_eq_ok_iff` shows that there is nothing else. An invariant of the reader is proved by
cases on a step, and a property of whole documents from it by induction on `Reader.Walk`.
-/

namespace Courseware

/-! ## What tokens do -/

namespace Token

/-- How the directive or the slot is enclosed that a token names and opens. -/
def names? : Token → Option Enclosure
  | blockOpen => some .bracket
  | slotOpen => some .brace
  | _ => none

/-- How the group is enclosed that a token opens. -/
def groups? : Token → Option Enclosure
  | bracketOpen => some .bracket
  | braceOpen => some .brace
  | _ => none

/-- How that is enclosed which a token closes. -/
def closes? : Token → Option Enclosure
  | bracketClose => some .bracket
  | braceClose => some .brace
  | _ => none

/-- Whether a token opens and closes nothing. -/
def isPlain : Token → Bool
  | escaped | hash | backslash | text => true
  | _ => false

end Token

namespace OpenDirective

@[simp]
theorem add_descriptor (frame : OpenDirective) (fragment : Fragment) :
    (frame.add fragment).descriptor = frame.descriptor := by
  cases hslot : frame.slot <;> simp only [add, hslot]

@[simp]
theorem add_start (frame : OpenDirective) (fragment : Fragment) :
    (frame.add fragment).start = frame.start := by
  cases hslot : frame.slot <;> simp only [add, hslot]

@[simp]
theorem add_filled (frame : OpenDirective) (fragment : Fragment) :
    (frame.add fragment).filled = frame.filled := by
  cases hslot : frame.slot <;> simp only [add, hslot]

@[simp]
theorem add_groups (frame : OpenDirective) (fragment : Fragment) :
    (frame.add fragment).groups = frame.groups := by
  cases hslot : frame.slot <;> simp only [add, hslot]

end OpenDirective

namespace Reader

/-- Everything that reading a lexeme can do when it succeeds. -/
inductive Step (scope : ReaderScope) (reader : Reader) (lexeme : Lexeme) : Reader → Prop
  /-- Outside all directives, whatever names nothing is prose. -/
  | prose (outside : reader.frames = []) (unnamed : lexeme.token.names? = none) :
      Step scope reader lexeme
        { reader with prose := .source lexeme.start lexeme.text :: reader.prose }
  /-- A directive is opened, in the document or in another directive. -/
  | directive {descriptor : Descriptor} (named : lexeme.token.names? = some .bracket)
      (registered : scope.registry.get? lexeme.name = some descriptor)
      (allowed : descriptor.allows scope.context = true)
      (noSlot : ∀ frame ∈ reader.frames.head?, frame.opensSlot lexeme.name = false) :
      Step scope reader lexeme
        { reader with frames := .begin descriptor lexeme.start :: reader.frames }
  /-- A slot of the innermost directive is opened for the first time. -/
  | slot {frame : OpenDirective} {outer : List OpenDirective} {enclosure : Enclosure}
      (inside : reader.frames = frame :: outer) (named : lexeme.token.names? = some enclosure)
      (opens : frame.opensSlot lexeme.name = true)
      (unfilled : frame.filled.lookup lexeme.name = none) :
      Step scope reader lexeme
        { reader with frames := { frame with slot := some ⟨lexeme.name, enclosure, []⟩ } :: outer }
  /-- Text inside a directive is taken up. -/
  | plain {frame : OpenDirective} {outer : List OpenDirective}
      (inside : reader.frames = frame :: outer) (plain : lexeme.token.isPlain = true) :
      Step scope reader lexeme
        { reader with frames := frame.add (.source lexeme.start lexeme.text) :: outer }
  /-- A group is opened. -/
  | group {frame : OpenDirective} {outer : List OpenDirective} {enclosure : Enclosure}
      (inside : reader.frames = frame :: outer) (grouped : lexeme.token.groups? = some enclosure) :
      Step scope reader lexeme
        { reader with
          frames := { frame.add (.source lexeme.start lexeme.text) with
            groups := enclosure :: frame.groups } :: outer }
  /-- The innermost group is closed. -/
  | closeGroup {frame : OpenDirective} {outer : List OpenDirective} {enclosure : Enclosure}
      {groups : List Enclosure} (inside : reader.frames = frame :: outer)
      (closing : lexeme.token.closes? = some enclosure)
      (grouped : frame.groups = enclosure :: groups) :
      Step scope reader lexeme
        { reader with
          frames := { frame with groups := groups }.add (.source lexeme.start lexeme.text) ::
            outer }
  /-- The open slot is closed. -/
  | closeSlot {frame : OpenDirective} {outer : List OpenDirective} {slot : OpenSlot}
      (inside : reader.frames = frame :: outer)
      (closing : lexeme.token.closes? = some slot.enclosure)
      (ungrouped : frame.groups = []) (filling : frame.slot = some slot) :
      Step scope reader lexeme
        { reader with
          frames := { frame with
            slot := none
            filled := (slot.name, Fragment.join slot.content) :: frame.filled } :: outer }
  /-- The innermost directive is closed and built. -/
  | closeDirective {frame : OpenDirective} {outer : List OpenDirective} {directive : Directive}
      (inside : reader.frames = frame :: outer)
      (closing : lexeme.token.closes? = some .bracket)
      (ungrouped : frame.groups = []) (unfilling : frame.slot = none)
      (built : frame.build scope.extraction s!"{scope.document}#{reader.built}" =
        .ok directive) :
      Step scope reader lexeme (reader.place ⟨frame.start, lexeme.stop⟩ directive outer)

variable {scope : ReaderScope} {reader next : Reader} {lexeme : Lexeme}

/-! ## Reading is stepping -/

theorem opened_eq_ok_iff {descriptor : Descriptor} {start : Nat} :
    opened scope reader descriptor start = .ok next ↔
      descriptor.allows scope.context = true ∧
        next = { reader with frames := .begin descriptor start :: reader.frames } := by
  unfold opened
  by_cases hallowed : descriptor.allows scope.context = true
  · rw [if_pos hallowed, Except.ok.injEq]
    exact ⟨fun h => ⟨hallowed, h.symm⟩, fun h => h.2.symm⟩
  · rw [if_neg hallowed]
    constructor
    · intro h
      simp at h
    · intro h
      exact absurd h.1 hallowed

/-- A name in prose opens a directive. -/
theorem step_of_namedInProse {enclosure : Enclosure} (outside : reader.frames = [])
    (named : lexeme.token.names? = some enclosure)
    (h : reader.namedInProse scope enclosure lexeme = .ok next) : Step scope reader lexeme next := by
  unfold namedInProse at h
  simp only at h
  split at h
  · simp at h
  · split at h
    · next descriptor registered =>
      obtain ⟨allowed, rfl⟩ := opened_eq_ok_iff.mp h
      exact .directive named registered allowed (by simp [outside])
    · split at h <;> simp at h

/-- A name inside a directive opens a slot of it or another directive. -/
theorem step_of_named {frame : OpenDirective} {outer : List OpenDirective} {enclosure : Enclosure}
    (inside : reader.frames = frame :: outer) (named : lexeme.token.names? = some enclosure)
    (h : reader.named scope frame outer enclosure lexeme = .ok next) :
    Step scope reader lexeme next := by
  unfold Reader.named at h
  simp only at h
  split at h
  · next opens =>
    split at h
    · simp at h
    · next unfilled =>
      obtain rfl := Except.ok.inj h
      exact .slot inside named opens (Option.not_isSome_iff_eq_none.mp unfilled)
  · next noSlot =>
    split at h
    · next descriptor registered =>
      obtain ⟨allowed, rfl⟩ := opened_eq_ok_iff.mp h
      exact .directive named registered allowed (by simpa [inside] using noSlot)
    · split at h <;> simp at h

/-- A closing token closes the innermost group, or else the open slot, or else the directive. -/
theorem step_of_closed {frame : OpenDirective} {outer : List OpenDirective} {enclosure : Enclosure}
    (inside : reader.frames = frame :: outer) (closing : lexeme.token.closes? = some enclosure)
    (h : reader.closed scope frame outer enclosure lexeme = .ok next) :
    Step scope reader lexeme next := by
  unfold closed at h
  simp only at h
  split at h
  · next group groups _ hgroups =>
    split at h
    · next same =>
      obtain rfl := Except.ok.inj h
      exact .closeGroup inside closing (same ▸ hgroups)
    · simp at h
  · next slot hgroups hslot =>
    split at h
    · next same =>
      obtain rfl := Except.ok.inj h
      exact .closeSlot inside (same ▸ closing) hgroups hslot
    · simp at h
  · next hgroups hslot =>
    split at h
    · next same =>
      split at h
      · simp at h
      · next directive built =>
        obtain rfl := Except.ok.inj h
        exact .closeDirective inside (same ▸ closing) hgroups hslot built
    · simp at h

theorem step_of_read (h : read scope reader lexeme = .ok next) : Step scope reader lexeme next := by
  unfold read at h
  simp only at h
  split at h
  · next outside =>
    split at h
    · next token => exact step_of_namedInProse outside (by rw [token]; rfl) h
    · next token => exact step_of_namedInProse outside (by rw [token]; rfl) h
    · next notBlock notSlot =>
      obtain rfl := Except.ok.inj h
      refine .prose outside ?_
      cases htoken : lexeme.token <;> first | rfl | contradiction
  · next frame outer inside =>
    split at h
    · next token => exact step_of_named inside (by rw [token]; rfl) h
    · next token => exact step_of_named inside (by rw [token]; rfl) h
    · next token =>
      obtain rfl := Except.ok.inj h
      rw [OpenDirective.add_groups]
      exact .group inside (by rw [token]; rfl)
    · next token =>
      obtain rfl := Except.ok.inj h
      rw [OpenDirective.add_groups]
      exact .group inside (by rw [token]; rfl)
    · next token => exact step_of_closed inside (by rw [token]; rfl) h
    · next token => exact step_of_closed inside (by rw [token]; rfl) h
    all_goals
      next token =>
        obtain rfl := Except.ok.inj h
        exact .plain inside (by rw [token]; rfl)

/-- Reading a lexeme that names something is opening a slot where one opens, and else a directive. -/
theorem read_of_names {enclosure : Enclosure} (named : lexeme.token.names? = some enclosure) :
    read scope reader lexeme = match reader.frames with
      | [] => reader.namedInProse scope enclosure lexeme
      | frame :: outer => reader.named scope frame outer enclosure lexeme := by
  unfold read
  cases htoken : lexeme.token <;> rw [htoken] at named <;> simp [Token.names?] at named <;>
    subst named <;> cases reader.frames <;> rfl

theorem read_of_closes {enclosure : Enclosure} {frame : OpenDirective} {outer : List OpenDirective}
    (inside : reader.frames = frame :: outer) (closing : lexeme.token.closes? = some enclosure) :
    read scope reader lexeme = reader.closed scope frame outer enclosure lexeme := by
  unfold read
  cases htoken : lexeme.token <;> rw [htoken] at closing <;> simp [Token.closes?] at closing <;>
    subst closing <;> simp only [inside]

theorem read_of_step (step : Step scope reader lexeme next) : read scope reader lexeme = .ok next := by
  cases step with
  | prose outside unnamed =>
    unfold read
    simp only [outside]
    split <;> simp_all [Token.names?]
  | directive named registered allowed noSlot =>
    rw [read_of_names named]
    cases hframes : reader.frames with
    | nil =>
      simp only [namedInProse, registered]
      exact opened_eq_ok_iff.mpr ⟨allowed, by rw [hframes]⟩
    | cons frame outer =>
      have hclosed := noSlot frame (by simp [hframes])
      simp only [Reader.named, hclosed, Bool.false_eq_true, if_false, registered]
      exact opened_eq_ok_iff.mpr ⟨allowed, by rw [hframes]⟩
  | slot inside named opens unfilled =>
    rw [read_of_names named, inside]
    simp only [Reader.named, opens, if_true, unfilled, Option.isSome_none, Bool.false_eq_true,
      if_false]
  | plain inside plain =>
    unfold read
    simp only [inside]
    split <;> simp_all [Token.isPlain]
  | group inside grouped =>
    unfold read
    simp only [inside, OpenDirective.add_groups]
    split <;> simp_all [Token.groups?]
  | closeGroup inside closing grouped =>
    rw [read_of_closes inside closing]
    simp only [closed, grouped, if_true]
  | closeSlot inside closing ungrouped filling =>
    rw [read_of_closes inside closing]
    simp only [closed, ungrouped, filling, if_true]
  | closeDirective inside closing ungrouped unfilling built =>
    rw [read_of_closes inside closing]
    simp only [closed, ungrouped, unfilling, if_true, built]

/-- Reading a lexeme succeeds exactly when one of the steps can be taken, and does what that step
does. -/
theorem read_eq_ok_iff : read scope reader lexeme = .ok next ↔ Step scope reader lexeme next :=
  ⟨step_of_read, read_of_step⟩

/-! ## Walks -/

/-- Reading lexemes one after the other. -/
inductive Walk (scope : ReaderScope) : Reader → List Lexeme → Reader → Prop
  | done (reader : Reader) : Walk scope reader [] reader
  | step {reader middle next : Reader} {lexeme : Lexeme} {rest : List Lexeme}
      (first : Step scope reader lexeme middle) (others : Walk scope middle rest next) :
      Walk scope reader (lexeme :: rest) next

theorem foldlM_eq_ok_iff {lexemes : List Lexeme} :
    lexemes.foldlM (read scope) reader = .ok next ↔ Walk scope reader lexemes next := by
  induction lexemes generalizing reader with
  | nil =>
    rw [List.foldlM_nil]
    constructor
    · intro h
      obtain rfl := Except.ok.inj h
      exact .done reader
    · intro h
      cases h
      rfl
  | cons lexeme rest ih =>
    rw [foldlM_cons_eq_ok_iff]
    constructor
    · rintro ⟨middle, hread, hrest⟩
      exact .step (step_of_read hread) (ih.mp hrest)
    · intro h
      cases h with
      | step first others => exact ⟨_, read_of_step first, ih.mpr others⟩

theorem Walk.append {before after : List Lexeme} {middle : Reader}
    (first : Walk scope reader before middle) (second : Walk scope middle after next) :
    Walk scope reader (before ++ after) next := by
  induction first with
  | done reader => exact second
  | step first _ ih => exact .step first (ih second)

/-- A property of what has been read that every step keeps holds along every walk. The induction is on
the lexemes that are still to be read, while those that have been read are gathered in `done`. -/
theorem Walk.invariant (property : List Lexeme → Reader → Prop) {lexemes : List Lexeme}
    (start : property [] reader)
    (keep : ∀ before middle lexeme after, Walk scope reader before middle →
      property before middle → Step scope middle lexeme after →
        property (before ++ [lexeme]) after)
    (walk : Walk scope reader lexemes next) : property lexemes next := by
  have general : ∀ (rest : List Lexeme) (done : List Lexeme) (middle : Reader),
      Walk scope reader done middle → property done middle → Walk scope middle rest next →
        property (done ++ rest) next := by
    intro rest
    induction rest with
    | nil =>
      intro done middle _ hdone hrest
      cases hrest
      rwa [List.append_nil]
    | cons lexeme rest ih =>
      intro done middle hwalk hdone hrest
      cases hrest with
      | step first others =>
        have hnext := ih (done ++ [lexeme]) _ (hwalk.append (.step first (.done _)))
          (keep done middle lexeme _ hwalk hdone first) others
        rwa [List.append_assoc] at hnext
  exact general lexemes [] reader (.done reader) start walk

end Reader
end Courseware
