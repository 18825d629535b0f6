import Courseware.Json.Parser
import Courseware.Json.Printer

/-!
# Reading back what is written

A value without numbers that is written over several lines is read back, with its members sorted by key.

`Reads before text after` says that a machine comes from one state to another over a text, whatever
follows it. So it can be put together of the parts of a text, and the induction is on the value: a value
is read where one is expected, and leaves the containers around it as they were. How deep containers may
lie is bounded when a text is read. `Json.Readable` bounds how deep they do lie in a value.
-/

namespace Courseware.Json

/-! ## What is read back -/

mutual

/-- A value with the members of all objects sorted by key. -/
def sorted : Json → Json
  | array items => array (sortedItems items)
  | object members => ofMembers (sortedMembers members)
  | json => json

/-- Items with the members of all objects sorted by key. -/
def sortedItems : List Json → List Json
  | [] => []
  | item :: rest => item.sorted :: sortedItems rest

/-- Members in the order in which they are, with those of all objects in them sorted by key. -/
def sortedMembers : List (String × Json) → List (String × Json)
  | [] => []
  | (key, value) :: rest => (key, value.sorted) :: sortedMembers rest

end

/-- Insert members one after the other into members that are sorted by key. -/
def insertAll (members before : List (String × Json)) : List (String × Json) :=
  members.foldl (fun sorted (key, value) => insertMember key value sorted) before

/-- A value without numbers in which containers lie no deeper than there is room for. -/
inductive Readable : Nat → Json → Prop
  | null {room : Nat} : Readable room null
  | bool {room : Nat} (value : Bool) : Readable room (bool value)
  | string {room : Nat} (value : String) : Readable room (string value)
  | array {room : Nat} {items : List Json} (readable : ∀ item ∈ items, Readable room item) :
      Readable (room + 1) (array items)
  | object {room : Nat} {members : List (String × Json)}
      (readable : ∀ member ∈ members, Readable room member.2) : Readable (room + 1) (object members)

/-! ## Tokens -/

namespace Token

variable {text rest done : Text} {tokens : List Token}

theorem hexValue?_hexDigit : ∀ value < 16, hexValue? (hexDigit value) = some value := by decide

theorem unit?_hexDigit {value : Nat} (h : value < 0x20) :
    unit? '0' '0' (hexDigit (value / 16)) (hexDigit (value % 16)) = some value := by
  have hzero : hexValue? '0' = some 0 := rfl
  have hhigh := hexValue?_hexDigit (value / 16) (by omega)
  have hlow := hexValue?_hexDigit (value % 16) (Nat.mod_lt value (by decide))
  rw [unit?, hzero, hhigh, hlow]
  exact congrArg some (by omega)

/-- A character that has been escaped is read as itself. -/
theorem readString?_escape (letter : Char) (done rest : Text) :
    readString? done (escape letter ++ rest) = readString? (letter :: done) rest := by
  unfold escape
  split
  -- Seven characters have an escape of two letters.
  any_goals rfl
  next hquote hbackslash _ _ _ _ _ =>
  split
  · next hcontrol =>
    have hunit := unit?_hexDigit hcontrol
    have hlow : letter.toNat < 0xD800 := by omega
    simp only [List.cons_append, List.nil_append, readString?, hunit, Option.bind_eq_bind,
      Option.bind_some, hlow, decide_true, Bool.true_or, if_true, Char.ofNat_toNat]
  · next hcontrol =>
    simp only [List.cons_append, List.nil_append]
    rw [readString?, if_neg hcontrol]
    · exact hquote
    · exact fun _ _ _ _ _ h _ => hbackslash h
    · exact fun _ _ h _ => hbackslash h

/-- A string is read up to its own closing quote. -/
theorem readString?_flatMap_escape (letters done rest : Text) :
    readString? done (letters.flatMap escape ++ '"' :: rest) =
      some (letters.reverse ++ done, rest) := by
  induction letters generalizing done with
  | nil => rfl
  | cons letter letters ih =>
    rw [List.flatMap_cons, List.append_assoc, readString?_escape, ih, List.reverse_cons,
      List.append_assoc]
    rfl

theorem read?_quote (value : String) (rest : Text) :
    read? '"' (value.toList.flatMap escape ++ '"' :: rest) =
      some (scalar (.string value), rest) := by
  show (readString? [] _).map _ = _
  rw [readString?_flatMap_escape]
  simp [Json.text]

/-- The tokens of a text, which enough steps find. -/
def Scans (text : Text) (tokens : List Token) : Prop :=
  ∀ steps, text.length ≤ steps → scan? steps text = some tokens

namespace Scans

theorem nil : Scans [] [] := by
  intro steps _
  cases steps <;> rfl

theorem blank (scans : Scans rest tokens) {first : Char} (h : isBlank first = true) :
    Scans (first :: rest) tokens := by
  intro steps hsteps
  obtain ⟨more, rfl⟩ := Nat.exists_eq_add_one.mpr (Nat.lt_of_lt_of_le (Nat.succ_pos _) hsteps)
  rw [scan?, if_pos h]
  exact scans more (Nat.le_of_succ_le_succ hsteps)

theorem token (scans : Scans rest tokens) {first : Char} {letters : Text} {token : Token}
    (h : isBlank first = false) (read : read? first (letters ++ rest) = some (token, rest)) :
    Scans (first :: (letters ++ rest)) (token :: tokens) := by
  intro steps hsteps
  obtain ⟨more, rfl⟩ := Nat.exists_eq_add_one.mpr (Nat.lt_of_lt_of_le (Nat.succ_pos _) hsteps)
  have hrest : scan? more rest = some tokens := by
    apply scans
    rw [List.length_cons, List.length_append] at hsteps
    omega
  rw [scan?, h]
  simp only [Bool.false_eq_true, if_false, read, Option.bind_eq_bind, Option.bind_some, hrest]

end Scans
end Token

/-! ## Machines -/

/-- Over a text, a machine comes from one state to another, whatever follows the text. -/
def Reads (before : Machine) (text : Text) (after : Machine) : Prop :=
  ∀ rest tokens, Token.Scans rest tokens → ∃ all, Token.Scans (text ++ rest) all ∧
    all.foldlM Machine.read? before = tokens.foldlM Machine.read? after

namespace Reads

variable {before middle after : Machine} {text more : Text}

theorem append (first : Reads before text middle) (second : Reads middle more after) :
    Reads before (text ++ more) after := by
  intro rest tokens scans
  obtain ⟨later, hlater, hafter⟩ := second rest tokens scans
  obtain ⟨all, hall, hmiddle⟩ := first (more ++ rest) later hlater
  rw [List.append_assoc]
  exact ⟨all, hall, hmiddle.trans hafter⟩

theorem blanks (machine : Machine) (h : ∀ letter ∈ text, Token.isBlank letter = true) :
    Reads machine text machine := by
  intro rest tokens scans
  refine ⟨tokens, ?_, rfl⟩
  induction text with
  | nil => exact scans
  | cons letter text ih =>
    rw [List.forall_mem_cons] at h
    exact (ih h.2).blank h.1

theorem newline (machine : Machine) (level : Nat) : Reads machine (newline level) machine := by
  apply blanks
  intro letter hletter
  rcases List.mem_cons.mp hletter with rfl | hspace
  · rfl
  · obtain rfl := List.eq_of_mem_replicate hspace
    rfl

/-- One token. -/
theorem token {first : Char} {letters : Text} {token : Token} (h : Token.isBlank first = false)
    (read : ∀ rest, Token.read? first (letters ++ rest) = some (token, rest))
    (step : before.read? token = some after) : Reads before (first :: letters) after := by
  intro rest tokens scans
  refine ⟨token :: tokens, scans.token h (read rest), ?_⟩
  rw [List.foldlM_cons, step]
  rfl

/-- A mark of punctuation. -/
theorem mark {first : Char} {token : Token} (h : Token.isBlank first = false)
    (read : ∀ rest, Token.read? first rest = some (token, rest))
    (step : before.read? token = some after) : Reads before [first] after :=
  @Reads.token _ _ first [] token h read step

theorem quote (value : String) (step : before.read? (.scalar (.string value)) = some after) :
    Reads before (quote value) after := by
  refine Reads.token rfl (fun rest => ?_) step
  rw [List.append_assoc]
  exact Token.read?_quote value rest

end Reads

/-! ## Values -/

section
variable {expected : Expected} {frames : List Frame}

/-- Whether a value may begin. -/
def Expected.AdmitsValue (expected : Expected) : Prop := expected = .value ∨ expected = .itemOrEnd

namespace Expected.AdmitsValue

theorem read?_scalar (admits : expected.AdmitsValue) (value : Json) :
    (⟨expected, frames⟩ : Machine).read? (.scalar value) = some ⟨.separator value, frames⟩ := by
  rcases admits with rfl | rfl <;> rfl

theorem read?_openArray (admits : expected.AdmitsValue)
    (deep : frames.length + 1 ≤ Machine.maxDepth) :
    (⟨expected, frames⟩ : Machine).read? .openArray = some ⟨.itemOrEnd, .array [] :: frames⟩ := by
  rcases admits with rfl | rfl <;> exact if_pos deep

theorem read?_openObject (admits : expected.AdmitsValue)
    (deep : frames.length + 1 ≤ Machine.maxDepth) :
    (⟨expected, frames⟩ : Machine).read? .openObject =
      some ⟨.keyOrEnd, .object [] "" :: frames⟩ := by
  rcases admits with rfl | rfl <;> exact if_pos deep

end Expected.AdmitsValue
end

variable {expected : Expected} {frames : List Frame} {level room : Nat}

/-- The items that follow the first one of an array. -/
theorem Reads.layItems {items : List Json}
    (reads : ∀ item ∈ items, ∀ frames : List Frame, frames.length + room ≤ Machine.maxDepth →
      Reads ⟨.value, frames⟩ (lay level item) ⟨.separator item.sorted, frames⟩)
    (deep : frames.length + (room + 1) ≤ Machine.maxDepth) (value : Json) (done : List Json) :
    ∃ last before, Reads ⟨.separator value, .array done :: frames⟩ (Json.layItems level items)
        ⟨.separator last, .array before :: frames⟩ ∧
      (last :: before).reverse = (value :: done).reverse ++ sortedItems items := by
  induction items generalizing value done with
  | nil =>
    refine ⟨value, done, Reads.blanks _ (fun letter h => absurd h List.not_mem_nil), ?_⟩
    rw [sortedItems, List.append_nil]
  | cons item rest ih =>
    obtain ⟨hitem, hrest⟩ := List.forall_mem_cons.mp reads
    obtain ⟨last, before, hreads, hall⟩ := ih hrest item.sorted (value :: done)
    refine ⟨last, before, ?_, ?_⟩
    · have hcomma : Reads ⟨.separator value, .array done :: frames⟩ [',']
          ⟨.value, .array (value :: done) :: frames⟩ := Reads.mark rfl (fun rest => rfl) rfl
      have hvalue := hitem (.array (value :: done) :: frames) (by rw [List.length_cons]; omega)
      have hall := hcomma.append ((Reads.newline _ level).append (hvalue.append hreads))
      rw [Json.layItems]
      simpa using hall
    · rw [hall, sortedItems, List.reverse_cons, List.append_assoc]
      rfl

/-- A member of an object, after what stands before its key. -/
theorem Reads.member {value : Json} {members : List (String × Json)} (key : String)
    (reads : Reads ⟨.value, .object members key :: frames⟩ (lay level value)
      ⟨.separator value.sorted, .object members key :: frames⟩)
    {before : Machine} (admits : before.read? (.scalar (.string key)) =
      some ⟨.colon members key, frames⟩) :
    Reads before (Json.quote key ++ ':' :: ' ' :: lay level value)
      ⟨.separator value.sorted, .object members key :: frames⟩ := by
  have hkey := Reads.quote key admits
  have hcolon : Reads ⟨.colon members key, frames⟩ [':'] ⟨.value, .object members key :: frames⟩ :=
    Reads.mark rfl (fun rest => rfl) rfl
  have hspace : Reads ⟨.value, .object members key :: frames⟩ [' ']
      ⟨.value, .object members key :: frames⟩ :=
    Reads.blanks _ (List.forall_mem_singleton.mpr rfl)
  exact hkey.append (hcolon.append (hspace.append reads))

/-- The members that follow the first one of an object. -/
theorem Reads.layMembers {members : List (String × Json)}
    (reads : ∀ member ∈ members, ∀ frames : List Frame,
      frames.length + room ≤ Machine.maxDepth →
        Reads ⟨.value, frames⟩ (lay level member.2) ⟨.separator member.2.sorted, frames⟩)
    (deep : frames.length + (room + 1) ≤ Machine.maxDepth) (value : Json) (key : String)
    (done : List (String × Json)) :
    ∃ last name before, Reads ⟨.separator value, .object done key :: frames⟩
        (Json.layMembers level members) ⟨.separator last, .object before name :: frames⟩ ∧
      insertMember name last before =
        insertAll (sortedMembers members) (insertMember key value done) := by
  induction members generalizing value key done with
  | nil => exact ⟨value, key, done, Reads.blanks _ (fun letter h => absurd h List.not_mem_nil), rfl⟩
  | cons member rest ih =>
    obtain ⟨name, item⟩ := member
    obtain ⟨hmember, hrest⟩ := List.forall_mem_cons.mp reads
    obtain ⟨last, lastName, before, hreads, hall⟩ :=
      ih hrest item.sorted name (insertMember key value done)
    refine ⟨last, lastName, before, ?_, hall⟩
    have hcomma : Reads ⟨.separator value, .object done key :: frames⟩ [',']
        ⟨.key (insertMember key value done), frames⟩ := Reads.mark rfl (fun rest => rfl) rfl
    have hvalue := hmember (.object (insertMember key value done) name :: frames)
      (by rw [List.length_cons]; omega)
    have htext := hcomma.append ((Reads.newline _ level).append
      ((Reads.member name hvalue rfl).append hreads))
    rw [Json.layMembers]
    simpa using htext

/-- A value is read where one is expected. The containers around it stay open. -/
theorem reads_lay {json : Json} (readable : json.Readable room) (level : Nat)
    (admits : expected.AdmitsValue) (deep : frames.length + room ≤ Machine.maxDepth) :
    Reads ⟨expected, frames⟩ (lay level json) ⟨.separator json.sorted, frames⟩ := by
  induction readable generalizing level expected frames with
  | null => exact Reads.token rfl (fun rest => rfl) (admits.read?_scalar null)
  | bool value =>
    cases value <;> exact Reads.token rfl (fun rest => rfl) (admits.read?_scalar _)
  | string value => exact Reads.quote value (admits.read?_scalar _)
  | @array room items readable ih =>
    have hopen : Reads ⟨expected, frames⟩ ['['] ⟨.itemOrEnd, .array [] :: frames⟩ :=
      Reads.mark rfl (fun rest => rfl) (admits.read?_openArray (by omega))
    cases items with
    | nil => exact hopen.append (Reads.mark rfl (fun rest => rfl) rfl)
    | cons first rest =>
      obtain ⟨hfirst, hrest⟩ := List.forall_mem_cons.mp ih
      have hitem : Reads ⟨.itemOrEnd, .array [] :: frames⟩ (lay (level + 1) first)
          ⟨.separator first.sorted, .array [] :: frames⟩ :=
        hfirst (level + 1) (.inr rfl) (by rw [List.length_cons]; omega)
      have hothers : ∀ item ∈ rest, ∀ frames : List Frame,
          frames.length + room ≤ Machine.maxDepth →
            Reads ⟨.value, frames⟩ (lay (level + 1) item) ⟨.separator item.sorted, frames⟩ :=
        fun item hmem frames => hrest item hmem (level + 1) (.inl rfl)
      obtain ⟨last, before, hitems, hall⟩ := Reads.layItems hothers deep first.sorted []
      have hclose : Reads ⟨.separator last, .array before :: frames⟩ [']']
          ⟨.separator (array (first :: rest)).sorted, frames⟩ := by
        apply Reads.mark rfl (fun rest => rfl)
        show some (Machine.mk (.separator (array (last :: before).reverse)) frames) = _
        rw [hall]
        rfl
      have htext := hopen.append ((Reads.newline _ (level + 1)).append
        (hitem.append (hitems.append ((Reads.newline _ level).append hclose))))
      rw [lay]
      simpa using htext
  | @object room members readable ih =>
    have hopen : Reads ⟨expected, frames⟩ ['{'] ⟨.keyOrEnd, .object [] "" :: frames⟩ :=
      Reads.mark rfl (fun rest => rfl) (admits.read?_openObject (by omega))
    cases members with
    | nil => exact hopen.append (Reads.mark rfl (fun rest => rfl) rfl)
    | cons first rest =>
      obtain ⟨key, value⟩ := first
      obtain ⟨hfirst, hrest⟩ := List.forall_mem_cons.mp ih
      have hvalue : Reads ⟨.value, .object [] key :: frames⟩ (lay (level + 1) value)
          ⟨.separator value.sorted, .object [] key :: frames⟩ :=
        hfirst (level + 1) (.inl rfl) (by rw [List.length_cons]; omega)
      have hothers : ∀ member ∈ rest, ∀ frames : List Frame,
          frames.length + room ≤ Machine.maxDepth →
            Reads ⟨.value, frames⟩ (lay (level + 1) member.2)
              ⟨.separator member.2.sorted, frames⟩ :=
        fun member hmem frames => hrest member hmem (level + 1) (.inl rfl)
      obtain ⟨last, name, before, hmembers, hall⟩ := Reads.layMembers hothers deep value.sorted key []
      have hclose : Reads ⟨.separator last, .object before name :: frames⟩ ['}']
          ⟨.separator (object ((key, value) :: rest)).sorted, frames⟩ := by
        apply Reads.mark rfl (fun rest => rfl)
        show some (Machine.mk (.separator (object (insertMember name last before))) frames) = _
        rw [hall]
        rfl
      have htext := hopen.append ((Reads.newline _ (level + 1)).append
        ((Reads.member key hvalue rfl).append
          (hmembers.append ((Reads.newline _ level).append hclose))))
      rw [lay]
      simpa using htext

/-- The content of a file is read back as the value that was written, with its members sorted. -/
theorem parse?_file {json : Json} (readable : json.Readable Machine.maxDepth) :
    parse? (file json) = some json.sorted := by
  have hvalue : Reads ⟨.value, []⟩ (pretty json) ⟨.separator json.sorted, []⟩ :=
    reads_lay readable 0 (.inl rfl) (Nat.le_of_eq (Nat.zero_add _))
  have hend : Reads ⟨.separator json.sorted, []⟩ ['\n'] ⟨.separator json.sorted, []⟩ :=
    Reads.blanks _ (List.forall_mem_singleton.mpr rfl)
  obtain ⟨tokens, hscan, hrun⟩ := (hvalue.append hend) [] [] Token.Scans.nil
  rw [List.append_nil] at hscan
  rw [parse?, file, hscan _ (Nat.le_refl _)]
  simp only [Option.bind_eq_bind, Option.bind_some, hrun, List.foldlM_nil]
  rfl

end Courseware.Json
