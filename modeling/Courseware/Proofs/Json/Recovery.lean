import Courseware.Course.PlanData
import Courseware.Files.Access
import Courseware.Proofs.Json.Reading

/-!
# Recovering data

Data are read from an object field by field, whatever the order of its members. `Recovers write read room`
says that what has been written is recovered after its members have been sorted, and that it is nested no
deeper than there is room for. It is proved here for texts, flags and lists. For a record it is proved by
saying where each field is found, and `Recovers.parse?_file` takes it to the bytes of a file.
-/

namespace Courseware

namespace Text

theorem ofBytes?_bytes (text : Text) : ofBytes? text.bytes = some text := by
  have hutf8 : String.fromUTF8? (String.ofList text).toUTF8 = some (String.ofList text) :=
    dif_pos (String.ofList text).isValidUTF8
  rw [ofBytes?, bytes, hutf8]
  exact congrArg some String.toList_ofList

end Text

namespace Json

/-! ## Sorted members -/

theorem sortedItems_eq_map (items : List Json) : sortedItems items = items.map sorted := by
  induction items with
  | nil => rfl
  | cons item rest ih => rw [sortedItems, ih, List.map_cons]

@[simp]
theorem lookup_cons_eq_ite (key name : String) (value : Json) (rest : List (String × Json)) :
    ((name, value) :: rest).lookup key = if key = name then some value else rest.lookup key := by
  rw [List.lookup_cons]
  by_cases hkey : key = name
  · rw [beq_iff_eq.mpr hkey, if_pos hkey]
  · rw [beq_eq_false_iff_ne.mpr hkey, if_neg hkey]

theorem lookup_insertMember (key name : String) (value : Json) (members : List (String × Json)) :
    (insertMember name value members).lookup key =
      if key = name then some value else members.lookup key := by
  induction members with
  | nil => exact lookup_cons_eq_ite key name value []
  | cons member rest ih =>
    obtain ⟨first, old⟩ := member
    unfold insertMember
    split
    · exact lookup_cons_eq_ite key name value _
    · split
      · next hsame =>
        rw [lookup_cons_eq_ite, lookup_cons_eq_ite, hsame]
        by_cases hkey : key = first
        · rw [if_pos hkey, if_pos hkey]
        · rw [if_neg hkey, if_neg hkey, if_neg hkey]
      · next hother =>
        rw [lookup_cons_eq_ite, lookup_cons_eq_ite, ih]
        by_cases hkey : key = first
        · rw [if_pos hkey, if_pos hkey, if_neg (fun hname => hother (hname.symm.trans hkey))]
        · rw [if_neg hkey, if_neg hkey]

theorem lookup_insertAll (key : String) (members before : List (String × Json)) :
    (insertAll (sortedMembers members) before).lookup key =
      ((members.reverse.lookup key).map sorted).or (before.lookup key) := by
  induction members generalizing before with
  | nil => rfl
  | cons member rest ih =>
    obtain ⟨name, value⟩ := member
    have hinsert : insertAll (sortedMembers ((name, value) :: rest)) before =
        insertAll (sortedMembers rest) (insertMember name value.sorted before) := rfl
    rw [hinsert, ih, lookup_insertMember, List.reverse_cons, List.lookup_append,
      lookup_cons_eq_ite, List.lookup_nil]
    cases rest.reverse.lookup key with
    | some last => rfl
    | none =>
      by_cases hkey : key = name
      · rw [if_pos hkey, if_pos hkey]
        rfl
      · rw [if_neg hkey, if_neg hkey]
        rfl

/-- Of several members with one key the last is found. -/
theorem get?_sorted (members : List (String × Json)) (key : String) :
    (object members).sorted.get? key = (members.reverse.lookup key).map sorted := by
  have hall := lookup_insertAll key members []
  rw [List.lookup_nil, Option.or_none] at hall
  exact hall

/-! ## Reading fields -/

/-- The text that a string is. -/
def text? (json : Json) : Option Text := json.string?.map String.toList

section
variable {α : Type}

@[simp]
theorem text?_sorted_text (value : Text) : text? (text value).sorted = some value :=
  congrArg some String.toList_ofList

@[simp]
theorem string?_sorted_string (value : String) : string? (string value).sorted = some value := rfl

@[simp]
theorem bool?_sorted_bool (value : Bool) : bool? (bool value).sorted = some value := rfl

/-- A member of an object that must be there. -/
def field? (json : Json) (key : String) (read : Json → Option α) : Option α :=
  (json.get? key).bind read

/-- A member of an object that may be left out. -/
def optional? (json : Json) (key : String) (read : Json → Option α) : Option (Option α) :=
  match json.get? key with
  | none => some none
  | some value => (read value).map some

end

section
variable {α : Type} (members : List (String × Json)) (key : String) (read : Json → Option α)

@[simp]
theorem field?_sorted : (object members).sorted.field? key read =
    (members.reverse.lookup key).bind fun value => read value.sorted := by
  rw [field?, get?_sorted, Option.bind_map]
  rfl

@[simp]
theorem optional?_sorted : (object members).sorted.optional? key read =
    match members.reverse.lookup key with
    | none => some none
    | some value => (read value.sorted).map some := by
  rw [optional?, get?_sorted]
  cases members.reverse.lookup key <;> rfl

end

/-- The value that the bytes of a file stand for. -/
def ofBytes? (bytes : ByteArray) : Option Json := (Text.ofBytes? bytes).bind parse?

/-! ## Recovery -/

section
variable {α : Type} {write : α → Json} {read : Json → Option α} {room : Nat}

@[simp]
theorem readable_object_iff {members : List (String × Json)} :
    (object members).Readable (room + 1) ↔ ∀ member ∈ members, member.2.Readable room :=
  ⟨fun readable => by cases readable; assumption, .object⟩

@[simp]
theorem readable_string (value : String) : (string value).Readable room := .string value

@[simp]
theorem readable_text (value : Text) : (text value).Readable room := .string _

@[simp]
theorem readable_bool (value : Bool) : (bool value).Readable room := .bool value

theorem Readable.mono {json : Json} (readable : json.Readable room) {more : Nat} (h : room ≤ more) :
    json.Readable more := by
  induction readable generalizing more with
  | null => exact .null
  | bool value => exact .bool value
  | string value => exact .string value
  | array readable ih =>
    obtain ⟨inner, rfl⟩ := Nat.exists_eq_add_one.mpr (Nat.lt_of_lt_of_le (Nat.succ_pos _) h)
    exact .array fun item hitem => ih item hitem (Nat.le_of_succ_le_succ h)
  | object readable ih =>
    obtain ⟨inner, rfl⟩ := Nat.exists_eq_add_one.mpr (Nat.lt_of_lt_of_le (Nat.succ_pos _) h)
    exact .object fun member hmember => ih member hmember (Nat.le_of_succ_le_succ h)

/-- Values are written so that they can be read back: without numbers, nested no deeper than there is
room for, and such that they are recovered whatever order their members are in. -/
structure Recovers (write : α → Json) (read : Json → Option α) (room : Nat) : Prop where
  readable : ∀ value, (write value).Readable room
  recovered : ∀ value, read (write value).sorted = some value

namespace Recovers

theorem mono (recovers : Recovers write read room) {more : Nat} (h : room ≤ more) :
    Recovers write read more :=
  ⟨fun value => (recovers.readable value).mono h, recovers.recovered⟩

theorem text : Recovers Json.text text? 0 := ⟨readable_text, text?_sorted_text⟩

theorem list (recovers : Recovers write read room) :
    Recovers (fun values => array (values.map write)) (list? read) (room + 1) := by
  constructor
  case readable =>
    intro values
    refine .array fun item hitem => ?_
    obtain ⟨value, _, rfl⟩ := List.mem_map.mp hitem
    exact recovers.readable value
  case recovered =>
    intro values
    rw [sorted, list?, sortedItems_eq_map, List.map_map]
    induction values with
    | nil => rfl
    | cons value rest ih =>
      rw [List.map_cons, List.mapM_cons, ih, Function.comp_apply, recovers.recovered]
      rfl

/-- What is written to a file is recovered from its bytes. -/
theorem ofBytes?_file (recovers : Recovers write read room) (deep : room ≤ Machine.maxDepth)
    (value : α) : (ofBytes? (write value).file.bytes).bind read = some value := by
  rw [ofBytes?, Text.ofBytes?_bytes, Option.bind_some,
    parse?_file ((recovers.readable value).mono deep)]
  exact recovers.recovered value

end Recovers
end
end Json
end Courseware
