import Courseware.Files.Map
import Courseware.Proofs.Course.Paths

/-!
# The places of joined paths

A path of plain names, none of which is empty or made of dots that stay or go up, leads below the place from
which it is followed, and is known by where it leads. Joined to a folder it leads below the folder, whatever
the path of the folder is: it may be absolute, hold dots, or end in a slash.
-/

namespace Courseware.Path

variable {place : List String} {base path other : String}

/-- Whether a component is a name: it is not empty, and it neither stays nor goes up. -/
def IsName (part : Text) : Prop := part ≠ [] ∧ part ≠ ['.'] ∧ part ≠ ['.', '.']

instance (part : Text) : Decidable (IsName part) :=
  inferInstanceAs (Decidable (_ ∧ _ ∧ _))

/-- A slug is a name, whatever stands behind it. -/
theorem isName_append_of_isSlug {name : String} (slug : isSlug name = true) (ending : Text) :
    IsName (name.toList ++ ending) := by
  have hdot : '.' ∉ name.toList := notMem_of_isSlug slug (by decide)
  rw [isSlug, Bool.and_eq_true, Bool.not_eq_true', List.isEmpty_eq_false_iff] at slug
  obtain ⟨first, letters, hletters⟩ := List.exists_cons_of_ne_nil slug.1
  have hfirst : first ≠ '.' := by
    rintro rfl
    exact hdot (hletters ▸ List.mem_cons_self)
  rw [hletters, List.cons_append]
  simp [IsName, hfirst]

theorem isName_of_isSlug {name : String} (slug : isSlug name = true) : IsName name.toList := by
  rw [← List.append_nil name.toList]
  exact isName_append_of_isSlug slug []

/-- Whether a path only enters what has a name. -/
def IsPlain (path : String) : Prop := ∀ part ∈ parts path, IsName part

instance (path : String) : Decidable (IsPlain path) :=
  inferInstanceAs (Decidable (∀ part ∈ parts path, IsName part))

/-- The names that a path is made of. -/
def names (path : String) : List String := (parts path).map String.ofList

theorem steps_eq_map_parts : steps path = (parts path).map Step.ofPart := rfl

theorem names_inj : names path = names other ↔ parts path = parts other :=
  List.map_inj_right fun _ _ h => String.ofList_injective h

theorem IsPlain.steps_eq (plain : IsPlain path) : steps path = (names path).map Step.enter := by
  rw [steps_eq_map_parts, names, List.map_map]
  apply List.map_congr_left
  intro part hpart
  obtain ⟨hempty, hstay, hup⟩ := plain part hpart
  rw [Function.comp_apply, Step.ofPart]
  all_goals assumption

theorem IsPlain.not_isAbsolute (plain : IsPlain path) : isAbsolute path = false := by
  rw [isAbsolute, ← Bool.not_eq_true, String.startsWith_string_iff]
  rintro ⟨rest, h⟩
  have hparts : parts path = [] :: Text.split '/' rest := by
    rw [parts, ← h]
    exact Text.split_append_cons List.not_mem_nil
  exact (plain [] (hparts ▸ List.mem_cons_self)).1 rfl

/-- Entering names one after the other leads to the last of them. -/
theorem foldl_enter (names : List String) :
    (names.map Step.enter).foldl FileTree.placeAfter place = place ++ names := by
  induction names generalizing place with
  | nil => exact (List.append_nil place).symm
  | cons name rest ih =>
    rw [List.map_cons, List.foldl_cons, ih, FileTree.placeAfter, List.append_assoc]
    rfl

/-- A relative path is added to a folder, with a slash between them unless there is no need for it. -/
theorem join_of_relative (relative : isAbsolute path = false) :
    join base path = if base.isEmpty || base.endsWith "/" then base ++ path else base ++ "/" ++ path := by
  rw [isAbsolute, ← Bool.not_eq_true] at relative
  rw [join, if_neg relative]

theorem join_empty (relative : isAbsolute path = false) : join "" path = path := by
  have bare : ("".isEmpty || "".endsWith "/") = true := rfl
  rw [join_of_relative relative, if_pos bare, String.empty_append]

theorem isAbsolute_append (full : base ≠ "") : isAbsolute (base ++ other) = isAbsolute base := by
  have hfull : base.toList ≠ [] := fun h => full (String.toList_eq_nil_iff.mp h)
  obtain ⟨first, letters, hletters⟩ := List.exists_cons_of_ne_nil hfull
  rw [Bool.eq_iff_iff, isAbsolute, isAbsolute, String.startsWith_string_iff,
    String.startsWith_string_iff, String.toList_append, hletters, List.cons_append]
  simp

/-- What is joined to a path starts at the top when the path does. -/
theorem isAbsolute_join (relative : isAbsolute path = false) :
    isAbsolute (join base path) = isAbsolute base := by
  by_cases full : base = ""
  · rw [full, join_empty relative]
    exact relative
  · rw [join_of_relative relative]
    split
    · exact isAbsolute_append full
    · rw [String.append_assoc]
      exact isAbsolute_append full

/-- Following a path that is joined to a folder is following the folder and then the path. A slash that
stands at the end of the folder leads nowhere. -/
theorem foldl_steps_join (relative : isAbsolute path = false) :
    (steps (join base path)).foldl FileTree.placeAfter place =
      (steps path).foldl FileTree.placeAfter ((steps base).foldl FileTree.placeAfter place) := by
  have hsteps : ∀ before : Text, ∀ whole : String, whole.toList = before ++ '/' :: path.toList →
      steps whole = (Text.split '/' before).map Step.ofPart ++ steps path := by
    intro before whole h
    rw [steps, h, Text.split_append_separator, List.map_append, steps]
  rw [join_of_relative relative]
  split
  · next bare =>
    rcases (Bool.or_eq_true _ _).mp bare with hempty | hslash
    · obtain rfl := String.isEmpty_iff.mp hempty
      rw [String.empty_append]
      rfl
    · obtain ⟨before, hbefore⟩ := String.Slice.endsWith_string_iff.mp hslash
      have hbase : base.toList = before ++ ['/'] := by
        rw [← String.copy_toSlice (s := base), ← hbefore]
        rfl
      rw [hsteps before (base ++ path) (by rw [String.toList_append, hbase, List.append_assoc]; rfl),
        List.foldl_append]
      have hlast : steps base = (Text.split '/' before).map Step.ofPart ++ [Step.stay] := by
        rw [steps, hbase, Text.split_append_separator, List.map_append]
        rfl
      rw [hlast, List.foldl_append]
      rfl
  · rw [hsteps base.toList (base ++ "/" ++ path) (by simp), List.foldl_append]
    rfl

/-- A path of plain names that is joined to a folder leads below the folder. -/
theorem placeFrom_join (plain : IsPlain path) :
    placeFrom place (join base path) = placeFrom place base ++ names path := by
  rw [placeFrom, foldl_steps_join plain.not_isAbsolute, plain.steps_eq, foldl_enter, FileTree.startOf,
    isAbsolute_join plain.not_isAbsolute]
  rfl

/-- Plain paths that are joined to a folder are known by where they lead. -/
theorem placeFrom_join_inj (plain : IsPlain path) (otherPlain : IsPlain other) :
    placeFrom place (join base path) = placeFrom place (join base other) ↔
      parts path = parts other := by
  rw [placeFrom_join plain, placeFrom_join otherPlain, List.append_cancel_left_eq, names_inj]

/-! ## Endings -/

/-- The ending of the name at a place: what stands behind the last dot. -/
def ending? (place : List String) : Option Text :=
  place.getLast?.map fun name => (name.toList.reverse.takeWhile fun letter => letter != '.').reverse

/-- The ending of the last component of a path is the ending at the place to which it leads. -/
theorem ending?_placeFrom_join (plain : IsPlain path) {stem ending : Text}
    (hlast : (parts path).getLast? = some (stem ++ '.' :: ending)) (hdot : '.' ∉ ending) :
    ending? (placeFrom place (join base path)) = some ending := by
  have hletters : ∀ letter ∈ ending.reverse, (letter != '.') = true := by
    intro letter hletter
    rw [bne_iff_ne]
    rintro rfl
    exact hdot (List.mem_reverse.mp hletter)
  rw [placeFrom_join plain, names, ending?, List.getLast?_append, List.getLast?_map, hlast,
    Option.map_some, Option.some_or, Option.map_some, String.toList_ofList, List.reverse_append,
    List.reverse_cons, List.append_assoc, List.takeWhile_append_of_pos hletters]
  simp

end Courseware.Path
