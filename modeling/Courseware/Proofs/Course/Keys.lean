import Courseware.Document.Location
import Courseware.Proofs.Files.Places

/-!
# What documents are known by

A document is known by its subject, its topic, its chapter, and what it is there: the page, the slides, or a
worksheet. The source of a document and its id are both made of this key, in ways of their own: the source of
an index leaves the chapter out, and only sources have extensions. Each of the two gives the key back. So
documents have one source exactly when they have one id.
-/

namespace Courseware

/-- What a document is in its chapter. -/
inductive ChapterPart
  | page
  | slides
  | worksheet (name : String)
deriving DecidableEq

/-- What a document is known by. -/
structure DocumentKey where
  subject : String
  topic : String
  chapter : String
  part : ChapterPart
deriving DecidableEq

/-- The components of a path give it back. -/
theorem Path.parts_inj {path other : String} : Path.parts path = Path.parts other ↔ path = other := by
  refine ⟨fun h => ?_, congrArg Path.parts⟩
  rw [← String.toList_inj, ← Text.join_split '/' path.toList, ← Text.join_split '/' other.toList]
  exact congrArg (Text.join ['/']) h

namespace DocumentKey

variable {key other : DocumentKey}

/-- The context in which a document is read. -/
def context (key : DocumentKey) : Context :=
  match key.part with
  | .page => .page
  | .slides => .slides
  | .worksheet _ => .worksheet

/-- Whether all names of a key are slugs. -/
structure Sound (key : DocumentKey) : Prop where
  subject : isSlug key.subject = true
  topic : isSlug key.topic = true
  chapter : isSlug key.chapter = true
  worksheet : ∀ name, key.part = .worksheet name → isSlug name = true

/-- The folder of a chapter in the folder of its topic. An index has none of its own. -/
def folder (key : DocumentKey) : List Text :=
  if key.topic = key.chapter then [] else [key.chapter.toList]

/-- The components of the source of a document below the folder of the topic. -/
def fileParts (key : DocumentKey) : List Text :=
  match key.part with
  | .page => key.folder ++ ["website.md".toList]
  | .slides => key.folder ++ ["slides.md".toList]
  | .worksheet name => [key.chapter.toList, "worksheets".toList, name.toList ++ ".md".toList]

/-- The components of the source of a document. -/
def sourceParts (key : DocumentKey) : List Text :=
  [key.subject.toList, key.topic.toList, "chapters".toList] ++ key.fileParts

/-- The id of a document. -/
def id (key : DocumentKey) : String :=
  let chapter := s!"{key.subject}/{key.topic}/{key.chapter}"
  match key.part with
  | .page => chapter
  | .slides => s!"{chapter}/slides"
  | .worksheet name => s!"{chapter}/worksheets/{name}"

/-- The components of the id of a document, with an ending behind it. -/
def idParts (key : DocumentKey) (ending : Text) : List Text :=
  [key.subject.toList, key.topic.toList] ++
    match key.part with
    | .page => [key.chapter.toList ++ ending]
    | .slides => [key.chapter.toList, "slides".toList ++ ending]
    | .worksheet name => [key.chapter.toList, "worksheets".toList, name.toList ++ ending]

theorem three_le_length_idParts (key : DocumentKey) (ending : Text) :
    3 ≤ (key.idParts ending).length := by
  rw [idParts]
  split <;> simp

/-- The ending stands behind the last component of an id. -/
theorem exists_getLast?_idParts (key : DocumentKey) (ending : Text) :
    ∃ stem, (key.idParts ending).getLast? = some (stem ++ ending) := by
  rw [idParts]
  split <;> exact ⟨_, rfl⟩

/-- Sources are Markdown files. -/
theorem exists_getLast?_sourceParts (key : DocumentKey) :
    ∃ stem, key.sourceParts.getLast? = some (stem ++ ".md".toList) := by
  rw [sourceParts, List.getLast?_append, fileParts]
  split
  · exact ⟨"website".toList, by rw [List.getLast?_concat]; rfl⟩
  · exact ⟨"slides".toList, by rw [List.getLast?_concat]; rfl⟩
  · exact ⟨_, rfl⟩

/-- The components of an id give back the key. -/
theorem idParts_inj {ending : Text} : key.idParts ending = other.idParts ending ↔ key = other := by
  refine ⟨fun h => ?_, congrArg (idParts · ending)⟩
  obtain ⟨subject, topic, chapter, part⟩ := key
  obtain ⟨otherSubject, otherTopic, otherChapter, otherPart⟩ := other
  cases part <;> cases otherPart <;> simp_all [idParts, String.toList_inj]

theorem length_folder_le (key : DocumentKey) : key.folder.length ≤ 1 := by
  rw [folder]
  split <;> simp

theorem chapter_eq_of_folder_eq (topic : key.topic = other.topic) (h : key.folder = other.folder) :
    key.chapter = other.chapter := by
  rw [folder, folder, ← topic] at h
  split at h
  · next hkey =>
    split at h
    · next hother => rw [← hkey, hother]
    · cases h
  · split at h
    · cases h
    · simpa [String.toList_inj] using h

/-- A file in the folder of a chapter is no worksheet. -/
theorem folder_append_ne (key : DocumentKey) (file first second third : Text) :
    key.folder ++ [file] ≠ [first, second, third] := by
  intro h
  have hlength := congrArg List.length h
  have hfolder := key.length_folder_le
  simp only [List.length_append, List.length_cons, List.length_nil] at hlength
  omega

/-- Within a topic, the file gives back the chapter and what the document is there. -/
theorem eq_of_fileParts_eq (topic : key.topic = other.topic) (h : key.fileParts = other.fileParts) :
    key.chapter = other.chapter ∧ key.part = other.part := by
  have hlast : ∀ file otherFile : Text, key.folder ++ [file] = other.folder ++ [otherFile] →
      key.chapter = other.chapter ∧ file = otherFile := by
    intro file otherFile h
    obtain ⟨hfolder, hfile⟩ := List.append_inj' h rfl
    exact ⟨chapter_eq_of_folder_eq topic hfolder, List.head_eq_of_cons_eq hfile⟩
  unfold fileParts at h
  cases hpart : key.part <;> cases hother : other.part <;> rw [hpart, hother] at h
  case page.page => exact ⟨(hlast _ _ h).1, rfl⟩
  case slides.slides => exact ⟨(hlast _ _ h).1, rfl⟩
  case page.slides => exact absurd (hlast _ _ h).2 (by decide)
  case slides.page => exact absurd (hlast _ _ h).2 (by decide)
  case worksheet.worksheet name otherName => simpa [String.toList_inj] using h
  case page.worksheet => exact absurd h (folder_append_ne _ _ _ _ _)
  case slides.worksheet => exact absurd h (folder_append_ne _ _ _ _ _)
  case worksheet.page => exact absurd h.symm (folder_append_ne _ _ _ _ _)
  case worksheet.slides => exact absurd h.symm (folder_append_ne _ _ _ _ _)

/-- The components of a source give back the key. -/
theorem sourceParts_inj : key.sourceParts = other.sourceParts ↔ key = other := by
  refine ⟨fun h => ?_, congrArg sourceParts⟩
  simp only [sourceParts, List.cons_append, List.nil_append, List.cons.injEq, String.toList_inj,
    true_and] at h
  obtain ⟨subject, topic, hfile⟩ := h
  obtain ⟨chapter, part⟩ := eq_of_fileParts_eq topic hfile
  cases key
  cases other
  simp_all

/-! ## Sound keys -/

theorem Sound.parts_id_append (sound : key.Sound) {ending : String} (hending : '/' ∉ ending.toList) :
    Path.parts (key.id ++ ending) = key.idParts ending.toList := by
  have hsubject := slash_notMem_of_isSlug sound.subject
  have htopic := slash_notMem_of_isSlug sound.topic
  have hchapter := slash_notMem_of_isSlug sound.chapter
  apply Path.parts_of_toList
  case joined =>
    rw [id, idParts]
    split <;> simp [Text.join, ToString.toString]
  case full => exact List.cons_ne_nil _ _
  case h =>
    cases hpart : key.part with
    | page => simp_all [idParts]
    | slides =>
      have hslides : '/' ∉ "slides".toList := by decide
      simp_all [idParts]
    | worksheet name =>
      have hworksheets : '/' ∉ "worksheets".toList := by decide
      have hworksheet := slash_notMem_of_isSlug (sound.worksheet name hpart)
      simp_all [idParts]

/-- The id of a document with a sound key is made of names, also with an ending behind it. -/
theorem Sound.isName_idParts (sound : key.Sound) (ending : Text) :
    ∀ part ∈ key.idParts ending, Path.IsName part := by
  have hsubject := Path.isName_of_isSlug sound.subject
  have htopic := Path.isName_of_isSlug sound.topic
  have hchapter := Path.isName_of_isSlug sound.chapter
  cases hpart : key.part with
  | page =>
    have hpage := Path.isName_append_of_isSlug sound.chapter ending
    simp_all [idParts]
  | slides =>
    have hslides : Path.IsName ("slides".toList ++ ending) :=
      Path.isName_append_of_isSlug (by decide) ending
    simp_all [idParts]
  | worksheet name =>
    have hworksheets : Path.IsName "worksheets".toList := by decide
    have hworksheet := Path.isName_append_of_isSlug (sound.worksheet name hpart) ending
    simp_all [idParts]

/-- The source of a document with a sound key is made of names. -/
theorem Sound.isName_sourceParts (sound : key.Sound) :
    ∀ part ∈ key.sourceParts, Path.IsName part := by
  have hfixed : ∀ part ∈ ["chapters".toList, "website.md".toList, "slides.md".toList,
      "worksheets".toList], Path.IsName part := by decide
  have hchapter := Path.isName_of_isSlug sound.chapter
  have hfolder : ∀ part ∈ key.folder, Path.IsName part := by
    rw [folder]
    split <;> simp [hchapter]
  have hfile : ∀ part ∈ key.fileParts, Path.IsName part := by
    rw [fileParts]
    split
    · exact List.forall_mem_append.mpr ⟨hfolder, by simpa using hfixed _ (by simp)⟩
    · exact List.forall_mem_append.mpr ⟨hfolder, by simpa using hfixed _ (by simp)⟩
    · next name hpart =>
      have hworksheet := Path.isName_append_of_isSlug (sound.worksheet name hpart) ".md".toList
      simp_all
  have hsubject := Path.isName_of_isSlug sound.subject
  have htopic := Path.isName_of_isSlug sound.topic
  simp_all [sourceParts]

end DocumentKey
end Courseware
