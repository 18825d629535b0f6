import Courseware.Document.PlainText
import Courseware.Proofs.Document.Texts
import Courseware.Proofs.Text.Parts

/-!
# The leaves of a document tree

The plain text of a tree is joined level by level: each node joins the plain texts of its children and leaves
out those that are empty. Nothing can be seen of the levels in the outcome, as `joinLines_map_joinLines` says:
parts that are joined group by group are joined all at once. It would be false if a level kept its empty
children, for then a group without text would add an empty line. So the plain text of a tree is that of its
leaves, on lines of their own (`DocumentTree.plainText_joins_leaves`).

The leaves of a tree are titles, which are plain already, Markdown, and tasks, which have a plain text of their
own. What their texts are does not matter, and neither does it what the plain text of Markdown is.
-/

namespace Courseware

/-! ## Joining in groups -/

namespace Text

variable {part : Text} {parts more : List Text}

theorem joinLines_nil : joinLines [] = [] := rfl

/-- A part that is empty adds no line. -/
@[simp]
theorem joinLines_nil_cons (parts : List Text) : joinLines ([] :: parts) = joinLines parts := rfl

@[simp]
theorem joinLines_singleton (part : Text) : joinLines [part] = part := by
  cases part with
  | nil => rfl
  | cons letter rest => exact @List.intercalate_singleton _ ['\n'] (letter :: rest)

/-- A part that is not empty is joined to the others, if any of them is not empty. -/
theorem joinLines_cons (full : part ≠ []) (parts : List Text) :
    joinLines (part :: parts) =
      if joinLines parts = [] then part else part ++ '\n' :: joinLines parts := by
  have hkept : (part :: parts).filter (fun part => !part.isEmpty) =
      part :: parts.filter fun part => !part.isEmpty := by
    rw [List.filter_cons_of_pos (by simpa using full)]
  rw [joinLines, joinLines, hkept]
  cases hrest : parts.filter (fun part => !part.isEmpty) with
  | nil => rw [join, join, List.intercalate_singleton, if_pos List.intercalate_nil]
  | cons next others =>
    have hnext : next ≠ [] := by
      have hmem : next ∈ parts.filter fun part => !part.isEmpty := by
        rw [hrest]
        exact List.mem_cons_self
      simpa using (List.mem_filter.mp hmem).2
    have hjoin : join ['\n'] (next :: others) ≠ [] := by
      obtain ⟨letter, rest, rfl⟩ := List.exists_cons_of_ne_nil hnext
      cases others <;> simp [join, List.intercalate_cons_cons]
    rw [if_neg hjoin, join, List.intercalate_cons_cons, List.append_assoc, ← join]
    rfl

/-- Parts may be joined one group after the other. -/
theorem joinLines_append (parts more : List Text) :
    joinLines (parts ++ more) = joinLines [joinLines parts, joinLines more] := by
  induction parts with
  | nil => rw [List.nil_append, joinLines_nil, joinLines_nil_cons, joinLines_singleton]
  | cons part rest ih =>
    by_cases hpart : part = []
    · rw [hpart, List.cons_append, joinLines_nil_cons, joinLines_nil_cons, ih]
    · -- What is joined to the part is empty exactly if the rest and the second group are.
      rw [List.cons_append, joinLines_cons hpart, joinLines_cons hpart, ih]
      by_cases hrest : joinLines rest = []
      · rw [hrest, joinLines_nil_cons, joinLines_singleton, if_pos rfl, joinLines_cons hpart,
          joinLines_singleton]
      · have hfull : part ++ '\n' :: joinLines rest ≠ [] :=
          List.append_ne_nil_of_right_ne_nil _ (List.cons_ne_nil _ _)
        rw [if_neg hrest, joinLines_cons hrest, joinLines_cons hfull, joinLines_singleton]
        by_cases hmore : joinLines more = []
        · rw [if_pos hmore, if_pos hmore, if_neg hrest]
        · rw [if_neg hmore, if_neg hmore, if_neg (List.append_ne_nil_of_left_ne_nil hrest _),
            List.append_assoc, List.cons_append]

/-- What is joined in groups, and then together, is joined all at once. -/
theorem joinLines_map_joinLines (groups : List (List Text)) :
    joinLines (groups.map joinLines) = joinLines groups.flatten := by
  induction groups with
  | nil => rfl
  | cons group others ih =>
    rw [List.map_cons, ← List.singleton_append, joinLines_append, ih, joinLines_singleton,
      List.flatten_cons, joinLines_append]

/-- Groups that are joined to what `text` says of them. -/
theorem joinLines_map_of_groups {α β : Type} {items : List α} {text : α → Text} {group : α → List β}
    {word : β → Text} (h : ∀ item, text item = joinLines ((group item).map word)) :
    joinLines (items.map text) = joinLines ((items.flatMap group).map word) := by
  have htext : items.map text = (items.map fun item => (group item).map word).map joinLines := by
    rw [List.map_map]
    exact List.map_congr_left fun item _ => h item
  rw [htext, joinLines_map_joinLines, List.map_flatMap, List.flatMap_def]

/-- Joined parts have the lines of those that are not empty. -/
theorem split_joinLines (full : parts.filter (fun part => !part.isEmpty) ≠ []) :
    split '\n' (joinLines parts) =
      (parts.filter fun part => !part.isEmpty).flatMap (split '\n') := by
  rw [joinLines]
  generalize parts.filter (fun part => !part.isEmpty) = kept at full
  induction kept with
  | nil => exact absurd rfl full
  | cons first others ih =>
    cases others with
    | nil => rw [join, List.intercalate_singleton, List.flatMap_singleton]
    | cons second more =>
      rw [join, List.intercalate_cons_cons, List.append_assoc, List.singleton_append,
        split_append_separator, ← join, ih (List.cons_ne_nil _ _)]
      exact List.flatMap_cons.symm

end Text

/-! ## Leaves -/

/-- A leaf of a document tree: a title, which is taken as it is, Markdown, or a task. -/
inductive TreeLeaf
  | title (text : Text)
  | markdown (text : Text)
  | task (task : Task)
deriving DecidableEq, Repr

namespace TreeLeaf

/-- The plain text of a leaf. -/
def plainText (plain : Text → Text) : TreeLeaf → Text
  | title text => text
  | markdown text => plain text
  | task content => content.plainText plain

/-- The texts of a leaf. -/
def texts : TreeLeaf → List Text
  | title text | markdown text => [text]
  | task content => content.texts

/-- What stands at the head of a part of a document: a title and an introduction, each of which may be absent. -/
def ofHead (head intro : Option Text) : List TreeLeaf :=
  head.toList.map title ++ intro.toList.map markdown

theorem texts_ofHead (head intro : Option Text) :
    (ofHead head intro).flatMap texts = head.toList ++ intro.toList := by
  cases head <;> cases intro <;> rfl

/-- A title or an introduction that is absent adds no line. -/
theorem joinLines_ofHead (plain : Text → Text) (head intro : Option Text) (parts : List Text) :
    Text.joinLines ((ofHead head intro).map (plainText plain) ++ parts) =
      Text.joinLines (head.getD [] :: Task.optionalText plain intro :: parts) := by
  cases head <;> cases intro <;> rfl

/-- A title that may be absent, in front of parts that are joined already. -/
theorem joinLines_titled (plain : Text → Text) (head : Option Text) (parts : List Text) :
    Text.joinLines ((ofHead head none).map (plainText plain) ++ parts) =
      Text.joinLines [head.getD [], Text.joinLines parts] := by
  rw [Text.joinLines_append]
  cases head with
  | none => rfl
  | some title => rw [ofHead, Option.toList_some, Option.toList_none, List.map_nil, List.append_nil,
      List.map_singleton, List.map_singleton, Text.joinLines_singleton, Option.getD_some, plainText]

end TreeLeaf

/-- The leaves of a task set: its title, its introduction and its tasks. -/
def TaskSet.leaves (set : TaskSet) : List TreeLeaf :=
  TreeLeaf.ofHead set.title set.intro ++ set.tasks.map .task

/-- The leaves of an item. -/
def Item.leaves : Item → List TreeLeaf
  | info title text => [.title title, .markdown text]
  | taskSet set => set.leaves
  | note content => [.markdown content]

/-- The leaves of a category: its title, and its text or the leaves of its items. -/
def Category.leaves : Category → List TreeLeaf
  | info title text => [.title title, .markdown text]
  | tasks _ title items => .title title :: items.flatMap Item.leaves

/-- The leaves of a document in categories: its title, its introduction and those of its categories. -/
def SectionedDocument.leaves (document : SectionedDocument) : List TreeLeaf :=
  TreeLeaf.ofHead document.title document.intro ++ document.categories.flatMap Category.leaves

/-- The leaf that a block of a slide is. -/
def SlideBlock.leaf : SlideBlock → TreeLeaf
  | markdown text => .markdown text
  | note content => .markdown content
  | task content => .task content

/-- The leaves of a slide: its title and its blocks. -/
def Slide.leaves (slide : Slide) : List TreeLeaf :=
  TreeLeaf.ofHead slide.title none ++ slide.blocks.map SlideBlock.leaf

/-- The leaves of a document, in reading order. -/
def DocumentTree.leaves : DocumentTree → List TreeLeaf
  | page document | worksheet document => document.leaves
  | slideDeck deck => TreeLeaf.ofHead deck.title none ++ deck.slides.flatMap Slide.leaves

/-- A slide without its notes for the presenter. -/
def Slide.withoutNotes (slide : Slide) : Slide := { slide with presenterNotes := [] }

/-- A document without notes for the presenter. -/
def DocumentTree.withoutNotes : DocumentTree → DocumentTree
  | slideDeck deck => slideDeck { deck with slides := deck.slides.map Slide.withoutNotes }
  | tree => tree

/-! ### The texts of leaves -/

theorem TaskSet.texts_leaves (set : TaskSet) : set.leaves.flatMap TreeLeaf.texts = set.texts := by
  rw [leaves, texts, List.flatMap_append, TreeLeaf.texts_ofHead, List.flatMap_map]
  rfl

theorem Item.texts_leaves (item : Item) : item.leaves.flatMap TreeLeaf.texts = item.texts := by
  cases item with
  | info title text => rfl
  | taskSet set => exact set.texts_leaves
  | note content => rfl

theorem Category.texts_leaves (category : Category) :
    category.leaves.flatMap TreeLeaf.texts = category.texts := by
  cases category with
  | info title text => rfl
  | tasks kind title items =>
    rw [leaves, texts, List.flatMap_cons, List.flatMap_assoc,
      List.flatMap_congr fun (item : Item) _ => item.texts_leaves]
    rfl

theorem SectionedDocument.texts_leaves (document : SectionedDocument) :
    document.leaves.flatMap TreeLeaf.texts = document.texts := by
  rw [leaves, texts, List.flatMap_append, TreeLeaf.texts_ofHead, List.flatMap_assoc,
    List.flatMap_congr fun (category : Category) _ => category.texts_leaves]

theorem SlideBlock.texts_leaf (block : SlideBlock) : block.leaf.texts = block.texts := by
  cases block <;> rfl

theorem Slide.texts_leaves (slide : Slide) :
    slide.leaves.flatMap TreeLeaf.texts = slide.withoutNotes.texts := by
  rw [leaves, texts, List.flatMap_append, TreeLeaf.texts_ofHead, List.flatMap_map,
    List.flatMap_congr fun (block : SlideBlock) _ => block.texts_leaf]
  simp [withoutNotes]

/-- The leaves of a tree hold all of its texts, in order, except for the notes for the presenter. -/
theorem DocumentTree.texts_leaves (tree : DocumentTree) :
    tree.leaves.flatMap TreeLeaf.texts = tree.withoutNotes.texts := by
  cases tree with
  | page document => exact document.texts_leaves
  | worksheet document => exact document.texts_leaves
  | slideDeck deck =>
    rw [leaves, List.flatMap_append, TreeLeaf.texts_ofHead, List.flatMap_assoc,
      List.flatMap_congr fun (slide : Slide) _ => slide.texts_leaves]
    simp [withoutNotes, texts, SlideDeck.texts, List.flatMap_map]

/-! ### The plain texts of leaves -/

variable (plain : Text → Text)

theorem TaskSet.plainText_eq (set : TaskSet) :
    set.plainText plain = Text.joinLines (set.leaves.map (TreeLeaf.plainText plain)) := by
  rw [plainText, leaves, List.map_append, List.map_map, TreeLeaf.joinLines_ofHead]
  rfl

theorem Item.plainText_eq (item : Item) :
    item.plainText plain = Text.joinLines (item.leaves.map (TreeLeaf.plainText plain)) := by
  cases item with
  | info title text => rfl
  | taskSet set => exact set.plainText_eq plain
  | note content => exact (Text.joinLines_singleton _).symm

theorem Category.plainText_eq (category : Category) :
    category.plainText plain = Text.joinLines (category.leaves.map (TreeLeaf.plainText plain)) := by
  cases category with
  | info title text => rfl
  | tasks kind title items =>
    rw [plainText, leaves, List.map_cons, ← List.singleton_append, Text.joinLines_append,
      Text.joinLines_map_of_groups (Item.plainText_eq plain), ← Text.joinLines_append]
    rfl

theorem SectionedDocument.plainText_eq (document : SectionedDocument) :
    document.plainText plain = Text.joinLines (document.leaves.map (TreeLeaf.plainText plain)) := by
  rw [plainText, leaves, Text.joinLines_map_of_groups (Category.plainText_eq plain), List.map_append,
    ← TreeLeaf.joinLines_ofHead, Text.joinLines_append, Text.joinLines_singleton,
    ← Text.joinLines_append]

theorem SlideBlock.plainText_eq (block : SlideBlock) :
    block.plainText plain = block.leaf.plainText plain := by
  cases block <;> rfl

theorem Slide.plainText_eq (slide : Slide) :
    slide.plainText plain = Text.joinLines (slide.leaves.map (TreeLeaf.plainText plain)) := by
  have hblocks : slide.blocks.map (SlideBlock.plainText plain) =
      (slide.blocks.map SlideBlock.leaf).map (TreeLeaf.plainText plain) := by
    rw [List.map_map]
    exact List.map_congr_left fun block _ => block.plainText_eq plain
  rw [plainText, leaves, hblocks, List.map_append, TreeLeaf.joinLines_titled]

/-- The notes for the presenter are not part of the plain text. -/
theorem DocumentTree.plainText_withoutNotes (tree : DocumentTree) :
    tree.withoutNotes.plainText plain = tree.plainText plain := by
  cases tree with
  | page document => rfl
  | worksheet document => rfl
  | slideDeck deck =>
    rw [withoutNotes, plainText, plainText, List.map_map]
    rfl

/-- The plain text of a tree is that of its leaves. -/
theorem DocumentTree.plainText_eq (tree : DocumentTree) :
    tree.plainText plain = Text.joinLines (tree.leaves.map (TreeLeaf.plainText plain)) := by
  cases tree with
  | page document => exact document.plainText_eq plain
  | worksheet document => exact document.plainText_eq plain
  | slideDeck deck =>
    rw [plainText, leaves, Text.joinLines_map_of_groups (Slide.plainText_eq plain), List.map_append,
      TreeLeaf.joinLines_titled]

/-- The plain text of a tree, whatever the plain text of Markdown is, is that of its leaves, in reading order
and joined by line feeds, where a leaf without plain text is left out. The leaves hold every text of the tree
once, in order, except for the notes for the presenter, on which the plain text does not depend. If any leaf
has plain text, then the lines of the plain text are those of such leaves, so that no leaf adds an empty line
for being empty. -/
theorem DocumentTree.plainText_joins_leaves (plain : Text → Text) (tree : DocumentTree) :
    let plainTexts := (tree.leaves.map (TreeLeaf.plainText plain)).filter (!·.isEmpty)
    tree.plainText plain = Text.join ['\n'] plainTexts ∧
      tree.leaves.flatMap TreeLeaf.texts = tree.withoutNotes.texts ∧
      tree.plainText plain = tree.withoutNotes.plainText plain ∧
      (plainTexts ≠ [] →
        Text.split '\n' (tree.plainText plain) = plainTexts.flatMap (Text.split '\n')) := by
  intro plainTexts
  have hjoin := tree.plainText_eq plain
  refine ⟨hjoin, tree.texts_leaves, (tree.plainText_withoutNotes plain).symm, fun hfull => ?_⟩
  rw [hjoin]
  exact Text.split_joinLines hfull

/-- A title that is empty, a category without items and a note for the presenter add no line. -/
example :
    (DocumentTree.slideDeck ⟨some [], [⟨some "A".toList, [.markdown [], .note "b".toList], ["c".toList]⟩,
      ⟨none, [], []⟩, ⟨some "D".toList, [], []⟩]⟩).plainText id = "A\nb\nD".toList := by
  decide

end Courseware
