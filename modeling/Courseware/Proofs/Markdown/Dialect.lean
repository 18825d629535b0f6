import Courseware.Markdown.Landmark
import Courseware.Proofs.Except
import Courseware.Proofs.Source.Cut

/-!
# What is asked of a dialect

A dialect of Markdown is given from outside, so what is true of documents in all of them rests on what is asked of
a dialect here: that the nodes of a text lie in it in order (`Dialect.Orderly`), that the children of a heading lie
in the heading in the same way (`Dialect.OrderlyChildren`), and that no node starts or ends inside a placeholder
(`Dialect.Spares`). Nothing is asked about which parts of a text are headings. Where a theorem needs one of this, it
is a hypothesis of the theorem.

Landmarks are made of nodes, so they lie in the text in the same order, and the title of a heading is a slice of it.
-/

namespace Courseware.Markdown

/-- The places of a node and of its children, if it is a heading. -/
def Node.places (node : Node) : List Span :=
  node.span.toList ++ match node.kind with
    | .heading _ children => children.reduceOption
    | .thematicBreak | .other => []

namespace Dialect

/-- The nodes of a text lie in it, in order and apart. -/
def Orderly (dialect : Dialect) : Prop :=
  ∀ text nodes, dialect.nodes text = .ok nodes →
    Span.LieIn text ⟨0, Text.width text⟩ (nodes.filterMap Node.span)

/-- The children of a heading lie in the heading, in order and apart. -/
def OrderlyChildren (dialect : Dialect) : Prop :=
  ∀ text nodes, dialect.nodes text = .ok nodes → ∀ depth children span,
    ⟨.heading depth children, some span⟩ ∈ nodes → Span.LieIn text span children.reduceOption

/-- No node of a text, and no child of a heading, starts or ends inside a placeholder. This is asked for texts in
which all sentinels belong to placeholders. -/
def Spares (dialect : Dialect) (sentinels : Sentinels) (count : Nat) : Prop :=
  ∀ text nodes, sentinels.Intact count text → dialect.nodes text = .ok nodes →
    ∀ node ∈ nodes, ∀ place ∈ node.places,
      sentinels.Uncut count text place.start ∧ sentinels.Uncut count text place.stop

end Dialect

/-! ## Landmarks in order -/

variable {dialect : Dialect} {text : Text} {landmarks : List Landmark}

/-- A landmark comes from a node with the same place. -/
theorem span_of_ofNode? {node : Node} {landmark : Landmark} (h : Landmark.ofNode? text node = some landmark) :
    node.span = some landmark.span := by
  obtain ⟨kind, span?⟩ := node
  obtain ⟨span, rfl, hkind⟩ := Option.bind_eq_some_iff.mp h
  cases kind with
  | heading depth children => cases hkind; rfl
  | thematicBreak => cases hkind; rfl
  | other => exact absurd hkind (Option.some_ne_none _).symm

theorem sublist_spans (text : Text) (nodes : List Node) :
    ((nodes.filterMap (Landmark.ofNode? text)).map Landmark.span).Sublist (nodes.filterMap Node.span) := by
  induction nodes with
  | nil => exact .slnil
  | cons node rest ih =>
    cases hmark : Landmark.ofNode? text node with
    | none =>
      rw [List.filterMap_cons_none hmark]
      exact ih.trans ((List.sublist_cons_self node rest).filterMap _)
    | some landmark =>
      rw [List.filterMap_cons_some hmark, List.filterMap_cons_some (span_of_ofNode? hmark), List.map_cons]
      exact ih.cons_cons _

theorem Dialect.Orderly.lieIn (orderly : dialect.Orderly) (h : dialect.landmarks text = .ok landmarks) :
    Span.LieIn text ⟨0, Text.width text⟩ (landmarks.map Landmark.span) := by
  obtain ⟨nodes, hnodes, rfl⟩ := exists_of_map_eq_ok h
  exact (orderly text nodes hnodes).sublist (sublist_spans text nodes)

/-- The title of a landmark, if it is a heading, is a slice of the part of a text that the heading covers. -/
def Landmark.Titled (text : Text) (landmark : Landmark) : Prop :=
  ∀ depth title, landmark.kind = .heading depth title →
    ∃ place, Span.LieIn text landmark.span [place] ∧ title = Text.slice text place.start place.stop

/-- A title goes from the start of the first child to the end of the last. -/
theorem exists_place_titleIn {outer : Span} {children : List (Option Span)}
    (bounds : outer.start ≤ outer.stop ∧ text.isBoundary outer.start = true)
    (lie : Span.LieIn text outer children.reduceOption) :
    ∃ place, Span.LieIn text outer [place] ∧ titleIn text children = Text.slice text place.start place.stop := by
  unfold titleIn
  split
  · next first last hfirst hlast =>
    obtain ⟨rest, rfl⟩ := List.head?_eq_some_iff.mp hfirst
    have hmem : last ∈ first :: rest.reduceOption := by
      have hknown := List.reduceOption_mem_iff.mpr (List.mem_of_mem_getLast? hlast)
      rwa [List.reduceOption_cons_of_some] at hknown
    rw [List.reduceOption_cons_of_some] at lie
    obtain ⟨hstart, hle, _⟩ := lie.within first List.mem_cons_self
    obtain ⟨_, hlast, hstop⟩ := lie.within last hmem
    refine ⟨⟨first.start, last.stop⟩, .singleton ⟨hstart, ?_, hstop⟩
      ⟨(lie.uncut first List.mem_cons_self).1, (lie.uncut last hmem).2⟩, rfl⟩
    rcases List.mem_cons.mp hmem with rfl | hbehind
    · exact hle
    · exact (hle.trans ((List.pairwise_cons.mp lie.apart).1 last hbehind)).trans hlast
  · refine ⟨⟨outer.start, outer.start⟩, .singleton ⟨Nat.le_refl _, Nat.le_refl _, bounds.1⟩
      ⟨bounds.2, bounds.2⟩, ?_⟩
    rw [Text.slice, Nat.sub_self, Text.takeBytes_zero]

theorem Dialect.Orderly.titled (orderly : dialect.Orderly) (children : dialect.OrderlyChildren)
    (h : dialect.landmarks text = .ok landmarks) : ∀ landmark ∈ landmarks, landmark.Titled text := by
  have lie := orderly.lieIn h
  obtain ⟨nodes, hnodes, rfl⟩ := exists_of_map_eq_ok h
  intro landmark hlandmark depth title hkind
  obtain ⟨⟨kind, span?⟩, hnode, hmark⟩ := List.mem_filterMap.mp hlandmark
  have hplace := List.mem_map_of_mem (f := Landmark.span) hlandmark
  obtain ⟨span, rfl, hmark⟩ := Option.bind_eq_some_iff.mp hmark
  cases kind with
  | heading depth places =>
    obtain rfl := Option.some.inj hmark
    cases hkind
    exact exists_place_titleIn ⟨(lie.within span hplace).2.1, (lie.uncut span hplace).1⟩
      (children text nodes hnodes _ places span hnode)
  | thematicBreak =>
    obtain rfl := Option.some.inj hmark
    cases hkind
  | other => exact absurd hmark (Option.some_ne_none _).symm

/-! ## Landmarks in a longer text -/

/-- A landmark moved on by a distance. -/
def Landmark.shift (distance : Nat) (landmark : Landmark) : Landmark :=
  ⟨landmark.kind, landmark.span.shift distance⟩

theorem Landmark.Titled.shift {landmark : Landmark} (titled : landmark.Titled text) (before after : Text) :
    (landmark.shift (Text.width before)).Titled (before ++ (text ++ after)) := by
  intro depth title hkind
  obtain ⟨place, lie, rfl⟩ := titled depth title hkind
  obtain ⟨⟨_, hle, _⟩, ⟨hstart, hstop⟩, _⟩ := lie.cases_cons
  refine ⟨place.shift (Text.width before), lie.shift before after, ?_⟩
  rw [Span.shift, Nat.add_comm place.start, Nat.add_comm place.stop, Text.slice_within before after hstart hstop hle]

end Courseware.Markdown
