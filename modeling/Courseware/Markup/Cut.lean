import Courseware.Markup.Segment

/-!
# Cuts

Slots and nested directives are cut out of the text that a directive encloses, and so are nested directives out
of the text of a slot. A nested note leaves its text in place of its cut, and nothing is left by other cuts. The
pieces of a stretch of text are what stands between the cuts in it, with the texts that are left in their places.

Cuts are recorded when a slot or a directive is closed, so what is nested in a slot comes before the slot. The
pieces are found by going through the cuts in the order in which they start, where one that starts inside another
belongs to that one. A reader need not do so: it takes the same pieces up as it goes.
-/

namespace Courseware

/-- What is cut out of a text, with the text that is left in its place if it is not a slot. -/
structure Cut where
  extent : Span
  text : Option Text
deriving DecidableEq, Repr

namespace Cut

/-- The text that is left in place of a cut, unless it is empty. -/
def filling (cut : Cut) : List Fragment :=
  match cut.text with
  | none | some [] => []
  | some text => [.nested text]

/-- The piece between two offsets, unless it is empty. -/
def between (scrubbed : Text) (start stop : Nat) : List Fragment :=
  if start < stop then [.source start (Text.slice scrubbed start stop)] else []

/-- Go through cuts from an offset, up to the end of a stretch. -/
def sweep (scrubbed : Text) (stop position : Nat) : List Cut → List Fragment
  | [] => between scrubbed position stop
  | cut :: rest =>
    if cut.extent.start < position then
      sweep scrubbed stop position rest
    else
      between scrubbed position cut.extent.start ++ (cut.filling ++ sweep scrubbed stop cut.extent.stop rest)

/-- Whether a cut lies in a stretch. -/
def liesIn (stretch : Span) (cut : Cut) : Bool :=
  stretch.start ≤ cut.extent.start && cut.extent.stop ≤ stretch.stop

/-- Whether a cut starts no later than another one. -/
def startsBefore (first second : Cut) : Bool := first.extent.start ≤ second.extent.start

/-- The pieces of a stretch of text, given all cuts that have been recorded. -/
def pieces (scrubbed : Text) (stretch : Span) (cuts : List Cut) : List Fragment :=
  sweep scrubbed stretch.stop stretch.start ((cuts.filter (liesIn stretch)).mergeSort startsBefore)

end Cut
end Courseware
