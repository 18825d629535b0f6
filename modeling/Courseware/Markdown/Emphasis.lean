import Courseware.Text.Punctuation

/-!
# Emphasis

Runs of asterisks, underscores and tildes emphasise what stands between a run that opens and one that
closes. In plain text emphasis leaves no trace, so all that matters is how many markers of each run have
no partner and stay as they are written.
-/

namespace Courseware.Markdown

/-- What a character is to a run of markers beside it. The ends of a text are blank. -/
inductive Neighbour
  | blank
  | punctuation
  | word
deriving DecidableEq, Repr

/-- What a character is to its neighbours. -/
def Neighbour.of : Option Char → Neighbour
  | none => blank
  | some letter =>
    if Text.isBlank letter then blank
    else if Text.isPunctuation letter then punctuation
    else word

/-- A run of equal markers, and whether it can open and close emphasis. -/
structure MarkerRun where
  marker : Char
  size : Nat
  opens : Bool
  closes : Bool
deriving DecidableEq, Repr

namespace MarkerRun

/-- The characters of which runs consist. -/
def isMarker (letter : Char) : Bool := letter == '*' || letter == '_' || letter == '~'

/-- The run between two characters. It opens beside a word, or before punctuation where no word ends;
it closes likewise. Underscores inside a word do neither. -/
def between (marker : Char) (size : Nat) (before after : Option Char) : MarkerRun :=
  let left := Neighbour.of before
  let right := Neighbour.of after
  let opens := right == .word || (right == .punctuation && left != .word) ||
    (marker != '~' && after.any isMarker)
  let closes := left == .word || (left == .punctuation && right != .word) ||
    (marker != '~' && before.any isMarker)
  if marker == '_' then
    ⟨marker, size, opens && (left != .word || !closes), closes && (right != .word || !opens)⟩
  else
    ⟨marker, size, opens, closes⟩

/-- Whether a run closes what another one opens. Where one of them could do both, their sizes must not
add up to a multiple of three unless the closing one is such a multiple. Tildes come in ones or twos of
the same size. -/
def isClosedBy (opening closing : MarkerRun) : Bool :=
  opening.opens && closing.closes && opening.marker == closing.marker &&
    !((opening.closes || closing.opens) && closing.size % 3 != 0 &&
      (opening.size + closing.size) % 3 == 0) &&
    (closing.marker != '~' || (closing.size == opening.size && closing.size ≤ 2))

/-- The number of markers that one pair of runs takes from each of them. -/
def taken (opening closing : MarkerRun) : Nat := if 1 < opening.size && 1 < closing.size then 2 else 1

/-- Match a run against earlier ones, latest first: the earlier runs that are left for later ones, the
markers that the run keeps, and the runs that are shut in by a match. Every match takes a marker. -/
def close : Nat → MarkerRun → List (Nat × MarkerRun) → List (Nat × MarkerRun) →
    List (Nat × MarkerRun) × MarkerRun × List (Nat × MarkerRun)
  | 0, run, earlier, shut => (earlier, run, shut)
  | steps + 1, run, earlier, shut =>
    match earlier.span fun other => !other.2.isClosedBy run with
    | (_, []) => (earlier, run, shut)
    | (between, (index, opening) :: outer) =>
      let count := taken opening run
      let run := { run with size := run.size - count }
      let opening := { opening with size := opening.size - count }
      let outer := if opening.size = 0 then outer else (index, opening) :: outer
      if run.size = 0 then (outer, run, between ++ shut)
      else close steps run outer (between ++ shut)

/-- Match numbered runs in order. `earlier` holds the runs that are open, latest first, and `shut` those
that can have no partner any more. The result holds every run that keeps markers. -/
def matchAll (earlier shut : List (Nat × MarkerRun)) :
    List (Nat × MarkerRun) → List (Nat × MarkerRun)
  | [] => earlier ++ shut
  | (index, run) :: rest =>
    if run.closes then
      let (earlier, run, shut) := close run.size run earlier shut
      matchAll (if run.size = 0 then earlier else (index, run) :: earlier) shut rest
    else
      matchAll ((index, run) :: earlier) shut rest

/-- The number of markers without partner of each run, by its place among the runs. -/
def leftovers (runs : List MarkerRun) : Nat → Nat :=
  let numbered := (List.range runs.length).zip runs
  let left := matchAll [] [] numbered
  fun index => ((left.lookup index).map MarkerRun.size).getD 0

end MarkerRun
end Courseware.Markdown
