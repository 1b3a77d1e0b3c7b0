import Partitura.Text.LowerCase

/-!
# Edit distance

The least number of insertions, deletions and replacements of single elements between two lists,
computed row by row, and the choice of the nearest of several names.
-/

namespace Partitura.Text

variable {α : Type} [DecidableEq α]

/-- A row of the table of distances after its first entry: `left` is the entry before, `c` the
element of the row, and the last list is the row above. -/
def rowFrom (left : Nat) (c : α) : List α → List Nat → List Nat
  | d :: ds, above :: next :: row =>
    let here := min (min (next + 1) (left + 1)) (above + if c = d then 0 else 1)
    here :: rowFrom here c ds (next :: row)
  | _, _ => []

/-- The last row of the table, from the row that stands for the first `i` elements. -/
def lastRow (t : List α) : Nat → List Nat → List α → List Nat
  | _, row, [] => row
  | i, row, c :: s => lastRow t (i + 1) ((i + 1) :: rowFrom (i + 1) c t row) s

/-- `edit_distance`: the edit distance of two lists, the longer one down the table. -/
def editDistance (s t : List α) : Nat :=
  let (long, short) := if s.length < t.length then (t, s) else (s, t)
  (lastRow short 0 (List.range (short.length + 1)) long).getLastD 0

/-- The first of the nearest, with its distance. -/
def nearest? (distance : String → Nat) : List String → Option (String × Nat)
  | [] => none
  | s :: rest =>
    match nearest? distance rest with
    | none => some (s, distance s)
    | some (t, d) => if distance s ≤ d then some (s, distance s) else some (t, d)

/-- The greatest distance at which a name is still offered for another of length `n`: two fifths of
it, and at least two. -/
def tolerance (n : Nat) : Nat := max 2 (n * 2 / 5)

/-- `_find_similar`: a name among the candidates that may have been meant: one that differs in case
only, or else the nearest if it is near enough. -/
def similar? (name : String) (candidates : List String) : Option String :=
  let wanted := lower name
  match candidates.find? fun c => lower c == wanted with
  | some c => some c
  | none =>
    match nearest? (fun c => editDistance wanted.toList (lower c).toList) candidates with
    | some (c, d) => if d ≤ tolerance name.length then some c else none
    | none => none

end Partitura.Text
