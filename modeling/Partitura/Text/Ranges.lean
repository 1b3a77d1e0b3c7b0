/-!
# Ranges of code points

A class of characters is a list of closed ranges of code points in ascending order. A long list is
written down by the lengths of the stretches of code points outside of the class and inside of it,
in turn.
-/

namespace Partitura.Text

/-- Whether `n` lies in one of the closed ranges. -/
def inRanges (ranges : List (Nat × Nat)) (n : Nat) : Bool :=
  ranges.any fun r => r.1 ≤ n && n ≤ r.2

/-- The inner ones of stretches from `n` on, whose lengths are those of an outer and an inner one in
turn. -/
def rangesFrom (n : Nat) : List Nat → List (Nat × Nat)
  | outer :: inner :: rest =>
    (n + outer, n + outer + inner - 1) :: rangesFrom (n + outer + inner) rest
  | _ => []

end Partitura.Text
