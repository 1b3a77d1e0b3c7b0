import Partitura.Text.Lines

/-!
# Differences of texts

Two lists of lines are compared by their longest common stretches: the longest one first, then those
before and after it. What is left is shown as removed and added lines, with a few lines around every
change.
-/

namespace Partitura.Text

/-- A line with its end. -/
abbrev Line := List Char

/-! ## Common stretches -/

/-- A common stretch: where it starts in either list, and its length. -/
structure Common where
  left : Nat
  right : Nat
  size : Nat
deriving DecidableEq, Repr

/-- How long a list a long text starts to have lines that are too common to go by. -/
def longText : Nat := 200

/-- Lines that stand in a long text more often than once in a hundred lines; a stretch does not
start from them. -/
def tooCommon (right : List Line) : List Line :=
  if right.length < longText then []
  else right.eraseDups.filter fun l => right.length / 100 + 1 < right.count l

/-- For each line on the right, the length of the common stretch that ends there and at the line `x`
on the left; `row` has the lengths for the line before `x`, and `diag` the one for the line before
the first one here. -/
def nextRow (skip : List Line) (x : Line) (diag : Nat) : List Line → List Nat → List Nat
  | [], _ => []
  | y :: ys, row =>
    (if x = y ∧ y ∉ skip then diag + 1 else 0) :: nextRow skip x (row.headD 0) ys row.tail

/-- The better one of a stretch and those that end in the line `i` on the left, of which `row` has
the lengths from `j` on. -/
def bestInRow (i j : Nat) (best : Common) : List Nat → Common
  | [] => best
  | k :: ks => bestInRow i (j + 1) (if best.size < k then ⟨i + 1 - k, j + 1 - k, k⟩ else best) ks

/-- The first longest stretch that ends in the lines from `i` on. -/
def bestFrom (skip right : List Line) (i : Nat) (row : List Nat) (best : Common) :
    List Line → Common
  | [] => best
  | x :: xs =>
    let row := nextRow skip x 0 right row
    bestFrom skip right (i + 1) row (bestInRow i 0 best row) xs

/-- How many lines at the front are the same. -/
def commonFront : List Line → List Line → Nat
  | x :: xs, y :: ys => if x = y then commonFront xs ys + 1 else 0
  | _, _ => 0

/-- The first longest common stretch, with the equal lines before and after it, the common ones
among them too. -/
def longestCommon (skip left right : List Line) : Common :=
  let m := bestFrom skip right 0 [] ⟨0, 0, 0⟩ left
  let before := commonFront (left.take m.left).reverse (right.take m.right).reverse
  let after := commonFront (left.drop (m.left + m.size)) (right.drop (m.right + m.size))
  ⟨m.left - before, m.right - before, before + m.size + after⟩

/-- The common stretches from the left to the right, `fuel` levels deep; the lists start at the
lines `i` and `j`. -/
def commonFrom (skip : List Line) : Nat → Nat → Nat → List Line → List Line → List Common
  | 0, _, _, _, _ => []
  | fuel + 1, i, j, left, right =>
    let m := longestCommon skip left right
    if m.size = 0 then []
    else
      commonFrom skip fuel i j (left.take m.left) (right.take m.right) ++
        [⟨i + m.left, j + m.right, m.size⟩] ++
        commonFrom skip fuel (i + m.left + m.size) (j + m.right + m.size)
          (left.drop (m.left + m.size))
          (right.drop (m.right + m.size))

/-- Stretches that follow each other on both sides as one. -/
def mergeCommon : List Common → List Common
  | [] => []
  | m :: ms =>
    match mergeCommon ms with
    | n :: ns =>
      if m.left + m.size = n.left ∧ m.right + m.size = n.right then
        ⟨m.left, m.right, m.size + n.size⟩ :: ns
      else m :: n :: ns
    | [] => [m]

/-- The common stretches of two lists of lines. -/
def commonStretches (left right : List Line) : List Common :=
  mergeCommon (commonFrom (tooCommon right) (left.length + 1) 0 0 left right)

/-! ## Changes -/

/-- A part of both lists, from one line to before another; `same` if the lines are the same. -/
structure Part where
  same : Bool
  left : Nat
  leftEnd : Nat
  right : Nat
  rightEnd : Nat
deriving DecidableEq, Repr

/-- The parts of two lists from the lines `i` and `j` on, with these common stretches. -/
def partsFrom (i j leftSize rightSize : Nat) : List Common → List Part
  | [] => if i < leftSize ∨ j < rightSize then [⟨false, i, leftSize, j, rightSize⟩] else []
  | m :: ms =>
    (if i < m.left ∨ j < m.right then [⟨false, i, m.left, j, m.right⟩] else []) ++
      ⟨true, m.left, m.left + m.size, m.right, m.right + m.size⟩ ::
        partsFrom (m.left + m.size) (m.right + m.size) leftSize rightSize ms

/-- The last lines of a part. -/
def Part.lastLines (n : Nat) (p : Part) : Part :=
  { p with left := max p.left (p.leftEnd - n), right := max p.right (p.rightEnd - n) }

/-- The first lines of a part. -/
def Part.firstLines (n : Nat) (p : Part) : Part :=
  { p with leftEnd := min p.leftEnd (p.left + n), rightEnd := min p.rightEnd (p.right + n) }

/-- Cuts the first and the last part down to `n` lines, if they are the same on both sides. -/
def trimParts (n : Nat) (parts : List Part) : List Part :=
  let parts := match parts with
    | p :: ps => (if p.same then p.lastLines n else p) :: ps
    | [] => []
  match parts.getLast? with
  | some p => if p.same then parts.dropLast ++ [p.firstLines n] else parts
  | none => parts

/-- The parts in groups: a long part without change ends one and starts the next. -/
def groupsFrom (n : Nat) (group : List Part) : List Part → List (List Part)
  | [] => if group.all (·.same) then [] else [group]
  | p :: ps =>
    if p.same ∧ n + n < p.leftEnd - p.left then
      (group ++ [p.firstLines n]) :: groupsFrom n [p.lastLines n] ps
    else groupsFrom n (group ++ [p]) ps

/-! ## Printing -/

/-- A range of lines: the number of the first one and how many there are, unless it is one. -/
def range (start stop : Nat) : String :=
  if stop - start = 1 then toString (start + 1)
  else toString (if stop = start then start else start + 1) ++ "," ++ toString (stop - start)

/-- The lines of a part with their marks. -/
def Part.lines (left right : List Line) (p : Part) : List Line :=
  let removed := (left.take p.leftEnd).drop p.left
  if p.same then removed.map (' ' :: ·)
  else removed.map ('-' :: ·) ++ ((right.take p.rightEnd).drop p.right).map ('+' :: ·)

/-- A group of parts under its ranges. -/
def groupLines (left right : List Line) (group : List Part) : List Line :=
  let start := group.headD ⟨true, 0, 0, 0, 0⟩
  let stop := group.getLastD ⟨true, 0, 0, 0, 0⟩
  ("@@ -" ++ range start.left stop.leftEnd ++ " +" ++ range start.right stop.rightEnd ++
    " @@\n").toList :: group.flatMap (·.lines left right)

/-- How many lines around a change are shown. -/
def contextLines : Nat := 3

/-- The difference of two texts that go by one name; nothing if they are the same. -/
def difference (name : String) (left right : List Char) : List Char :=
  let left := fullLines left
  let right := fullLines right
  let parts := partsFrom 0 0 left.length right.length (commonStretches left right)
  match groupsFrom contextLines [] (trimParts contextLines parts) with
  | [] => []
  | groups =>
    ("--- " ++ name ++ "\n").toList ++ ("+++ " ++ name ++ "\n").toList ++
      (groups.flatMap (groupLines left right)).flatten

end Partitura.Text
