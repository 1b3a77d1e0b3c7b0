import Partitura.ManuScript.Issue
import Partitura.Text.Class
import Partitura.Text.Search
import Partitura.Text.Trim

/-!
# Bounds of loops

A loop from zero to some expression less a number runs below zero if the expression is smaller than
that number. Such a loop is reported unless a condition shortly before it guards against that. Both
are found by their shape.
-/

namespace Partitura.Lint

open ManuScript

/-- Drops blanks, of which there may be none. -/
def skipBlanks (cs : List Char) : List Char := cs.dropWhile Text.isBlank

/-- Drops blanks, of which there is at least one. -/
def skipBlanks1? (cs : List Char) : Option (List Char) :=
  if cs.head?.any Text.isBlank then some (skipBlanks cs) else none

/-- A number at the front, in decimal digits of any script. -/
def number? (cs : List Char) : Option (Nat × List Char) :=
  let ds := cs.takeWhile Text.isDecimal
  if ds.isEmpty then none
  else some (ds.foldl (fun n d => 10 * n + (Text.decimalValue? d).getD 0) 0, cs.drop ds.length)

/-- A word at the front. -/
def word? (cs : List Char) : Option (List Char) :=
  let w := cs.takeWhile Text.isWordChar
  if w.isEmpty then none else some (cs.drop w.length)

/-- The end of the head of a loop: a minus sign, a number and an opening brace. Gives the number and
what follows. -/
def lessTail? (cs : List Char) : Option (Nat × List Char) := do
  let cs ← Text.stripStart? ['-'] (skipBlanks cs)
  let (n, cs) ← number? (skipBlanks cs)
  let cs ← Text.stripStart? ['\x7b'] (skipBlanks cs)
  return (n, cs)

/-- The shortest expression, within a line, that the end of a loop's head follows. -/
def bound? (done : List Char) : List Char → Option (List Char × Nat × List Char)
  | [] => none
  | c :: r =>
    if c = '\n' || c = '\x7b' then none
    else match lessTail? r with
      | some (n, rest) => some ((c :: done).reverse, n, rest)
      | none => bound? (c :: done) r

/-- The bound after the first `n + 1` blanks, or after fewer of them but one. -/
def boundAfter? (cs : List Char) : Nat → Option (List Char × Nat × List Char)
  | 0 => none
  | n + 1 => (bound? [] (cs.drop (n + 1))).or (boundAfter? cs n)

/-- The head of a loop: where it starts from, the expression of its end, what is taken off, and the
text behind. -/
structure LoopHead where
  start : Nat
  bound : List Char
  less : Nat
  rest : List Char
deriving DecidableEq, Repr

/-- The head of a loop at the front. -/
def loopHead? (cs : List Char) : Option LoopHead := do
  let cs ← Text.stripStart? "for".toList cs
  let cs ← skipBlanks1? cs
  let cs ← word? cs
  let cs ← Text.stripStart? ['='] (skipBlanks cs)
  let (start, cs) ← number? (skipBlanks cs)
  let cs ← skipBlanks1? cs
  let cs ← Text.stripStart? "to".toList cs
  let (bound, less, rest) ← boundAfter? cs (cs.takeWhile Text.isBlank).length
  return ⟨start, Text.trim bound, less, rest⟩

/-- The number that a condition compares the expression with, by the given sign, if such a condition
is at the front. -/
def guardAt? (bound sign : List Char) (cs : List Char) : Option Nat := do
  let cs ← Text.stripStart? "if".toList cs
  let cs ← Text.stripStart? ['('] (skipBlanks cs)
  let cs ← Text.stripStart? bound (skipBlanks cs)
  let cs ← Text.stripStart? sign (skipBlanks cs)
  let (n, cs) ← number? (skipBlanks cs)
  let _ ← Text.stripStart? [')'] (skipBlanks cs)
  return n

/-- The first such condition in a text. -/
def guard? (bound sign : List Char) : List Char → Option Nat
  | [] => none
  | c :: r => (guardAt? bound sign (c :: r)).or (guard? bound sign r)

/-- Whether a condition in the text keeps the expression from being smaller than `less`. -/
def isGuarded (bound : List Char) (less : Nat) (before : List Char) : Bool :=
  (guard? bound ['>', '='] before).any (less ≤ ·) || (guard? bound ['>'] before).any (less ≤ · + 1)

/-- How far back a guard is looked for. -/
def guardReach : Nat := 200

/-- The complaint about a loop in that line, with the text before it. -/
def loopIssue? (line : Int) (before : List Char) (l : LoopHead) : Option Diagnostic :=
  if l.start = 0 ∧ 0 < l.less ∧ isGuarded l.bound l.less before = false then
    some ⟨⟨line, 1⟩, .loopBound (String.ofList l.bound) l.less⟩
  else none

/-- The complaints about loops in a text; `done` is the text before it, backwards, and the first
`skip` characters belong to a head that was found already. -/
def loopsFrom (skip : Nat) (line : Int) (done : List Char) : List Char → List Diagnostic
  | [] => []
  | c :: r =>
    let next := if c = '\n' then line + 1 else line
    match skip with
    | k + 1 => loopsFrom k next (c :: done) r
    | 0 =>
      match if done.head?.any Text.isWordChar then none else loopHead? (c :: r) with
      | none => loopsFrom 0 next (c :: done) r
      | some l =>
        (loopIssue? line (done.take guardReach).reverse l).toList ++
          loopsFrom (r.length - l.rest.length) next (c :: done) r

/-- `lint_for_loop_bounds`: the complaints about the bounds of loops. -/
def loopIssues (content : List Char) : List Diagnostic := loopsFrom 0 1 [] content

end Partitura.Lint
