import Partitura.Text.Class
import Partitura.Text.Search

/-!
# Patterns

A small language of patterns for texts: characters and classes of them, one after another, one or
the other, repeated, at the start, at the end and at the border of a word. A pattern fits a text if
it accounts for all of it.
-/

namespace Partitura.Text

/-- A set of characters. -/
inductive CharSet where
  | any
  | range (first last : Char)
  | digit
  | word
  | blank
  | none
  | union (a b : CharSet)
  | complement (a : CharSet)
deriving DecidableEq, Repr

/-- Whether a character belongs to the set. `any` is all but the line feed. -/
def CharSet.holds (c : Char) : CharSet → Bool
  | any => c != '\n'
  | range first last => first ≤ c && c ≤ last
  | digit => isDecimal c
  | word => isWordChar c
  | blank => isBlank c
  | none => false
  | union a b => a.holds c || b.holds c
  | complement a => !a.holds c

/-- A pattern. -/
inductive Pattern where
  | empty
  | one (set : CharSet)
  | start
  | fin
  | finis
  | border
  | seq (p q : Pattern)
  | alt (p q : Pattern)
  | star (p : Pattern)
deriving DecidableEq, Repr

namespace Pattern

/-- Zero or more steps that each leave less than before, `fuel` of them at most. -/
def iterate (step : List Char → List (List Char)) : Nat → List Char → List (List Char)
  | 0, cs => [cs]
  | fuel + 1, cs => cs :: ((step cs).filter (·.length < cs.length)).flatMap (iterate step fuel)

/-- Whether the end `cs` of a text starts at the border of a word. -/
def atBorder (text cs : List Char) : Bool :=
  let before := (text.take (text.length - cs.length)).getLast?
  before.any isWordChar != cs.head?.any isWordChar

/-- What may be left of the end `cs` of a text after the pattern. `fin` is the end of the text and
the place before a line feed at its end, `finis` only the end. -/
def rests (text : List Char) : Pattern → List Char → List (List Char)
  | empty, cs => [cs]
  | one set, cs =>
    match cs with
    | c :: r => if set.holds c then [r] else []
    | [] => []
  | start, cs => if cs.length = text.length then [cs] else []
  | fin, cs => if cs = [] ∨ cs = ['\n'] then [cs] else []
  | finis, cs => if cs = [] then [cs] else []
  | border, cs => if atBorder text cs then [cs] else []
  | seq p q, cs => (p.rests text cs).flatMap (q.rests text)
  | alt p q, cs => p.rests text cs ++ q.rests text cs
  | star p, cs => iterate (p.rests text) cs.length cs

/-- `RegexMatch`: whether the pattern accounts for the whole text. -/
def fits (p : Pattern) (cs : List Char) : Bool := (p.rests cs cs).any (·.isEmpty)

/-! ## Written patterns -/

/-- The set of an escaped letter. -/
def escapedSet (c : Char) : CharSet :=
  match c with
  | 'd' => .digit
  | 'D' => .complement .digit
  | 'w' => .word
  | 'W' => .complement .word
  | 's' => .blank
  | 'S' => .complement .blank
  | 'n' => .range '\n' '\n'
  | 't' => .range '\t' '\t'
  | 'r' => .range '\r' '\r'
  | 'f' => .range '\x0c' '\x0c'
  | 'v' => .range '\x0b' '\x0b'
  | c => .range c c

/-- The pattern of an escaped letter. -/
def escaped (c : Char) : Pattern :=
  match c with
  | 'A' => start
  | 'Z' => finis
  | 'b' => border
  | c => one (escapedSet c)

/-- The sets of a class up to its closing bracket. A bracket at the front stands for itself. -/
def classItems? (first : Bool) : List Char → Option (CharSet × List Char)
  | [] => none
  | '\\' :: e :: r => (classItems? false r).map fun (s, rest) => (.union (escapedSet e) s, rest)
  | c :: '-' :: d :: r =>
    if c == ']' && !first then some (.none, '-' :: d :: r)
    else if d == ']' then
      (classItems? false ('-' :: d :: r)).map fun (s, rest) => (.union (.range c c) s, rest)
    else (classItems? false r).map fun (s, rest) => (.union (.range c d) s, rest)
  | c :: r =>
    if c == ']' && !first then some (.none, r)
    else (classItems? false r).map fun (s, rest) => (.union (.range c c) s, rest)

/-- A class after its opening bracket. -/
def class? : List Char → Option (CharSet × List Char)
  | '^' :: r => (classItems? true r).map fun (s, rest) => (.complement s, rest)
  | r => classItems? true r

/-- A pattern so many times. -/
def times (p : Pattern) : Nat → Pattern
  | 0 => empty
  | n + 1 => seq p (times p n)

/-- A pattern at most so many times. -/
def upTo (p : Pattern) : Nat → Pattern
  | 0 => empty
  | n + 1 => alt (seq p (upTo p n)) empty

/-- A pattern at least `least` times, and at most `most` times if that is given. -/
def between (p : Pattern) (least : Nat) : Option Nat → Pattern
  | some most => seq (times p least) (upTo p (most - least))
  | none => seq (times p least) (star p)

/-- The number at the front, if there is one. -/
def count (cs : List Char) : Option Nat × List Char :=
  let ds := cs.takeWhile Char.isDigit
  (if ds.isEmpty then none else some (ds.foldl (fun n d => 10 * n + (d.toNat - 48)) 0),
    cs.drop ds.length)

/-- The least and the most number of times in braces, after the opening one. -/
def bounds? (cs : List Char) : Option (Nat × Option Nat × List Char) :=
  match count cs with
  | (some n, '\x7d' :: r) => some (n, some n, r)
  | (least, ',' :: r) =>
    match count r with
    | (most, '\x7d' :: r) => some (least.getD 0, most, r)
    | _ => none
  | _ => none

/-- Drops the sign that asks for as few repetitions as possible: what fits a whole text does not
depend on it. -/
def dropSparing : List Char → List Char
  | '?' :: r => r
  | r => r

/-- The signs of repetition after a pattern. -/
def repeated (p : Pattern) (cs : List Char) : Pattern × List Char :=
  match cs with
  | '*' :: r => (star p, dropSparing r)
  | '+' :: r => (seq p (star p), dropSparing r)
  | '?' :: r => (alt p empty, dropSparing r)
  | '\x7b' :: r =>
    match bounds? r with
    | some (least, most, r) => (between p least most, dropSparing r)
    | none => (p, cs)
  | r => (p, r)

/-- Patterns one after another and one or the other, up to the end or a closing parenthesis; `done`
and `before` are what was read of this branch and the branches before it. -/
def read? (fuel : Nat) (before : Option Pattern) (done : Pattern) (cs : List Char) :
    Option (Pattern × List Char) :=
  let all := match before with
    | some p => alt p done
    | none => done
  match fuel, cs with
  | 0, _ => none
  | _, [] => some (all, [])
  | _, ')' :: r => some (all, ')' :: r)
  | fuel + 1, '|' :: r => read? fuel (some all) empty r
  | fuel + 1, '(' :: r =>
    match read? fuel none empty ((stripStart? ['?', ':'] r).getD r) with
    | some (p, ')' :: r) =>
      let (p, r) := repeated p r
      read? fuel before (seq done p) r
    | _ => none
  | fuel + 1, '[' :: r =>
    match class? r with
    | some (s, r) =>
      let (p, r) := repeated (one s) r
      read? fuel before (seq done p) r
    | none => none
  | fuel + 1, '^' :: r => read? fuel before (seq done start) r
  | fuel + 1, '$' :: r => read? fuel before (seq done fin) r
  | fuel + 1, '\\' :: e :: r =>
    let (p, r) := repeated (escaped e) r
    read? fuel before (seq done p) r
  | fuel + 1, c :: r =>
    let (p, r) := repeated (one (if c == '.' then .any else .range c c)) r
    read? fuel before (seq done p) r

/-- The pattern that is written so. -/
def ofString? (s : String) : Option Pattern :=
  match read? (s.length + 1) none empty s.toList with
  | some (p, []) => some p
  | _ => none

end Pattern

end Partitura.Text
