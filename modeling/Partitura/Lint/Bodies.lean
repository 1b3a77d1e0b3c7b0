import Partitura.ManuScript.Check
import Partitura.ManuScript.Head
import Partitura.Text.Lines
import Partitura.Text.Trim

/-!
# The code of the methods of a plugin file

The texts of the members, found line by line; the variables of the plugin; and the complaints about
the code of each method. Inside the text of a member an apostrophe starts a string in which a double
quote closes nothing.
-/

namespace Partitura.Lint

open ManuScript

/-- The text of a member, with the place after its opening quote. -/
structure Body where
  name : String
  text : List Char
  pos : Position
deriving DecidableEq, Repr

/-- Looks for the closing quote in a line: what stands before it, if it is there, and whether the
line ends inside a string. -/
def closeOn (nested : Bool) : List Char → Option (List Char) × Bool
  | [] => (none, nested)
  | '\\' :: e :: r =>
    let (t, n) := closeOn nested r
    (t.map fun t => '\\' :: e :: t, n)
  | c :: r =>
    if c == '\'' then
      let (t, n) := closeOn (!nested) r
      (t.map (c :: ·), n)
    else if c == '"' && !nested then (some [], nested)
    else
      let (t, n) := closeOn nested r
      (t.map (c :: ·), n)

/-- The text of a member that goes on with `line` and the lines `rest`, after the lines `done`, and
the lines after the one in which it ends. -/
def gather (nested : Bool) (done : List (List Char)) (line : List Char) (rest : List (List Char)) :
    Option (List Char × List (List Char)) :=
  match closeOn nested line, rest with
  | (some t, _), rest => some (Text.unlines (done ++ [t]), rest)
  | (none, _), [] => none
  | (none, n), l :: ls => gather n (done ++ [line]) l ls

theorem length_of_gather {nested : Bool} {done rest ls : List (List Char)} {line t : List Char}
    (h : gather nested done line rest = some (t, ls)) : ls.length ≤ rest.length := by
  fun_induction gather nested done line rest with
  | case1 => simp_all
  | case2 => simp at h
  | case3 _ _ _ _ _ _ _ ih => have := ih h; simp; omega

/-- The texts of the members in the lines from number `n` on. A member that is not closed hides all
after it. -/
def bodiesFrom (n : Nat) (ls : List (List Char)) : List Body :=
  match ls with
  | [] => []
  | l :: rest =>
    match wordHead? l with
    | none => bodiesFrom (n + 1) rest
    | some (name, tail) =>
      match h : gather false [] tail rest with
      | none => []
      | some (text, after) =>
        have : after.length ≤ rest.length := length_of_gather h
        ⟨String.ofList name, text, ⟨n, l.length - tail.length + 1⟩⟩ ::
          bodiesFrom (n + 1 + (rest.length - after.length)) after
termination_by ls.length

/-- `extract_method_bodies`: the texts of the members of a plugin file. -/
def bodies (content : List Char) : List Body := bodiesFrom 1 (Text.lines content)

/-- The name of a variable that a line defines: the text after its quote starts with anything but a
parenthesis. -/
def variableName? (line : List Char) : Option String :=
  match plainHead? line with
  | some (name, c :: _) =>
    let name := String.ofList name
    if c == '(' || name == "Initialize" || name == "Run" then none else some name
  | _ => none

/-- `extract_plugin_variables`: the variables of a plugin file. -/
def variableNames (content : List Char) : List String :=
  (Text.lines content).filterMap variableName?

/-- What follows the first of the characters, with the number of characters before it. -/
def splitAt? (c : Char) (cs : List Char) : Option (List Char × List Char) :=
  let before := cs.takeWhile (· != c)
  if before.length < cs.length then some (before, cs.drop (before.length + 1)) else none

/-- The parameters of a method, the code between its braces and the offset of that code, from the
text of a member that is a method. No code means that the closing brace is missing. -/
def methodParts? (text : List Char) : Option (List String × Nat × Option (List Char)) :=
  match text with
  | '(' :: r =>
    match splitAt? ')' r with
    | none => none
    | some (inner, after) =>
      let params := if (Text.trim inner).isEmpty then []
        else (Text.splitOn ',' inner).map fun p => String.ofList (Text.trim p)
      match splitAt? '\x7b' after with
      | none => none
      | some (gap, code) =>
        let offset := inner.length + gap.length + 3
        let kept := code.reverse.dropWhile (· != '\x7d')
        some (params, offset, if kept.isEmpty then none else some (kept.drop 1).reverse)
  | _ => none

/-- The complaints about one method. -/
def bodyIssues (language : Language) (vars methods : List String) (b : Body) : List Diagnostic :=
  match methodParts? b.text with
  | none => []
  | some (_, _, none) => [⟨b.pos, .unclosedMethod b.name⟩]
  | some (params, offset, some code) =>
    checkBody ⟨language, params ++ vars, methods⟩ ⟨b.pos.line, b.pos.col + offset⟩
      (String.ofList code)

/-- `lint_method_bodies`: the complaints about the code of all methods. -/
def methodIssues (language : Language) (content : List Char) : List Diagnostic :=
  let bs := bodies content
  bs.flatMap (bodyIssues language (variableNames content) (bs.map (·.name)))

end Partitura.Lint
