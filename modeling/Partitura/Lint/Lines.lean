import Partitura.ManuScript.Head
import Partitura.ManuScript.Issue
import Partitura.Text.Lines
import Partitura.Text.LowerCase

/-!
# Complaints line by line

Trailing blanks, overlong lines, and members that are named like a reserved word.
-/

namespace Partitura.Lint

open ManuScript

/-- The greatest length of a line. -/
def maxLength : Nat := 200

/-- A complaint of every line, with the number of the line. -/
def perLine (complain : Int → List Char → List Diagnostic) (content : List Char) :
    List Diagnostic :=
  ((Text.lines content).zipIdx 1).flatMap fun (l, n) => complain n l

/-- The complaints about the white space and the length of a line. -/
def lineIssues (n : Int) (l : List Char) : List Diagnostic :=
  (if l.getLast? == some ' ' || l.getLast? == some '\t' then [⟨⟨n, l.length⟩, .trailingBlanks⟩]
    else []) ++ (if maxLength < l.length then [⟨⟨n, maxLength⟩, .longLine l.length⟩] else [])

/-- `lint_common_issues`: the complaints about white space and length. -/
def blankIssues (content : List Char) : List Diagnostic := perLine lineIssues content

/-- Words that no member should have as its name, in lower case. -/
def reservedNames : List String :=
  ["if", "else", "for", "while", "switch", "case", "return", "true", "false", "null",
    "and", "or", "not"]

/-- `lint_methods`: the complaints about names of members. -/
def nameIssues (content : List Char) : List Diagnostic :=
  perLine (fun n l =>
    match wordHead? l with
    | some (name, _) =>
      let name := String.ofList name
      if reservedNames.contains (Text.lower name) then [⟨⟨n, 1⟩, .reservedName name⟩] else []
    | none => []) content

end Partitura.Lint
