import Partitura.ManuScript.Head
import Partitura.ManuScript.Issue
import Partitura.Text.Search
import Partitura.Text.Trim

/-!
# The outer shape of a plugin file

A plugin stands between braces, has a method `Initialize` that puts it into the menu, and defines
every member once.
-/

namespace Partitura.Lint

open ManuScript

/-- The number of line feeds. -/
def lineFeeds (cs : List Char) : Nat := cs.countP (· == '\n')

/-- The heads of members that start on a line, with that line. Blank lines before a head belong to
it. -/
def headsFrom (line : Nat) (atStart : Bool) (cs : List Char) : List (String × Nat) :=
  match cs with
  | [] => []
  | c :: r =>
    match h : if atStart then plainHead? (c :: r) else none with
    | some (name, rest) =>
      have : rest.length < r.length + 1 := by
        split at h
        · exact length_of_head? h
        · simp at h
      (String.ofList name, line) ::
        headsFrom (line + lineFeeds ((c :: r).take ((c :: r).length - rest.length))) false rest
    | none => headsFrom (if c = '\n' then line + 1 else line) (c == '\n') r
termination_by cs.length

/-- The heads of members in a text. -/
def heads (cs : List Char) : List (String × Nat) := headsFrom 1 true cs

/-- The names in the order of their first appearance. -/
def distinct (names : List String) : List String :=
  names.foldl (fun seen n => if seen.contains n then seen else seen ++ [n]) []

/-- `_lint_duplicate_methods`: the complaints about names that are defined again, name by name. -/
def redefinitions (content : List Char) : List Diagnostic :=
  let hs := heads content
  (distinct (hs.map (·.1))).flatMap fun name =>
    match hs.filter (·.1 == name) with
    | [] => []
    | (_, first) :: again => again.map fun (_, line) => ⟨⟨line, 1⟩, .redefined name first⟩

/-- `lint_plugin_structure`: the complaints about the outer shape. -/
def structureIssues (content : List Char) : List Diagnostic :=
  let body := Text.trim (content.dropWhile (· == '\ufeff'))
  let hasInitialize := Text.occursIn "Initialize".toList content
  (if body.head? == some '\x7b' then [] else [⟨⟨1, 1⟩, .noOpeningBrace⟩]) ++
    (if body.getLast? == some '\x7d' then []
      else [⟨⟨lineFeeds content + 1, 1⟩, .noClosingBrace⟩]) ++
    (if hasInitialize then [] else [⟨⟨1, 1⟩, .noInitialize⟩]) ++
    (if hasInitialize && !Text.occursIn "AddToPluginsMenu".toList content then
      [⟨⟨1, 1⟩, .noMenuEntry⟩] else []) ++
    redefinitions content

end Partitura.Lint
