import Partitura.Text.Class
import Partitura.Text.Lines
import Partitura.Text.Search
import Partitura.Text.Trim

/-!
# Directives in comments

A comment can silence complaints: on its own line and, if the line holds nothing else, on the next
one (`noqa`, `ignore`), or from there on (`disable`) until further notice (`enable`). Two lines that
one `noqa` silences share their codes: what is added for the second holds for the first too.
-/

namespace Partitura.Lint

/-- Whether `c` is the lower-case letter `l` in any case, with the letters of other alphabets that
fold to it. -/
def foldsTo (l c : Char) : Bool :=
  c == l || c == l.toUpper || (l == 'i' && (c == '\u0130' || c == '\u0131')) ||
    (l == 's' && c == '\u017f')

/-- What follows a word in any case. -/
def stripWord? (w cs : List Char) : Option (List Char) :=
  match w, cs with
  | [], r => some r
  | _ :: _, [] => none
  | l :: w, c :: r => if foldsTo l c then stripWord? w r else none

/-- A character of a list of codes. -/
def isCodeChar (c : Char) : Bool :=
  c.isAlphanum || c == '-' || c == ',' || Text.isBlank c ||
    ['\u0130', '\u0131', '\u017f', '\u212a'].contains c

/-- The codes of a list, between commas. -/
def codesOf (cs : List Char) : List String :=
  ((Text.splitOn ',' cs).map fun p => String.ofList (Text.trim p)).filter (!·.isEmpty)

/-- The first place in a line where `read` finds something after the start of a comment. -/
def inComment? {α : Type} (read : List Char → Option α) : List Char → Option α
  | [] => none
  | c :: r =>
    ((Text.stripStart? ['/', '/'] (c :: r)).bind fun t => read (t.dropWhile Text.isBlank)).or
      (inComment? read r)

/-- The codes of a `noqa`; none stands for all. -/
def noqa? (line : List Char) : Option (List String) :=
  inComment? (fun cs => (stripWord? "noqa".toList cs).map fun r =>
    match r with
    | ':' :: r => codesOf (r.takeWhile isCodeChar)
    | _ => []) line

/-- The codes after a word of this tool, which blanks divide from it. -/
def command? (word : String) (line : List Char) : Option (List String) :=
  inComment? (fun cs => do
    let cs ← stripWord? "mahlif:".toList cs
    let cs ← stripWord? word.toList (cs.dropWhile Text.isBlank)
    let list := cs.takeWhile isCodeChar
    if cs.head?.any Text.isBlank && 2 ≤ list.length then some (codesOf list) else none) line

/-- Lines that are silenced together, and the codes; no code stands for all. -/
structure Silence where
  lines : List Int
  codes : List String
deriving DecidableEq, Repr

/-- `InlineDirectives`: the directives of a text: what is silenced line by line, and the codes that
are disabled on a line. -/
structure Directives where
  silences : List Silence
  disabled : List (String × Int)
deriving DecidableEq, Repr

/-- Adds the elements that are not there yet. -/
def union (xs ys : List String) : List String :=
  ys.foldl (fun acc y => if acc.contains y then acc else acc ++ [y]) xs

/-- Silences the lines together, in place of what was said of them. -/
def replace (ls : List Int) (codes : List String) (ss : List Silence) : List Silence :=
  (ss.map fun s => { s with lines := s.lines.filter (!ls.contains ·) }).filter (!·.lines.isEmpty) ++
    [⟨ls, union [] codes⟩]

/-- Adds codes to what is silenced on a line, and on the lines that share it. -/
def extend (l : Int) (codes : List String) (ss : List Silence) : List Silence :=
  if ss.any (·.lines.contains l) then
    ss.map fun s => if s.lines.contains l then { s with codes := union s.codes codes } else s
  else ss ++ [⟨[l], union [] codes⟩]

/-- A line that holds a comment only. -/
def isComment (line : List Char) : Bool := ['/', '/'].isPrefixOf (Text.trim line)

/-- What a line silences. -/
def silencesAfter (n : Int) (line : List Char) (ss : List Silence) : List Silence :=
  let ss := match noqa? line with
    | some codes => replace (if isComment line then [n, n + 1] else [n]) codes ss
    | none => ss
  match command? "ignore" line with
  | some codes =>
    if isComment line then extend (n + 1) codes (extend n codes ss) else extend n codes ss
  | none => ss

/-- The codes that are disabled after a line. -/
def disabledAfter (line : List Char) (codes : List String) : List String :=
  let codes := union codes ((command? "disable" line).getD [])
  match command? "enable" line with
  | some off => codes.filter (!off.contains ·)
  | none => codes

/-- Reads the directives of the lines from number `n` on. -/
def directivesFrom (n : Int) (active : List String) (d : Directives) : List (List Char) → Directives
  | [] => d
  | line :: ls =>
    directivesFrom (n + 1) (disabledAfter line active)
      ⟨silencesAfter n line d.silences, d.disabled ++ active.map (·, n)⟩ ls

/-- `parse_inline_directives`: the directives of a text. -/
def directives (content : List Char) : Directives :=
  directivesFrom 1 [] ⟨[], []⟩ (Text.lines content)

/-- `is_ignored`: whether a complaint of that code is silenced on that line. -/
def Directives.silenced (d : Directives) (line : Int) (code : String) : Bool :=
  d.silences.any (fun s => s.lines.contains line && (s.codes.isEmpty || s.codes.contains code)) ||
    d.disabled.contains (code, line)

end Partitura.Lint
