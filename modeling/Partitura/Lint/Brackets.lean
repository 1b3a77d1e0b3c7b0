import Partitura.ManuScript.Issue

/-!
# Brackets

Whether parentheses, braces and square brackets match, outside of strings and comments. A quote
after a backslash neither starts nor ends a string; a string may run over lines.
-/

namespace Partitura.Lint

open ManuScript

/-- Where a character stands: in the code, in a string of that quote, or in a comment. -/
inductive Mode where
  | code
  | text (quote : Char)
  | comment
deriving DecidableEq, Repr

/-- The bracket that closes an opening one. -/
def closer (c : Char) : Char :=
  if c == '(' then ')' else if c == '[' then ']' else '\x7d'

/-- An opening bracket. -/
def isOpener (c : Char) : Bool := c == '(' || c == '[' || c == '\x7b'

/-- A closing bracket. -/
def isCloser (c : Char) : Bool := c == ')' || c == ']' || c == '\x7d'

/-- The complaints about the brackets of a text: `prev` is the character before it, `opened` are the
brackets that are open, the last one first. -/
def bracketsFrom (mode : Mode) (prev : Option Char) (pos : Position)
    (opened : List (Position × Char)) : List Char → List Diagnostic
  | [] => opened.reverse.map fun (p, c) => ⟨p, .unclosed c⟩
  | c :: r =>
    let next : Position := ⟨pos.line, pos.col + 1⟩
    if c = '\n' then
      bracketsFrom (if mode = .comment then .code else mode) (some c) ⟨pos.line + 1, 1⟩ opened r
    else match mode with
      | .comment => bracketsFrom .comment (some c) next opened r
      | .text q =>
        let ends := c == q && prev != some '\\'
        bracketsFrom (if ends then .code else .text q) (some c) next opened r
      | .code =>
        if (c == '"' || c == '\'') && prev != some '\\' then
          bracketsFrom (.text c) (some c) next opened r
        else if c == '/' && r.head? == some '/' then bracketsFrom .comment (some c) next opened r
        else if isOpener c then bracketsFrom .code (some c) next ((pos, c) :: opened) r
        else if isCloser c then
          match opened with
          | [] => ⟨pos, .unmatchedClose c⟩ :: bracketsFrom .code (some c) next [] r
          | (p, o) :: outer =>
            if c = closer o then bracketsFrom .code (some c) next outer r
            else ⟨pos, .mismatchedClose (closer o) p c⟩ :: bracketsFrom .code (some c) next outer r
        else bracketsFrom .code (some c) next opened r

/-- `lint_braces`: the complaints about the brackets of a text. -/
def bracketIssues (content : List Char) : List Diagnostic :=
  bracketsFrom .code none ⟨1, 1⟩ [] content

end Partitura.Lint
