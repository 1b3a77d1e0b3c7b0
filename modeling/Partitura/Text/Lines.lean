import Partitura.Text.Search

/-!
# Lines

A text as lines: cut at every line feed, or cut after every line boundary of any kind; and the
reading of foreign line ends as line feeds.
-/

namespace Partitura.Text

/-- The lines of a text, cut at line feeds. -/
def lines (cs : List Char) : List (List Char) := splitOn '\n' cs

/-- The text of the lines. -/
def unlines (ls : List (List Char)) : List Char := joinWith ['\n'] ls

/-- Reads a carriage return, with or without a line feed after it, as one line feed. -/
def readLineEnds : List Char → List Char
  | [] => []
  | '\r' :: '\n' :: r => '\n' :: readLineEnds r
  | c :: r => (if c == '\r' then '\n' else c) :: readLineEnds r

/-- A character that ends a line, in the widest sense. -/
def endsLine (c : Char) : Bool :=
  [10, 11, 12, 13, 28, 29, 30, 133, 8232, 8233].contains c.toNat

/-- Cuts after every line boundary; each line keeps its boundary. -/
def fullLines : List Char → List (List Char)
  | [] => []
  | '\r' :: '\n' :: r => ['\r', '\n'] :: fullLines r
  | c :: r =>
    if endsLine c then [c] :: fullLines r
    else match fullLines r with
      | [] => [[c]]
      | l :: ls => (c :: l) :: ls

end Partitura.Text
