import Partitura.ManuScript.Lexer
import Partitura.Text.Trim

/-!
# Layout of statements

One statement a line, four blanks for every open brace, one blank around operators and after commas
and none inside parentheses. The lines are laid out from the tokens alone: where the text had its
blanks and line breaks does not matter.
-/

namespace Partitura.Layout

open ManuScript

/-- One step of indentation. -/
def indentation : List Char := [' ', ' ', ' ', ' ']

/-- The indentation of a level; none below zero. -/
def indentationOf (level : Int) : List Char := (List.replicate level.toNat indentation).flatten

/-- `_make_line`: a line from its parts: blanks at the ends go, and what is left is indented. -/
def makeLine (parts : List (List Char)) (level : Int) : List Char :=
  let content := Text.trim parts.flatten
  if content.isEmpty then [] else indentationOf level ++ content

/-- How a token stands in its line. -/
inductive Manner where
  /-- Ends the line, and the next ones are one step further in. -/
  | opensBlock
  /-- Stands on a line of its own, one step further out. -/
  | closesBlock
  /-- Ends the line. -/
  | endsStatement
  /-- Ends the line, after a blank. -/
  | remark
  /-- A blank before and one after. -/
  | headword
  /-- A blank on both sides, whatever stands there. -/
  | operator
  /-- A blank after. -/
  | separator
  /-- Follows what is before without a blank. -/
  | opener
  /-- Takes the blank before it away. -/
  | closer
  /-- A blank before, unless a bracket, a point or a blank is there. -/
  | word
deriving DecidableEq, Repr

/-- The manner of a kind of tokens. -/
def manner : Kind → Manner
  | .lbrace => .opensBlock
  | .rbrace => .closesBlock
  | .semicolon => .endsStatement
  | .comment => .remark
  | .kwIf | .kwWhile | .kwSwitch | .kwCase | .kwFor => .headword
  | .assign | .plus | .minus | .star | .slash | .lt | .gt | .lte | .gte | .neq | .kwAnd | .kwOr =>
    .operator
  | .comma => .separator
  | .lparen | .lbracket => .opener
  | .rparen | .rbracket | .dot => .closer
  | _ => .word

/-- Characters after which no blank is put. -/
def joinsNext (c : Char) : Bool := c == ' ' || c == '(' || c == '.' || c == '['

/-- `_space_before`: the parts of a line, the last one first, with a blank put after them where one
is needed. -/
def spaced : List (List Char) → List (List Char)
  | [] => []
  | p :: ps => if p.getLast?.any joinsNext then p :: ps else [' '] :: p :: ps

/-- `_strip_trailing_space`: the parts of a line, the last one first, without the blank at their
end. -/
def tightened : List (List Char) → List (List Char)
  | [] => []
  | p :: ps => if p.getLast? == some ' ' then Text.trimRight p :: ps else p :: ps

/-- `_flush_line`: the line of the parts, the last one first; none if there are no parts. -/
def flush (level : Int) (parts : List (List Char)) : List (List Char) :=
  if parts.isEmpty then [] else [makeLine parts.reverse level]

/-- The lines of the tokens, at that level of indentation, after the parts of the first line, the
last one first. -/
def linesOf (level : Int) (parts : List (List Char)) : List Token → List (List Char)
  | [] => flush level parts
  | t :: r =>
    let text := t.text.toList
    match manner t.kind with
    | .opensBlock => flush level ([' ', '\x7b'] :: parts) ++ linesOf (level + 1) [] r
    | .closesBlock =>
      flush level parts ++
        (if r.head?.any (·.kind = .kwElse) then linesOf (level - 1) [['\x7d']] r
          else makeLine [['\x7d']] (level - 1) :: linesOf (level - 1) [] r)
    | .endsStatement => flush level ([';'] :: parts) ++ linesOf level [] r
    | .remark => flush level (text :: spaced parts) ++ linesOf level [] r
    | .headword => linesOf level ((text ++ [' ']) :: spaced parts) r
    | .operator => linesOf level ((' ' :: text ++ [' ']) :: parts) r
    | .separator => linesOf level ([',', ' '] :: parts) r
    | .opener => linesOf level (text :: parts) r
    | .closer => linesOf level (text :: tightened parts) r
    | .word => linesOf level (text :: spaced parts) r

/-- `_format_statements`: the lines of some statements, from their text. -/
def statements (level : Int) (content : List Char) : List (List Char) :=
  linesOf level [] (lex .body ⟨1, 1⟩ content).tokens

end Partitura.Layout
